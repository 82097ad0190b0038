import EntityModel.Registry

/-!
# Admission

What a source fragment or a property has to satisfy before it may join an entity, given the
fragments that count as attached to the entity already.
-/

namespace EntityModel

/-- `value` at a position of a list, or behind the list where it is too short. -/
def insertWithin {α : Type} (l : List α) (position : Nat) (value : α) : List α :=
  l.insertIdx (min position l.length) value

def isAttached (attached : List FragmentRef) (fragment : String) : Bool :=
  attached.any (·.fragment == fragment)

/-- The anchor of a secondary fragment is attached before the fragment. -/
def checkAnchor (entity : String) (attached : List FragmentRef) (ref : FragmentRef) :
    Except ModelError Unit :=
  match ref.anchor with
  | none => .ok ()
  | some anchor =>
    if isAttached attached anchor then .ok ()
    else .error (.unknownSourceFragment anchor (.anchor ref.fragment entity))

namespace Registry

def checkFragment (r : Registry) (entity : String) (attached : List FragmentRef)
    (ref : FragmentRef) : Except ModelError Unit :=
  if (r.fragment? ref.fragment).isNone then
    .error (.unknownSourceFragment ref.fragment (.entity entity))
  else if isAttached attached ref.fragment then
    .error (.duplicateReference entity ref.fragment)
  else .ok ()

/-- Whether a registered entity is another one or has it among its ancestors. -/
def derivesFrom (r : Registry) (derived base : String) : Bool :=
  match r.entity? derived with
  | none => false
  | some e =>
    match r.lineage e with
    | .ok chain => chain.any (·.id == base)
    | .error _ => false

/-- Whether a property may have a kind of type where another one is registered: the same kind, or a
reference to an entity that derives from the registered target. -/
def isConsistent (r : Registry) : TypeKind → TypeKind → Bool
  | .entity declared, .entity target => declared == target || r.derivesFrom declared target
  | declared, registered => declared == registered

/-- The type of a property is registered, with a kind that the property's own is consistent with. -/
def checkPropertyType (r : Registry) (entity : String) (p : Property) : Except ModelError Unit :=
  match r.type? p.type.id with
  | none => .error (.unknownType entity p.aliasName p.type.id)
  | some registered =>
    if r.isConsistent p.type.kind registered.kind then .ok ()
    else .error (.typeMismatch entity p.aliasName p.type.id p.type.kind registered.kind)

def checkPropertyFragment (entity : String) (attached : List FragmentRef) (p : Property) :
    Except ModelError Unit :=
  match p.sourceFragment with
  | none => .ok ()
  | some fragment =>
    if isAttached attached fragment then .ok ()
    else .error (.unknownSourceFragment fragment (.property p.aliasName entity))

/-- A property has an alias of its own, a sound type and an attached fragment, in this order. -/
def checkProperty (r : Registry) (entity : String) (properties : List Property)
    (attached : List FragmentRef) (p : Property) : Except ModelError Unit := do
  if properties.any (·.aliasName == p.aliasName) then
    throw (.duplicateAlias entity p.aliasName)
  r.checkPropertyType entity p
  checkPropertyFragment entity attached p

end Registry

end EntityModel
