import EntityModel.Admission

/-!
# Completing entities

The complete view of an entity is its declaration merged with the complete view of its base. The
result stands alone: it has no base, and all it needs is in it.

A merge takes name and text from the new entity and the switches of generation from the old one. The
properties of the old entity come before those of the new one, each in its own order. One of the old
entity is left out when an enabled one of the same name stands in the result already; a disabled one
in its place makes way for it. References to entities are narrowed as they are inherited.
-/

namespace EntityModel

/-- The properties of a merge as far as it has come. The last `ownCount` of them are those that the
new entity declares itself. -/
structure Draft where
  properties : List Property
  ownCount : Nat

namespace Draft

def boundary (d : Draft) : Nat := d.properties.length - d.ownCount

/-- Takes a property out. It is one of the own ones when it stands behind the boundary. -/
def removeAt (d : Draft) (index : Nat) : Draft :=
  let properties := d.properties.eraseIdx index
  { properties
    ownCount := if properties.length + 1 - d.ownCount ≤ index then d.ownCount - 1 else d.ownCount }

end Draft

/-- A description that is not empty, the new one before the old one. -/
def mergeDescriptions (old new : Option String) : Option String :=
  if new.any (· ≠ "") then new else old.or new

namespace Registry

def pushFragment (r : Registry) (entity : String) (refs : List FragmentRef) (position : Nat)
    (ref : FragmentRef) : Except ModelError (List FragmentRef) := do
  r.checkFragment entity refs ref
  return insertWithin refs position ref

def pushProperty (r : Registry) (entity : String) (attached : List FragmentRef)
    (properties : List Property) (position : Nat) (p : Property) :
    Except ModelError (List Property) := do
  r.checkProperty entity properties attached p
  return insertWithin properties position (p.ownedBy entity)

def activeSubtypes (r : Registry) (target : String) : List String :=
  (r.activeEntities.filter (·.base == some target)).map (·.id)

/-- The entity that an inherited reference is narrowed to: the one being completed, if it is an
active subtype of the target, or else the only such subtype. -/
def narrowedTarget? (r : Registry) (completing target : String) : Option String :=
  match r.activeSubtypes target with
  | [only] => some only
  | candidates => if candidates.contains completing then some completing else none

/-- The type of an inherited property, and whether it has been narrowed. -/
def narrow (r : Registry) (completing : String) (type : TypeReference) : TypeReference × Bool :=
  match type.target?.filter fun _ => r.options.narrowReferences with
  | none => (type, false)
  | some target =>
    match r.narrowedTarget? completing target with
    | some derived => (type.retarget derived, true)
    | none => (type, false)

/-- Inserts the fragments of an old entity whose tables are missing, each at the place that it has
there. -/
def insertMissingTables (r : Registry) (old : Entity) (entity : String)
    (refs : List FragmentRef) : Except ModelError (List FragmentRef) :=
  old.fragments.zipIdx.foldlM
    (fun refs (ref, position) => do
      match r.fragment? ref.fragment with
      | none => throw (.unknownSourceFragment ref.fragment (.entity old.id))
      | some f =>
        if refs.any fun other => (r.fragment? other.fragment).any (·.samePhysical f) then
          return refs
        r.pushFragment entity refs position ref)
    refs

/-- A property as it is inherited: narrowed, marked, and bound to its fragment only where that is
attached. -/
def inheritedForm (r : Registry) (entity : String) (attached : List FragmentRef) (p : Property) :
    Property :=
  let (type, refreshed) := r.narrow entity p.type
  { p with
    type
    sourceFragment := p.sourceFragment.filter (isAttached attached)
    fromBase := true
    refreshed }

def place (r : Registry) (entity : String) (attached : List FragmentRef) (d : Draft)
    (p : Property) : Except ModelError Draft := do
  let properties ← r.pushProperty entity attached d.properties d.boundary
    (r.inheritedForm entity attached p)
  return { d with properties }

def inherit (r : Registry) (entity : String) (attached : List FragmentRef) (d : Draft)
    (p : Property) : Except ModelError Draft :=
  match d.properties.findIdx? (·.name == p.name) with
  | none => r.place entity attached d p
  | some index =>
    if (d.properties[index]?).any (! ·.disabled) then .ok d
    else r.place entity attached (d.removeAt index) p

/-- The new entity on its own, with all the fragments that count as attached to it. -/
def settle (r : Registry) (new : Entity) : Except ModelError Entity := do
  let effective ← r.effectiveFragments new
  let fragments ← effective.foldlM
    (fun refs ref => r.pushFragment new.id refs refs.length ref) []
  let properties ← new.properties.foldlM
    (fun ps p => r.pushProperty new.id fragments ps ps.length p) []
  return { new with base := none, fragments, properties }

def bequeath (r : Registry) (old settled : Entity) : Except ModelError Entity := do
  let fragments ←
    if settled.inheritsBaseTables then r.insertMissingTables old settled.id settled.fragments
    else pure settled.fragments
  let draft ← old.properties.foldlM (r.inherit settled.id fragments)
    ⟨settled.properties, settled.properties.length⟩
  return { settled with
    description := mergeDescriptions old.description settled.description
    properties := draft.properties
    fragments
    suppressed := settled.suppressed ++ old.suppressed
    useGenerics := old.useGenerics
    makeInterface := old.makeInterface
    cacheCheckRequired := old.cacheCheckRequired
    behaviour := old.behaviour }

/-- Merges a new entity with the complete view of an old one, which need not be its base. -/
def merge (r : Registry) (old : Option Entity) (new : Entity) : Except ModelError Entity := do
  let settled ← r.settle new
  match old with
  | none => return settled
  | some old => r.bequeath old settled

/-- The number of entities on the base chain of a registered entity. -/
def height (r : Registry) (id : String) : Nat :=
  match r.entity? id with
  | some e => r.chainLength e
  | none => 0

theorem height_base_lt {r : Registry} {id : String} {e b : Entity} {chain : List Entity}
    (found : r.entity? id = some e) (h : r.lineage e = .ok chain) (base : r.base? e = some b) :
    r.height b.id < r.height id := by
  simp only [height, found, (base?_eq_some base).2]
  exact chainLength_base h base

/-- The complete view of a registered entity. A base chain that loops is refused before it is
followed. -/
def complete (r : Registry) (id : String) : Except ModelError Entity :=
  match _found : r.entity? id with
  | none => .error (.unknownEntity id .completion)
  | some e =>
    match _chain : r.lineage e with
    | .error err => .error err
    | .ok _ =>
      match _base : r.base? e with
      | none => r.merge none e
      | some b =>
        match r.complete b.id with
        | .ok old => r.merge (some old) e
        | .error err => .error err
termination_by r.height id
decreasing_by exact height_base_lt _found _chain _base

end Registry

end EntityModel
