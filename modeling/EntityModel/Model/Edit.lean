import EntityModel.Admission
import EntityModel.Model

/-!
# Changing a model

Every change to a model is checked against what the model holds. A change runs on a state: it hands
on the model also when it fails, and what it has done by then has to be undone by itself. Properties
and fragments are changed on entities that are declared on the model itself, not on an include.
-/

namespace EntityModel

/-- A change to a model that may fail. -/
abbrev Edit := EStateM ModelError Model

namespace Model

/-- The first identifier of another model that is visible from this one, types before fragments
before entities. Only what the other model itself declares is compared. -/
def clash? (m other : Model) : Option (ItemKind × String) :=
  ((other.types.find? fun t => (m.type? t.id).isSome).map fun t => (.type, t.id)).or
    (((other.fragments.find? fun f => (m.fragment? f.id).isSome).map
        fun f => (.sourceFragment, f.id)).or
      ((other.entities.find? fun e => (m.entity? e.id).isSome).map fun e => (.entity, e.id)))

/-- The list with the first entity of an identifier changed. -/
def changeFirst (id : String) (change : Entity → Entity) : List Entity → List Entity
  | [] => []
  | e :: rest => if e.id = id then change e :: rest else e :: changeFirst id change rest

def changeEntity (m : Model) (id : String) (change : Entity → Entity) : Model :=
  { m with entities := changeFirst id change m.entities }

end Model

namespace Edit

variable {α : Type}

def check (result : Except ModelError α) : Edit α :=
  match result with
  | .ok a => pure a
  | .error err => throw err

/-- The model after a change, or the reason why there is none. -/
def result (edit : Edit α) (m : Model) : Except ModelError Model :=
  match edit.run m with
  | .ok _ after => .ok after
  | .error err _ => .error err

def addType (t : TypeReference) : Edit Unit := do
  if ((← get).type? t.id).isSome then throw (.duplicateIdentifier .type t.id)
  modify fun m => { m with types := m.types ++ [t] }

def addFragment (f : SourceFragment) : Edit Unit := do
  if ((← get).fragment? f.id).isSome then throw (.duplicateIdentifier .sourceFragment f.id)
  modify fun m => { m with fragments := m.fragments ++ [f] }

/-- Adds a relation whose join table is registered. Its entities may come later. -/
def addRelation (relation : Relation) : Edit Unit := do
  if ((← get).fragment? relation.sourceFragment).isNone then
    throw (.unknownSourceFragment relation.sourceFragment .relation)
  modify fun m => { m with relations := m.relations ++ [relation] }

/-- Makes the declarations of another model visible from this one. -/
def addInclude (other : Model) : Edit Unit := do
  match (← get).clash? other with
  | some (kind, id) => throw (.duplicateIdentifier kind id)
  | none => modify fun m => { m with includes := m.includes ++ [other] }

def setModelExtension (name : String) (node : ExtensionNode) : Edit Unit :=
  modify fun m => { m with extensions := m.extensions.insert name node }

def ownEntity (id : String) : Edit Entity := do
  match (← get).ownEntity? id with
  | some e => return e
  | none => throw (.unknownEntity id .mutation)

def changeEntity (id : String) (change : Entity → Entity) : Edit Unit := do
  let _ ← ownEntity id
  modify (·.changeEntity id change)

/-- Inserts a property. The fragments that count as attached are the effective ones. -/
def insertProperty (entity : String) (position : Nat) (p : Property) : Edit Unit := do
  let e ← ownEntity entity
  let r := (← get).registry
  let attached ← check (r.effectiveFragments e)
  check (r.checkProperty e.id e.properties attached p)
  changeEntity entity fun e =>
    { e with properties := insertWithin e.properties position (p.ownedBy e.id) }

def addProperty (entity : String) (p : Property) : Edit Unit := do
  let e ← ownEntity entity
  insertProperty entity e.properties.length p

/-- Takes a property off an entity and hands it back without an owner. -/
def removeProperty (entity aliasName : String) : Edit Property := do
  let e ← ownEntity entity
  match e.propertyByAlias? aliasName with
  | none => throw (.notFound .property aliasName e.id)
  | some p =>
    changeEntity entity fun e =>
      { e with properties := e.properties.eraseP (·.aliasName == aliasName) }
    return p.detached

/-- Attaches a fragment, whose anchor has to be attached before it. -/
def insertFragment (entity : String) (position : Nat) (ref : FragmentRef) : Edit Unit := do
  let e ← ownEntity entity
  let r := (← get).registry
  let attached ← check (r.effectiveFragments e)
  check (r.checkFragment e.id attached ref)
  check (checkAnchor e.id attached ref)
  changeEntity entity fun e => { e with fragments := insertWithin e.fragments position ref }

def attachFragment (entity : String) (ref : FragmentRef) : Edit Unit := do
  let e ← ownEntity entity
  insertFragment entity e.fragments.length ref

def clearFragments (entity : String) : Edit Unit :=
  changeEntity entity fun e => { e with fragments := [] }

def suppress (entity name : String) : Edit Unit :=
  changeEntity entity fun e =>
    if e.isSuppressed name then e else { e with suppressed := e.suppressed ++ [name] }

def addEntityRelation (entity : String) (relation : EntityRelation) : Edit Unit :=
  changeEntity entity fun e => { e with entityRelations := e.entityRelations ++ [relation] }

def setExtension (entity name : String) (node : ExtensionNode) : Edit Unit :=
  changeEntity entity fun e => { e with extensions := e.extensions.insert name node }

def setInheritsBaseTables (entity : String) (inherits : Bool) : Edit Unit :=
  changeEntity entity fun e => { e with inheritsBaseTables := inherits }

def setDisabled (entity : String) (disabled : Bool) : Edit Unit :=
  changeEntity entity fun e => { e with disabled := disabled }

/-- Changes the base of an entity. A base that would close a cycle is taken back. -/
def setBase (entity : String) (base : Option String) : Edit Unit := do
  let previous := (← ownEntity entity).base
  changeEntity entity fun e => { e with base := base }
  let changed ← ownEntity entity
  match (← get).registry.lineage changed with
  | .ok _ => return
  | .error err =>
    changeEntity entity fun e => { e with base := previous }
    throw err

/-- Attaches the fragments and then the properties that an entity declares. -/
def attachDeclared (entity : String) (fragments : List FragmentRef) (properties : List Property) :
    Edit Unit := do
  fragments.forM (attachFragment entity)
  properties.forM (addProperty entity)

/-- Adds an entity bare and then what it declares, piece by piece, so that each piece meets the
checks of a later change. When one fails the entity is taken off again. -/
def addEntity (e : Entity) : Edit Unit := do
  if ((← get).entity? e.id).isSome then throw (.duplicateIdentifier .entity e.id)
  modify fun m =>
    { m with entities := m.entities ++ [{ e with fragments := [], properties := [] }] }
  try attachDeclared e.id e.fragments e.properties
  catch err =>
    modify fun m => { m with entities := m.entities.dropLast }
    throw err

end Edit

end EntityModel
