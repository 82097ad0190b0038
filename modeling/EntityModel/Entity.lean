import EntityModel.Extension
import EntityModel.Fragment
import EntityModel.Property
import EntityModel.Relation

/-!
# Entities

An entity declares properties and attaches source fragments. It may name a base entity, whose
properties and, if it wants them, fragments it inherits.
-/

namespace EntityModel

/-- What is generated for an entity. -/
inductive EntityBehaviour where
  | default
  | partialObjects
  | forcePartial
  | abstract
  deriving DecidableEq, Repr

structure Entity where
  id : String
  name : String
  nameSpace : Option String
  description : Option String
  /-- The identifier of the base entity. -/
  base : Option String
  familyName : Option String
  properties : List Property
  fragments : List FragmentRef
  /-- The names of inherited properties that do not show. -/
  suppressed : List String
  inheritsBaseTables : Bool
  disabled : Bool
  useGenerics : Bool
  makeInterface : Bool
  cacheCheckRequired : Bool
  behaviour : EntityBehaviour
  entityRelations : List EntityRelation
  extensions : Extensions

namespace Entity

def ofName (id name : String) : Entity where
  id := id
  name := name
  nameSpace := none
  description := none
  base := none
  familyName := none
  properties := []
  fragments := []
  suppressed := []
  inheritsBaseTables := true
  disabled := false
  useGenerics := false
  makeInterface := false
  cacheCheckRequired := false
  behaviour := .default
  entityRelations := []
  extensions := .empty

instance : Inhabited Entity := ⟨ofName "" ""⟩

def activeProperties (e : Entity) : List Property := e.properties.filter (! ·.disabled)

def isSuppressed (e : Entity) (propertyName : String) : Bool := e.suppressed.contains propertyName

def visibleProperties (e : Entity) : List Property :=
  e.properties.filter (! e.isSuppressed ·.name)

def familyNameOrDefault (e : Entity) : String := e.familyName.getD e.name

/-- The first own property of that name. -/
def property? (e : Entity) (name : String) : Option Property :=
  e.properties.find? (·.name == name)

def propertyByAlias? (e : Entity) (aliasName : String) : Option Property :=
  e.properties.find? (·.aliasName == aliasName)

end Entity

end EntityModel
