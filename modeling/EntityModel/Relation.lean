import EntityModel.Text.Plural

/-!
# Relations

A relation is kept in a join table, a source fragment with key columns for each of its ends. A
binary relation joins two entities, a self relation an entity with itself. An entity relation names
no table: it stands on one entity and is implemented by a property.
-/

namespace EntityModel

/-- A fixed value in a column of the join table. -/
structure RelationConstant where
  name : String
  value : String
  deriving DecidableEq, Repr

/-- How one end is reached from the other. -/
structure Accessor where
  name : Option String
  description : Option String
  /-- The identifier of a type that stands in for the entity reached. -/
  entityType : Option String
  deriving DecidableEq, Repr

def Accessor.unnamed : Accessor := ⟨none, none, none⟩

/-- One end of a binary relation. -/
structure RelationEnd where
  entity : String
  /-- The key columns of this end in the join table. -/
  fields : List String
  cascadeDelete : Bool
  accessor : Accessor
  deriving DecidableEq, Repr

namespace RelationEnd

def ofField (entity field : String) : RelationEnd := ⟨entity, [field], false, .unnamed⟩

def key (e : RelationEnd) : String := e.entity ++ ":" ++ ",".intercalate e.fields

/-- The name of the accessor, or the plural of the entity's name where none is declared. -/
def accessorOrDefault (e : RelationEnd) (entityName : String) : String :=
  match e.accessor.name with
  | some name => if name = "" then Text.pluralize entityName else name
  | none => Text.pluralize entityName

end RelationEnd

/-- One end of a self relation. -/
structure SelfRelationEnd where
  fields : List String
  cascadeDelete : Bool
  accessor : Accessor
  deriving DecidableEq, Repr

namespace SelfRelationEnd

def ofField (field : String) : SelfRelationEnd := ⟨[field], false, .unnamed⟩

def key (e : SelfRelationEnd) : String := ",".intercalate e.fields

end SelfRelationEnd

structure BinaryRelation where
  /-- The join table. -/
  sourceFragment : String
  left : RelationEnd
  right : RelationEnd
  /-- The entity in which the joins themselves are kept. -/
  underlyingEntity : Option String
  constants : List RelationConstant
  disabled : Bool
  deriving DecidableEq, Repr

namespace BinaryRelation

def ofEnds (sourceFragment : String) (left right : RelationEnd) : BinaryRelation :=
  ⟨sourceFragment, left, right, none, [], false⟩

def addConstant (r : BinaryRelation) (name value : String) : BinaryRelation :=
  { r with constants := r.constants ++ [⟨name, value⟩] }

def opposite? (r : BinaryRelation) (entity : String) : Option RelationEnd :=
  if r.left.entity = entity then some r.right
  else if r.right.entity = entity then some r.left
  else none

end BinaryRelation

structure SelfRelation where
  sourceFragment : String
  entity : String
  direct : SelfRelationEnd
  reverse : SelfRelationEnd
  underlyingEntity : Option String
  constants : List RelationConstant
  disabled : Bool
  deriving DecidableEq, Repr

def SelfRelation.ofEnds (sourceFragment entity : String) (direct reverse : SelfRelationEnd) :
    SelfRelation :=
  ⟨sourceFragment, entity, direct, reverse, none, [], false⟩

/-- A relation of the model. -/
inductive Relation where
  | binary (relation : BinaryRelation)
  | self (relation : SelfRelation)
  deriving DecidableEq, Repr

namespace Relation

def sourceFragment : Relation → String
  | binary r => r.sourceFragment
  | self r => r.sourceFragment

def disabled : Relation → Bool
  | binary r => r.disabled
  | self r => r.disabled

def underlyingEntity : Relation → Option String
  | binary r => r.underlyingEntity
  | self r => r.underlyingEntity

def constants : Relation → List RelationConstant
  | binary r => r.constants
  | self r => r.constants

def binary? : Relation → Option BinaryRelation
  | binary r => some r
  | self _ => none

def self? : Relation → Option SelfRelation
  | binary _ => none
  | self r => some r

/-- Whether an entity stands at one of the ends. -/
def takesPart (r : Relation) (entity : String) : Bool :=
  match r with
  | binary r => r.left.entity == entity || r.right.entity == entity
  | self r => r.entity == entity

/-- The keys of the left or direct end and of the right or reverse end. -/
def endpointKeys : Relation → String × String
  | binary r => (r.left.key, r.right.key)
  | self r => (r.entity ++ ":" ++ r.direct.key, r.entity ++ ":" ++ r.reverse.key)

def entities (r : Relation) : List String :=
  (match r with
    | binary r => [r.left.entity, r.right.entity]
    | self r => [r.entity]) ++ r.underlyingEntity.toList

end Relation

/-- A relation as seen from the entity that owns the property behind it. -/
structure EntityRelation where
  name : Option String
  /-- The owner of the property. -/
  entity : String
  /-- The entity that the property refers to, where its alias is not given. -/
  sourceEntity : String
  propertyAlias : Option String
  accessor : Accessor
  disabled : Bool
  deriving DecidableEq, Repr

def EntityRelation.between (entity sourceEntity : String) : EntityRelation :=
  ⟨none, entity, sourceEntity, none, .unnamed, false⟩

end EntityModel
