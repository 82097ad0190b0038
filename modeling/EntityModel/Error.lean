import EntityModel.TypeReference

/-!
# Model errors

One constructor for each way in which a declaration can be at odds with the others. Each names the
declarations at fault, and `ModelError.message` words it.
-/

namespace EntityModel

/-- What an identifier is an identifier of. -/
inductive ItemKind where
  | entity
  | type
  | sourceFragment
  | property
  | relation
  deriving DecidableEq, Repr

def ItemKind.describe : ItemKind → String
  | entity => "entity"
  | type => "type"
  | sourceFragment => "source fragment"
  | property => "property"
  | relation => "relation"

/-- Who refers to an entity or a source fragment that is not known. -/
inductive Referrer where
  | completion
  | lookup
  | mutation
  | relationOwner
  | base (entity : String)
  | type (id : String)
  | entity (id : String)
  | anchor (fragment entity : String)
  | property (aliasName entity : String)
  | entityRelation (entity : String)
  | relation
  | relationOn (fragment : String)
  deriving DecidableEq, Repr

def Referrer.describe : Referrer → String
  | .completion => "complete entity request"
  | .lookup => "entity lookup"
  | .mutation => "entity mutation"
  | .relationOwner => "entity relation owner"
  | .base derived => s!"base of entity '{derived}'"
  | .type id => s!"type '{id}'"
  | .entity id => s!"entity '{id}'"
  | .anchor fragment owner => s!"anchor of fragment '{fragment}' on entity '{owner}'"
  | .property aliasName owner => s!"property '{aliasName}' of entity '{owner}'"
  | .entityRelation owner => s!"entity relation on '{owner}'"
  | .relation => "relation"
  | .relationOn fragment => s!"relation on fragment '{fragment}'"

/-- Why no property implements an entity relation. -/
inductive AssociationFault where
  | undetermined
  | multiple
  deriving DecidableEq, Repr

def AssociationFault.describe : AssociationFault → String
  | undetermined => "cannot determine association"
  | multiple => "multiple candidate associations"

/-- The three shapes of a type, as they are asked for. -/
inductive TypeShape where
  | native
  | user
  | entity
  deriving DecidableEq, Repr

inductive ModelError where
  | duplicateAlias (entity aliasName : String)
  | duplicateReference (entity fragment : String)
  | unknownType (entity property typeId : String)
  | typeMismatch (entity property typeId : String) (declared registered : TypeKind)
  | unknownSourceFragment (fragment : String) (referrer : Referrer)
  | unknownEntity (entity : String) (referrer : Referrer)
  | duplicateIdentifier (kind : ItemKind) (id : String)
  | ambiguousRelation (entity key : String)
  | unresolvedRelation (entity sourceEntity : String) (fault : AssociationFault)
  | otherShape (typeId : String) (wanted : TypeShape)
  | notFound (kind : ItemKind) (name entity : String)
  | cyclicInheritance (path : List String)
  deriving DecidableEq, Repr

namespace ModelError

def message : ModelError → String
  | duplicateAlias entity aliasName =>
    s!"Property with alias '{aliasName}' already exists on entity '{entity}'"
  | duplicateReference entity fragment =>
    s!"Source fragment '{fragment}' is already attached to entity '{entity}'"
  | unknownType entity property typeId =>
    s!"Property '{property}' of entity '{entity}' has type '{typeId}' which is not registered"
  | typeMismatch entity property typeId declared registered =>
    s!"Property '{property}' of entity '{entity}' declares type '{typeId}' as " ++
      s!"{declared.describe}, but it is registered as {registered.describe}"
  | unknownSourceFragment fragment referrer =>
    s!"Source fragment '{fragment}' referenced by {referrer.describe} is not known"
  | unknownEntity entity referrer =>
    s!"Entity '{entity}' referenced by {referrer.describe} is not known"
  | duplicateIdentifier kind id => s!"Duplicate {kind.describe} identifier: '{id}'"
  | ambiguousRelation entity key =>
    s!"Ambiguous many-to-many relation for entity '{entity}': {key}"
  | unresolvedRelation entity sourceEntity fault =>
    s!"Cannot resolve relation from '{sourceEntity}' to '{entity}': {fault.describe}. " ++
      "Specify a property alias."
  | otherShape typeId .native =>
    s!"Invalid state: type '{typeId}' is valid only for native type. Check is_native() first"
  | otherShape typeId .user =>
    s!"Invalid state: type '{typeId}' is valid only for user type. Check is_user_type() first"
  | otherShape typeId .entity =>
    s!"Invalid state: type '{typeId}' is valid only for entity type. Check is_entity_type() first"
  | notFound kind name entity => s!"{kind.describe} '{name}' in entity '{entity}' not found"
  | cyclicInheritance path => "Cyclic inheritance detected: " ++ " -> ".intercalate path

end ModelError

namespace TypeReference

/-- The native type, for a caller that relies on there being one. -/
def native (type : TypeReference) : Except ModelError NativeType :=
  match type.kind.native? with
  | some native => .ok native
  | none => .error (.otherShape type.id .native)

def userName (type : TypeReference) : Except ModelError String :=
  match type.kind.userName? with
  | some name => .ok name
  | none => .error (.otherShape type.id .user)

def target (type : TypeReference) : Except ModelError String :=
  match type.target? with
  | some target => .ok target
  | none => .error (.otherShape type.id .entity)

end TypeReference

end EntityModel
