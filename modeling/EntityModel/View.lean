import EntityModel.Join

/-!
# Views

A view is an entity seen through its registry. What needs the base chain or other declarations is
asked of the view. The questions that need complete views take `complete`, by which they get them,
so that they can be asked of a registry as it is and of a schema that keeps views.
-/

namespace EntityModel

structure EntityView where
  registry : Registry
  entity : Entity

def Registry.view (r : Registry) (id : String) : Except ModelError EntityView :=
  match r.entity? id with
  | some e => .ok ⟨r, e⟩
  | none => .error (.unknownEntity id .lookup)

namespace EntityView

/-- The declared namespace, or that of the registry when none or an empty one is declared. -/
def nameSpace (v : EntityView) : Option String :=
  match v.entity.nameSpace with
  | some name => if name = "" then v.registry.nameSpace else some name
  | none => v.registry.nameSpace

def base? (v : EntityView) : Option EntityView :=
  (v.registry.base? v.entity).map fun e => ⟨v.registry, e⟩

def superBase? (v : EntityView) : Except ModelError (Option EntityView) :=
  return (← v.registry.superBase? v.entity).map fun e => ⟨v.registry, e⟩

/-- Whether another entity is this one or derives from it. -/
def isAssignableFrom (v other : EntityView) : Except ModelError Bool :=
  return (← v.registry.lineage other.entity).any (·.id == v.entity.id)

def sourceFragments (v : EntityView) : Except ModelError (List FragmentRef) :=
  v.registry.effectiveFragments v.entity

def sourceFragment? (v : EntityView) (id : String) : Except ModelError (Option FragmentRef) :=
  return (← v.sourceFragments).find? (·.fragment == id)

/-- What was found, or the error that it was not where it has to be there. -/
def demand {α : Type} (v : EntityView) (kind : ItemKind) (name : String) (mustExist : Bool)
    (found : Option α) : Except ModelError (Option α) :=
  if found.isNone && mustExist then .error (.notFound kind name v.entity.id) else .ok found

def sourceFragment (v : EntityView) (id : String) (mustExist : Bool) :
    Except ModelError (Option FragmentRef) := do
  v.demand .sourceFragment id mustExist (← v.sourceFragment? id)

def property (v : EntityView) (name : String) (mustExist : Bool) :
    Except ModelError (Option Property) :=
  v.demand .property name mustExist (v.entity.property? name)

/-- Inherited properties behind those that are there, as long as the chain inherits tables. Of
several with one alias the nearest counts. -/
def gatherProperties (owner : String) (properties : List Property) :
    List Entity → List Property
  | [] => properties
  | e :: rest =>
    let properties := e.properties.foldl
      (fun ps p =>
        if ps.any (·.aliasName == p.aliasName) then ps else ps ++ [p.ownedBy owner])
      properties
    if e.inheritsBaseTables then gatherProperties owner properties rest else properties

/-- The own properties, and behind them those that are inherited together with the tables. -/
def completeProperties (v : EntityView) : Except ModelError (List Property) := do
  let ancestors := (← v.registry.lineage v.entity).drop 1
  return if v.entity.inheritsBaseTables then
    gatherProperties v.entity.id v.entity.properties ancestors
  else v.entity.properties

/-- The own properties of every ancestor, nearest first. -/
def propertiesFromBase (v : EntityView) : Except ModelError (List Property) :=
  return ((← v.registry.lineage v.entity).drop 1).flatMap (·.properties)

def keyCount (properties : List Property) : Nat :=
  (properties.filter fun p => !p.disabled && p.isKey).length

def ownKeyCount (v : EntityView) : Nat := keyCount v.entity.properties

def hasOwnKey (v : EntityView) : Bool := 0 < v.ownKeyCount

/-- Whether the root of the chain has exactly one key property. -/
def hasSingleKey (v : EntityView) : Except ModelError Bool := do
  match (← v.registry.lineage v.entity).getLast? with
  | some root => return keyCount root.properties == 1
  | none => return false

def keyProperties (v : EntityView) : Except ModelError (List Property) :=
  return (← v.completeProperties).filter (·.isKey)

def hasDeferred (properties : List Property) : Bool :=
  properties.any fun p => !p.disabled && p.isDeferred

def hasOwnDeferred (v : EntityView) : Bool := hasDeferred v.entity.properties

/-- The own enabled properties that are loaded on demand, by group. -/
def deferredLoadGroups (v : EntityView) : KeyedMap (List Property) :=
  let deferred := v.entity.properties.filter fun p => !p.disabled && p.isDeferred
  deferred.foldl
    (fun groups p =>
      match p.deferredGroup with
      | some group => groups.insert group ((groups.get? group).getD [] ++ [p])
      | none => groups)
    .empty

def relations (v : EntityView) (withDisabled : Bool) : Except ModelError (List BinaryRelation) :=
  v.registry.binaryRelations v.entity withDisabled

def selfRelations (v : EntityView) (withDisabled : Bool) : Except ModelError (List SelfRelation) :=
  v.registry.selfRelations v.entity withDisabled

def allRelations (v : EntityView) (withDisabled : Bool) : Except ModelError (List Relation) :=
  v.registry.allRelations v.entity withDisabled

/-- The names by which the far ends of the binary relations are reached. -/
def relationAccessors (v : EntityView) (withDisabled : Bool) : Except ModelError (List String) :=
  return (← v.relations withDisabled).filterMap fun relation =>
    (relation.opposite? v.entity.id).map fun far =>
      far.accessorOrDefault (((v.registry.entity? far.entity).map (·.name)).getD far.entity)

def entityRelations (v : EntityView) (withDisabled : Bool) : List EntityRelation :=
  v.entity.entityRelations.filter fun relation => withDisabled || !relation.disabled

section Completing

variable {m : Type → Type} [Monad m] [MonadExceptOf ModelError m] (complete : String → m Entity)

def completeEntity (v : EntityView) : m Entity := complete v.entity.id

/-- The number of enabled key properties of the complete view. -/
def completeKeyCount (v : EntityView) : m Nat :=
  return keyCount (← complete v.entity.id).properties

def hasCompleteKey (v : EntityView) : m Bool := return 0 < (← v.completeKeyCount complete)

def hasDeferredInHierarchy (v : EntityView) : m Bool :=
  return hasDeferred (← complete v.entity.id).properties

/-- Whether the complete view of an entity of a chain has more than one table. The chain is followed
only as far as the answer asks for. -/
def anyMultitable : List Entity → m Bool
  | [] => return false
  | e :: rest => do
    if 1 < (← complete e.id).fragments.length then return true
    anyMultitable rest

/-- Whether the entity or one of its ancestors spans more than one table. -/
def isMultitable (v : EntityView) : m Bool := do
  anyMultitable complete (← MonadExcept.ofExcept (v.registry.lineage v.entity))

end Completing

end EntityView

end EntityModel
