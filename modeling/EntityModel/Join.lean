import EntityModel.Completion

/-!
# Joins

The relations of an entity are those of the registry in which it takes part. Two declarations that
come down to one join are an error, on one entity and between an entity and its base. A join is told
by its key: the table, both ends, and the root of the entity in which the joins are kept.

Relations are told apart by their position in the registry, so that a relation in which an entity
and its base both take part is not held against itself.
-/

namespace EntityModel.Registry

/-- A relation and its position in the registry. -/
abbrev PlacedRelation := Relation × Nat

/-- The name by which the root of an entity's chain goes into a join key. -/
def rootName (r : Registry) (id : String) : Except ModelError String :=
  match r.entity? id with
  | none => return id
  | some e => return ((← r.superBase? e).getD e).name

def joinKey (r : Registry) (relation : Relation) : Except ModelError String := do
  let table := match r.fragment? relation.sourceFragment with
    | some f => f.name
    | none => relation.sourceFragment
  let (left, right) := relation.endpointKeys
  let ends := table ++ "|" ++ left ++ "|" ++ right
  match relation.underlyingEntity with
  | none => return ends
  | some underlying => return ends ++ "|" ++ (← r.rootName underlying)

/-- Notes the join of a relation among those noted so far; a join noted before is ambiguous. -/
def noteJoin (r : Registry) (entity : String) (noted : List String) (relation : PlacedRelation) :
    Except ModelError (List String) := do
  let key ← r.joinKey relation.1
  if noted.contains key then throw (.ambiguousRelation entity key)
  return key :: noted

def accepts (withDisabled : Bool) (relation : Relation) : Bool := withDisabled || !relation.disabled

def relationsOf (r : Registry) (entity : String) (withDisabled : Bool) : List PlacedRelation :=
  r.relations.zipIdx.filter fun (relation, _) =>
    relation.takesPart entity && accepts withDisabled relation

def binaryRelationsOf (r : Registry) (entity : String) (withDisabled : Bool) :
    List PlacedRelation :=
  (r.relationsOf entity withDisabled).filter (·.1.binary?.isSome)

def selfRelationsOf (r : Registry) (entity : String) (withDisabled : Bool) : List PlacedRelation :=
  (r.relationsOf entity withDisabled).filter (·.1.self?.isSome)

/-- The binary relations of the first entity of a chain. Each entity of the chain is checked by
itself and together with the one behind it. -/
def checkChain (r : Registry) (withDisabled : Bool) :
    List Entity → Except ModelError (List PlacedRelation)
  | [] => .ok []
  | e :: ancestors => do
    let own := r.binaryRelationsOf e.id withDisabled
    let noted ← own.foldlM (r.noteJoin e.id) []
    let inherited ← r.checkChain withDisabled ancestors
    let others := inherited.filter fun relation => own.all (·.2 != relation.2)
    let _ ← others.foldlM (r.noteJoin e.id) noted
    return own

/-- The binary relations of an entity, when no two of them, or of them and those of its base, are
one join. -/
def checkedBinary (r : Registry) (e : Entity) (withDisabled : Bool) :
    Except ModelError (List PlacedRelation) := do
  r.checkChain withDisabled (← r.lineage e)

def binaryRelations (r : Registry) (e : Entity) (withDisabled : Bool) :
    Except ModelError (List BinaryRelation) :=
  return (← r.checkedBinary e withDisabled).filterMap (·.1.binary?)

/-- The self relations of an entity, checked together with the binary relations of its base. -/
def selfRelations (r : Registry) (e : Entity) (withDisabled : Bool) :
    Except ModelError (List SelfRelation) := do
  let own := r.selfRelationsOf e.id withDisabled
  let noted ← own.foldlM (r.noteJoin e.id) []
  if let some base := r.base? e then
    let inherited ← r.checkedBinary base withDisabled
    let _ ← inherited.foldlM (r.noteJoin e.id) noted
  return own.filterMap (·.1.self?)

/-- The relations of an entity, of both shapes, when its binary ones are not ambiguous. -/
def allRelations (r : Registry) (e : Entity) (withDisabled : Bool) :
    Except ModelError (List Relation) := do
  let _ ← r.checkedBinary e withDisabled
  return (r.relationsOf e.id withDisabled).map (·.1)

/-- Whether a property refers to an entity: as it is, or, when it has been narrowed, as its type is
registered. -/
def refersTo (r : Registry) (p : Property) (target : String) : Bool :=
  p.type.target? == some target ||
    (p.refreshed && (r.type? p.type.id).any fun type => type.target? == some target)

/-- The property among those of a completed owner that implements an entity relation. With an alias
it is the property of that alias, and without one the only property that refers to the source
entity. -/
def associate (r : Registry) (relation : EntityRelation) (owner : Entity) :
    Except ModelError Property :=
  match relation.propertyAlias with
  | some aliasName =>
    match owner.propertyByAlias? aliasName with
    | some p => .ok p
    | none => .error (.notFound .property aliasName relation.entity)
  | none =>
    match owner.properties.filter (r.refersTo · relation.sourceEntity) with
    | [p] => .ok p
    | [] => .error (.unresolvedRelation relation.entity relation.sourceEntity .undetermined)
    | _ => .error (.unresolvedRelation relation.entity relation.sourceEntity .multiple)

/-- The property that implements an entity relation, where `complete` is how entities are
completed. -/
def relationPropertyBy {m : Type → Type} [Monad m] [MonadExceptOf ModelError m]
    (complete : String → m Entity) (r : Registry) (relation : EntityRelation) : m Property := do
  if (r.entity? relation.entity).isNone then
    throw (.unknownEntity relation.entity .relationOwner)
  let owner ← complete relation.entity
  MonadExcept.ofExcept (r.associate relation owner)

def relationProperty (r : Registry) (relation : EntityRelation) : Except ModelError Property :=
  relationPropertyBy r.complete r relation

end EntityModel.Registry
