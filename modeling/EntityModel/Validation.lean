import EntityModel.Admission

/-!
# Validation

The problems of a registry: what a change to a model cannot see when it is made, because the
declaration it would be at odds with comes later or goes away. All problems are reported, in the
order of the passes: identifiers, bases, targets of types, then entity by entity, then relations. An
entity whose base chain loops is not looked into, and a loop is reported once.
-/

namespace EntityModel.Registry

def repeated {α : Type} (key : α → String) (seen : List String) : List α → List α
  | [] => []
  | a :: rest =>
    if seen.contains (key a) then a :: repeated key seen rest
    else repeated key (key a :: seen) rest

/-- The members of a list that are the first with their key. -/
def firsts {α : Type} (key : α → String) (seen : List String) : List α → List α
  | [] => []
  | a :: rest =>
    if seen.contains (key a) then firsts key seen rest
    else a :: firsts key (key a :: seen) rest

def identifierProblems (r : Registry) : List ModelError :=
  (repeated (·.id) [] r.entities).map fun e => .duplicateIdentifier .entity e.id

def isKnown (r : Registry) (entity : String) : Bool := (r.entity? entity).isSome

def unknownEntity (r : Registry) (referrer : Referrer) (entity : String) : List ModelError :=
  if r.isKnown entity then [] else [.unknownEntity entity referrer]

/-- The members of the loop in which a way ends: all from the first place of its last identifier
on. -/
def loopMembers (path : List String) : List String :=
  match path.getLast? with
  | some last => path.dropWhile (· ≠ last)
  | none => []

def sameMembers (a b : List String) : Bool := a.all b.contains && b.all a.contains

/-- The problems of the bases of entities, where the loops in `reported` are known already. -/
def baseProblems (r : Registry) (reported : List (List String)) : List Entity → List ModelError
  | [] => []
  | e :: rest =>
    let dangling := e.base.toList.flatMap (r.unknownEntity (.base e.id))
    match r.lineage e with
    | .error (.cyclicInheritance path) =>
      let loop := loopMembers path
      if reported.any (sameMembers loop) then dangling ++ r.baseProblems reported rest
      else dangling ++ .cyclicInheritance path :: r.baseProblems (loop :: reported) rest
    | .error err => dangling ++ err :: r.baseProblems reported rest
    | .ok _ => dangling ++ r.baseProblems reported rest

/-- Whether the base chain of an entity ends. -/
def hasLineage (r : Registry) (e : Entity) : Bool :=
  match r.lineage e with
  | .ok _ => true
  | .error _ => false

/-- The types that properties use, each once, refer to registered entities. -/
def typeProblems (r : Registry) : List ModelError :=
  let used := firsts (·.type.id) [] (r.entities.flatMap (·.properties))
  used.flatMap fun p =>
    match r.type? p.type.id with
    | some type => type.target?.toList.flatMap (r.unknownEntity (.type type.id))
    | none => []

def problemOf : Except ModelError Unit → List ModelError
  | .ok _ => []
  | .error err => [err]

def entityProblems (r : Registry) (e : Entity) : List ModelError :=
  let unregistered := e.fragments.flatMap fun ref =>
    if (r.fragment? ref.fragment).isNone then
      [ModelError.unknownSourceFragment ref.fragment (.entity e.id)]
    else []
  match r.effectiveFragments e with
  | .error err => unregistered ++ [err]
  | .ok attached =>
    unregistered ++
      (e.fragments.flatMap fun ref => problemOf (checkAnchor e.id attached ref)) ++
      (e.properties.flatMap fun p =>
        problemOf (r.checkPropertyType e.id p) ++
          problemOf (checkPropertyFragment e.id attached p)) ++
      (e.entityRelations.flatMap fun relation =>
        [relation.entity, relation.sourceEntity].flatMap (r.unknownEntity (.entityRelation e.id)))

def relationProblems (r : Registry) (relation : Relation) : List ModelError :=
  let fragment := relation.sourceFragment
  (if (r.fragment? fragment).isNone then
    [ModelError.unknownSourceFragment fragment .relation]
  else []) ++
    relation.entities.flatMap (r.unknownEntity (.relationOn fragment))

def problems (r : Registry) : List ModelError :=
  let sound := (r.entities.filter r.hasLineage).map (·.id)
  r.identifierProblems ++ r.baseProblems [] r.entities ++ r.typeProblems ++
    (r.entities.filter fun e => sound.contains e.id).flatMap r.entityProblems ++
    r.relations.flatMap r.relationProblems

/-- Whether a registry has no problem, and otherwise all of them. -/
def validate (r : Registry) : Except (List ModelError) Unit :=
  match r.problems with
  | [] => .ok ()
  | errors => .error errors

end EntityModel.Registry
