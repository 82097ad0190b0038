import EntityModel.Form.Entity
import EntityModel.Model.Edit

/-!
# Loading a model

A source is a model as it is declared in a text, with nothing checked. Loading replays its
declarations one by one as changes to an empty model: the includes, the types, the fragments, then
the entities with bases before the entities derived from them, then the relations. The entities of
the result stand in the order in which they are declared.
-/

namespace EntityModel

/-- The declarations of a model, unchecked. -/
structure ModelSource where
  nameSpace : Option String
  types : List TypeReference
  fragments : List SourceFragment
  entities : List Entity
  relations : List Relation
  includes : List ModelSource
  extensions : Extensions

namespace ModelSource

def empty : ModelSource := ⟨none, [], [], [], [], [], .empty⟩

instance : Inhabited ModelSource := ⟨empty⟩

def decoderOver (other : Decoder ModelSource) : Decoder ModelSource :=
  .record <| mk <$> .string? "namespace" <*> .list "types" TypeReference.decoder <*>
    .list "source_fragments" SourceFragment.decoder <*> .list "entities" Entity.decoder <*>
    .list "relations" Relation.decoder <*> .list "includes" other <*>
    .orElse "extensions" Extensions.decoder .empty

/-- Reads a source within a number of levels. It takes two of them, its own and that of the list of
its includes. -/
def decoderWithin : (levels : Nat) → Decoder ModelSource
  | n + 2 => decoderOver (decoderWithin n)
  | _ => decoderOver .nothing

def decoder : Decoder ModelSource := .ofLevels decoderWithin

def ofText (text : String) : Except JsonError ModelSource := decoder.ofText text

/-- Whether the base of an entity does not keep it waiting: it has none, or one that is placed, or
one from elsewhere. -/
def isReady (declared placed : List String) (e : Entity) : Bool :=
  e.base.all fun base => !declared.contains base || placed.contains base

def nextRound (declared placed : List String) (waiting : List Entity) : List Entity :=
  waiting.filter (isReady declared placed)

def laterRounds (declared placed : List String) (waiting : List Entity) : List Entity :=
  waiting.filter (! isReady declared placed ·)

theorem laterRounds_length {declared placed : List String} {waiting : List Entity}
    (h : nextRound declared placed waiting ≠ []) :
    (laterRounds declared placed waiting).length < waiting.length := by
  obtain ⟨e, he⟩ := List.exists_mem_of_ne_nil _ h
  obtain ⟨waits, isReady⟩ := List.mem_filter.1 he
  exact List.length_filter_lt_length_iff_exists.2 ⟨e, waits, by simpa using isReady⟩

/-- The entities in rounds: each round takes those that no longer wait for their base. Entities on a
base cycle, or derived from one, keep waiting and come last. -/
def placeBases (declared placed : List String) (waiting : List Entity) : List Entity :=
  if _done : nextRound declared placed waiting = [] then waiting
  else
    nextRound declared placed waiting ++
      placeBases declared (placed ++ (nextRound declared placed waiting).map (·.id))
        (laterRounds declared placed waiting)
termination_by waiting.length
decreasing_by exact laterRounds_length _done

def basesFirst (entities : List Entity) : List Entity :=
  placeBases (entities.map (·.id)) [] entities

def withAlias (p : Property) : Property :=
  if p.aliasName = "" then { p with aliasName := p.name } else p

def withAliases (e : Entity) : Entity := { e with properties := e.properties.map withAlias }

/-- The place of an identifier in a list, counted from one, or zero where it is not there. -/
def placeIn (order : List String) (id : String) : Nat := (order.idxOf? id).elim 0 (· + 1)

/-- Whether the identifier of one entity has no later place than that of another. -/
def inOrder (order : List String) (e d : Entity) : Bool := placeIn order e.id ≤ placeIn order d.id

/-- Sorts the entities of a model by the places of their identifiers in a list. -/
def restoreOrder (order : List String) (m : Model) : Model :=
  { m with entities := m.entities.mergeSort (inOrder order) }

def replayDeclared (types : List TypeReference) (fragments : List SourceFragment)
    (entities : List Entity) (relations : List Relation) : Edit Unit := do
  types.forM Edit.addType
  fragments.forM Edit.addFragment
  (basesFirst entities).forM fun e => Edit.addEntity (withAliases e)
  modify (restoreOrder (entities.map (·.id)))
  relations.forM Edit.addRelation

mutual

def load : ModelSource → Except ModelError Model
  | ⟨nameSpace, types, fragments, entities, relations, includes, extensions⟩ =>
    Edit.result
      (do
        replayIncludes includes
        replayDeclared types fragments entities relations)
      { Model.ofNameSpace nameSpace with extensions := extensions }
termination_by structural source => source

def replayIncludes : List ModelSource → Edit Unit
  | [] => pure ()
  | source :: rest => do
    let other ← Edit.check source.load
    Edit.addInclude other
    replayIncludes rest
termination_by structural sources => sources

end

end ModelSource

end EntityModel
