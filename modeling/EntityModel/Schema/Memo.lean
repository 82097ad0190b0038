import EntityModel.Completion
import EntityModel.Schema

/-!
# Memoized completion

A schema that memoizes keeps the complete view of an entity once it has been computed, and so those
of its ancestors, from which it is computed. What fails is not kept.
-/

namespace EntityModel.Schema

/-- The complete views that are kept, by the identifiers of their entities. -/
structure Memo where
  views : List (String × Entity)

namespace Memo

def empty : Memo := ⟨[]⟩

instance : Inhabited Memo := ⟨empty⟩

def get? (memo : Memo) (id : String) : Option Entity := (memo.views.find? (·.1 == id)).map (·.2)

def insert (memo : Memo) (id : String) (view : Entity) : Memo := ⟨(id, view) :: memo.views⟩

def contains (memo : Memo) (id : String) : Bool := (memo.get? id).isSome

end Memo

/-- Resolution on top of the views that are kept, which stay also when it fails. -/
abbrev Resolve := ExceptT ModelError (StateM Memo)

def keep (s : Schema) (id : String) (view : Entity) : Resolve Unit :=
  if s.memoizes then modify (·.insert id view) else pure ()

def kept? (s : Schema) (id : String) : Resolve (Option Entity) := do
  if s.memoizes then return (← getThe Memo).get? id else return none

/-- The complete view of an entity, computed only when it is not kept. -/
def complete (s : Schema) (id : String) : Resolve Entity := do
  match ← s.kept? id with
  | some view => return view
  | none =>
    match _found : s.registry.entity? id with
    | none => throw (.unknownEntity id .completion)
    | some e =>
      match _chain : s.registry.lineage e with
      | .error err => throw err
      | .ok _ =>
        let old ← match _base : s.registry.base? e with
          | none => pure none
          | some b => some <$> s.complete b.id
        let view ← MonadExcept.ofExcept (s.registry.merge old e)
        s.keep id view
        return view
termination_by s.registry.height id
decreasing_by exact Registry.height_base_lt _found _chain _base

/-- The complete views of the active entities, in the order of their declaration. -/
def completeEntities (s : Schema) : Resolve (List Entity) :=
  s.registry.activeEntities.mapM fun e => s.complete e.id

/-- Whether the complete view of an entity is kept. -/
def isMemoized (s : Schema) (memo : Memo) (id : String) : Bool := s.memoizes && memo.contains id

end EntityModel.Schema
