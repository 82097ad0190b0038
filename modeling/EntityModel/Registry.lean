import EntityModel.Entity
import EntityModel.Error

/-!
# Registries

A registry answers look-ups by identifier and lists the entities and relations of a model. Models
that are still being built and frozen schemas are both seen through it, and everything that follows
base entities, source fragments or relations is written once, over registries.

A base chain starts with an entity and follows its base as long as that resolves. `lineage` returns
the chain, or the way along which an entity is met for the second time.
-/

namespace EntityModel

/-- What may be chosen about resolution. -/
structure ResolveOptions where
  /-- Inherited references are narrowed to an entity derived from the one they were declared for. -/
  narrowReferences : Bool
  deriving DecidableEq, Repr

structure Registry where
  nameSpace : Option String
  options : ResolveOptions
  /-- All entities, in the order of their declaration. -/
  entities : List Entity
  /-- All relations, in the order of their declaration. -/
  relations : List Relation
  entity? : String → Option Entity
  type? : String → Option TypeReference
  fragment? : String → Option SourceFragment
  mem_of_entity? : ∀ {id e}, entity? id = some e → e ∈ entities ∧ e.id = id
  isSome_entity? : ∀ {e}, e ∈ entities → (entity? e.id).isSome
  id_of_type? : ∀ {id t}, type? id = some t → t.id = id
  id_of_fragment? : ∀ {id f}, fragment? id = some f → f.id = id

namespace Registry

def activeEntities (r : Registry) : List Entity := r.entities.filter (! ·.disabled)

def base? (r : Registry) (e : Entity) : Option Entity := e.base.bind r.entity?

theorem base?_eq_some {r : Registry} {e b : Entity} (h : r.base? e = some b) :
    e.base = some b.id ∧ r.entity? b.id = some b := by
  obtain ⟨id, hid, hb⟩ := Option.bind_eq_some_iff.1 h
  obtain ⟨_, same⟩ := r.mem_of_entity? hb
  exact ⟨same ▸ hid, same ▸ hb⟩

theorem mem_of_base? {r : Registry} {e b : Entity} (h : r.base? e = some b) : b ∈ r.entities :=
  (r.mem_of_entity? (base?_eq_some h).2).1

/-- How many entities have an identifier that has not been met. -/
def unseen (r : Registry) (seen : List String) : Nat :=
  (r.entities.filter fun e => e.id ∉ seen).length

theorem unseen_lt {r : Registry} {e : Entity} {seen : List String} (he : e ∈ r.entities)
    (new : e.id ∉ seen) : r.unseen (seen ++ [e.id]) < r.unseen seen := by
  have split : (r.entities.filter fun d => d.id ∉ seen ++ [e.id]) =
      (r.entities.filter fun d => d.id ∉ seen).filter fun d => d.id ≠ e.id := by
    rw [List.filter_filter]
    congr 1
    funext d
    by_cases h : d.id ∈ seen <;> by_cases h' : d.id = e.id <;> simp [h, h']
  unfold unseen
  rw [split]
  refine List.length_filter_lt_length_iff_exists.2 ⟨e, ?_, ?_⟩
  · exact List.mem_filter.2 ⟨he, by simpa using new⟩
  · simp

/-- The chain from an entity on, where the identifiers in `seen` have been met on the way to it. -/
def chainFrom (r : Registry) (seen : List String) (e : Entity) :
    Except ModelError (List Entity) :=
  match _base : r.base? e with
  | none => .ok [e]
  | some b =>
    if _met : b.id ∈ seen then .error (.cyclicInheritance (seen ++ [b.id]))
    else (r.chainFrom (seen ++ [b.id]) b).map (e :: ·)
termination_by r.unseen seen
decreasing_by exact unseen_lt (mem_of_base? _base) _met

theorem chainFrom_root {r : Registry} {seen : List String} {e : Entity} (h : r.base? e = none) :
    r.chainFrom seen e = .ok [e] := by
  rw [chainFrom]
  split <;> simp_all

theorem chainFrom_met {r : Registry} {seen : List String} {e b : Entity} (h : r.base? e = some b)
    (met : b.id ∈ seen) : r.chainFrom seen e = .error (.cyclicInheritance (seen ++ [b.id])) := by
  rw [chainFrom]
  split <;> simp_all

theorem chainFrom_new {r : Registry} {seen : List String} {e b : Entity} (h : r.base? e = some b)
    (new : b.id ∉ seen) :
    r.chainFrom seen e = (r.chainFrom (seen ++ [b.id]) b).map (e :: ·) := by
  rw [chainFrom]
  split
  · simp_all
  · next b' h' =>
    obtain rfl : b = b' := Option.some.inj (h.symm.trans h')
    rw [dif_neg new]

/-- An entity and its ancestors, nearest first. -/
def lineage (r : Registry) (e : Entity) : Except ModelError (List Entity) :=
  r.chainFrom [e.id] e

theorem chainFrom_of_subset {r : Registry} {seen : List String} {e : Entity} {chain : List Entity}
    (h : r.chainFrom seen e = .ok chain) {fewer : List String} (sub : ∀ id ∈ fewer, id ∈ seen) :
    r.chainFrom fewer e = .ok chain := by
  induction seen, e using chainFrom.induct (r := r) generalizing fewer chain with
  | case1 seen e root => rwa [chainFrom_root root] at h ⊢
  | case2 seen e b base met => simp [chainFrom_met base met] at h
  | case3 seen e b base new ih =>
    rw [chainFrom_new base new] at h
    rw [chainFrom_new base fun hb => new (sub _ hb)]
    cases rest : r.chainFrom (seen ++ [b.id]) b with
    | error err =>
      rw [rest] at h
      cases h
    | ok tail =>
      rw [ih rest fun id hid => ?_]
      · simpa [rest] using h
      · simp only [List.mem_append, List.mem_singleton] at hid ⊢
        exact hid.imp_left (sub id)

/-- The chain of an entity is the entity before the chain of its base. -/
theorem lineage_base {r : Registry} {e b : Entity} {chain : List Entity}
    (h : r.lineage e = .ok chain) (base : r.base? e = some b) :
    ∃ rest, r.lineage b = .ok rest ∧ chain = e :: rest := by
  unfold lineage at h
  by_cases met : b.id ∈ [e.id]
  · simp [chainFrom_met base met] at h
  · rw [chainFrom_new base met] at h
    cases rest : r.chainFrom ([e.id] ++ [b.id]) b with
    | error err =>
      rw [rest] at h
      cases h
    | ok tail =>
      rw [rest] at h
      cases h
      exact ⟨tail, chainFrom_of_subset rest (by simp), rfl⟩

/-- The number of entities on the base chain of an entity, where that ends. -/
def chainLength (r : Registry) (e : Entity) : Nat :=
  match r.lineage e with
  | .ok chain => chain.length
  | .error _ => 0

theorem chainLength_base {r : Registry} {e b : Entity} {chain : List Entity}
    (h : r.lineage e = .ok chain) (base : r.base? e = some b) :
    r.chainLength b < r.chainLength e := by
  obtain ⟨rest, hb, rfl⟩ := lineage_base h base
  simp [chainLength, h, hb]

/-- The root of an entity's chain, unless the entity is a root itself. -/
def superBase? (r : Registry) (e : Entity) : Except ModelError (Option Entity) := do
  let chain ← r.lineage e
  return if 1 < chain.length then chain.getLast? else none

/-- A reference behind the others, unless its fragment is among them. -/
def addMissing (refs : List FragmentRef) (ref : FragmentRef) : List FragmentRef :=
  if refs.any (·.fragment == ref.fragment) then refs else refs ++ [ref]

/-- The fragments of a chain, down to the first entity that does not inherit. -/
def gatherFragments (refs : List FragmentRef) : List Entity → List FragmentRef
  | [] => refs
  | e :: rest =>
    let refs := e.fragments.foldl addMissing refs
    if e.inheritsBaseTables then gatherFragments refs rest else refs

/-- The fragments that an entity has of its own and then those that it inherits, each once. -/
def effectiveFragments (r : Registry) (e : Entity) : Except ModelError (List FragmentRef) :=
  return gatherFragments [] (← r.lineage e)

end Registry

end EntityModel
