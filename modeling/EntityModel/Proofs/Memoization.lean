import EntityModel.Proofs.Resolution
import EntityModel.Proofs.Soundness
import EntityModel.Schema.Memo

/-!
# Memoized and plain resolution

A schema that memoizes gives the answers of one that does not. The invariant is `Coherent`: every
view that is kept is the right one, and the views of its ancestors are kept beside it.
-/

namespace EntityModel

namespace Schema

/-- The views of a memo that a schema makes use of. -/
def lookup (s : Schema) (memo : Memo) (id : String) : Option Entity :=
  if s.memoizes then memo.get? id else none

/-- A memo with one more view, where the schema memoizes. -/
def store (s : Schema) (memo : Memo) (id : String) (view : Entity) : Memo :=
  if s.memoizes then memo.insert id view else memo

/-- What becomes of a view once it has been computed, or has failed to be. -/
def settleWith (s : Schema) (id : String) (memo : Memo) (outcome : Except ModelError Entity) :
    Except ModelError Entity × Memo :=
  match outcome with
  | .ok view => (.ok view, s.store memo id view)
  | .error err => (.error err, memo)

section Run

variable (s : Schema) (memo : Memo) (id : String)

lemma kept?_run : (s.kept? id).run.run memo = (.ok (s.lookup memo id), memo) := by
  unfold kept? lookup
  split <;> rfl

lemma finish_run (outcome : Except ModelError Entity) :
    (do let view ← MonadExcept.ofExcept outcome
        s.keep id view
        return view : Resolve Entity).run.run memo = s.settleWith id memo outcome := by
  unfold settleWith keep store
  cases outcome with
  | error err => rfl
  | ok view => split <;> rfl

variable {s memo id} {e b : Entity} {chain : List Entity}

lemma complete_run_kept {view : Entity} (hkept : s.lookup memo id = some view) :
    (s.complete id).run.run memo = (.ok view, memo) := by
  rw [complete, ExceptT.run_bind, StateT.run_bind, kept?_run, hkept]
  rfl

lemma complete_run_unknown (hkept : s.lookup memo id = none) (hfound : s.registry.entity? id = none) :
    (s.complete id).run.run memo = (.error (.unknownEntity id .completion), memo) := by
  rw [complete, ExceptT.run_bind, StateT.run_bind, kept?_run, hkept]
  dsimp only [pure_bind]
  split
  · rfl
  · simp_all

lemma complete_run_cyclic {err : ModelError} (hkept : s.lookup memo id = none)
    (hfound : s.registry.entity? id = some e) (hchain : s.registry.lineage e = .error err) :
    (s.complete id).run.run memo = (.error err, memo) := by
  rw [complete, ExceptT.run_bind, StateT.run_bind, kept?_run, hkept]
  dsimp only [pure_bind]
  split
  · simp_all
  · next e' hfound' =>
    obtain rfl : e = e' := Option.some.inj (hfound.symm.trans hfound')
    split
    · next err' h =>
      obtain rfl : err = err' := Except.error.inj (hchain.symm.trans h)
      rfl
    · simp_all

lemma complete_run_root (hkept : s.lookup memo id = none) (hfound : s.registry.entity? id = some e)
    (hbase : s.registry.base? e = none) :
    (s.complete id).run.run memo = s.settleWith id memo (s.registry.merge none e) := by
  rw [complete, ExceptT.run_bind, StateT.run_bind, kept?_run, hkept]
  dsimp only [pure_bind]
  split
  · simp_all
  · next e' hfound' =>
    obtain rfl : e = e' := Option.some.inj (hfound.symm.trans hfound')
    split
    · next h =>
      rw [Registry.lineage_root hbase] at h
      cases h
    · split
      · exact finish_run s memo id _
      · simp_all

lemma complete_run_base (hkept : s.lookup memo id = none)
    (hfound : s.registry.entity? id = some e) (hchain : s.registry.lineage e = .ok chain)
    (hbase : s.registry.base? e = some b) :
    (s.complete id).run.run memo =
      s.settleWith id ((s.complete b.id).run.run memo).2
        (((s.complete b.id).run.run memo).1 >>= fun old => s.registry.merge (some old) e) := by
  rw [complete, ExceptT.run_bind, StateT.run_bind, kept?_run, hkept]
  dsimp only [pure_bind]
  split
  · simp_all
  · next e' hfound' =>
    obtain rfl : e = e' := Option.some.inj (hfound.symm.trans hfound')
    split
    · simp_all
    · split
      · simp_all
      · next b' hbase' =>
        obtain rfl : b = b' := Option.some.inj (hbase.symm.trans hbase')
        -- the monadic program again, with the matches on the look-ups gone
        change ((do
          let old ← some <$> s.complete b.id
          let view ← MonadExcept.ofExcept (s.registry.merge old e)
          s.keep id view
          return view : Resolve Entity)).run.run memo = _
        rw [ExceptT.run_bind, StateT.run_bind, ExceptT.run_map, StateT.run_map]
        generalize (s.complete b.id).run.run memo = result
        rcases result with ⟨err | old, memo'⟩
        · rfl
        · exact finish_run s memo' id _

end Run

namespace Memo

variable {memo : Memo} {id x : String} {view : Entity}

lemma get?_insert : (memo.insert id view).get? x = if id = x then some view else memo.get? x := by
  unfold insert get?
  rw [List.find?_cons]
  by_cases h : id = x
  · simp [h]
  · rw [beq_false_of_ne h, if_neg h]

lemma contains_insert : (memo.insert id view).contains x = true ↔ memo.contains x = true ∨ x = id := by
  unfold contains
  rw [get?_insert]
  by_cases h : id = x
  · simp [h]
  · simp [h, Ne.symm h]

lemma contains_empty : empty.contains x = false := rfl

end Memo

/-- Every view of a memo is the right one, and those of the ancestors are kept beside it. -/
structure Coherent (s : Schema) (memo : Memo) : Prop where
  right : ∀ {id view}, memo.get? id = some view → s.registry.complete id = .ok view
  upward : ∀ {id e b}, memo.contains id = true → s.registry.entity? id = some e →
    s.registry.base? e = some b → memo.contains b.id = true

section Keeping

variable {s : Schema} {memo : Memo} {id x : String} {e b : Entity} {chain : List Entity}

lemma coherent_empty : s.Coherent .empty := ⟨fun h => (nomatch h), fun h => (nomatch h)⟩

lemma Coherent.derived (h : s.Coherent memo) (hkept : memo.contains id = true)
    (hx : s.registry.derivesFrom id x = true) : memo.contains x = true := by
  obtain ⟨e, chain, hfound, hchain, hmem⟩ := Registry.derivesFrom_eq_true.mp hx
  clear hx
  -- the chain is followed upwards, and each base is kept because the entity below it is
  induction chain generalizing id e with
  | nil => cases hmem
  | cons a chain ih =>
    have hid : e.id = id := (s.registry.mem_of_entity? hfound).2
    rcases Registry.lineage_cases hchain with ⟨-, he⟩ | ⟨b, rest, hbase, hrest, he⟩
    · cases he
      rw [List.map_singleton, List.mem_singleton, hid] at hmem
      rwa [hmem]
    · cases he
      rw [List.map_cons, List.mem_cons, hid] at hmem
      rcases hmem with rfl | hmem
      · exact hkept
      · exact ih (h.upward hkept hfound hbase) b (Registry.base?_eq_some hbase).2 hrest hmem

/-- What is asked of a request: the right answer, and a memo with one view more for every entity on
the chain that can be completed. -/
structure Served (s : Schema) (memo : Memo) (id : String)
    (result : Except ModelError Entity × Memo) : Prop where
  answer : result.1 = s.registry.complete id
  coherent : s.Coherent result.2
  contains : ∀ x, result.2.contains x = true ↔ memo.contains x = true ∨
    s.registry.derivesFrom id x = true ∧ ∃ view, s.registry.complete x = .ok view

lemma Coherent.served_unchanged (h : s.Coherent memo) {outcome : Except ModelError Entity}
    (hanswer : outcome = s.registry.complete id)
    (hthere : ∀ x, s.registry.derivesFrom id x = true → memo.contains x = true) :
    s.Served memo id (outcome, memo) := by
  refine ⟨hanswer, h, fun x => ⟨.inl, ?_⟩⟩
  rintro (hx | ⟨hx, -⟩)
  · exact hx
  · exact hthere x hx

lemma Coherent.settleWith (h : s.Coherent memo) (hon : s.memoizes = true)
    (hbase : ∀ e b view, s.registry.entity? id = some e → s.registry.base? e = some b →
      s.registry.complete id = .ok view → memo.contains b.id = true) :
    (s.settleWith id memo (s.registry.complete id)).1 = s.registry.complete id ∧
      s.Coherent (s.settleWith id memo (s.registry.complete id)).2 ∧
      ∀ x, (s.settleWith id memo (s.registry.complete id)).2.contains x = true ↔
        memo.contains x = true ∨ x = id ∧ ∃ view, s.registry.complete x = .ok view := by
  have hstore (view : Entity) : s.store memo id view = memo.insert id view := by
    rw [store, if_pos hon]
  unfold Schema.settleWith
  simp only [hstore]
  cases hview : s.registry.complete id with
  | error err =>
    refine ⟨rfl, h, fun x => ?_⟩
    constructor
    · exact .inl
    · rintro (hx | ⟨rfl, view, hx⟩)
      · exact hx
      · rw [hview] at hx
        cases hx
  | ok view =>
    refine ⟨rfl, ⟨?_, ?_⟩, fun x => ?_⟩
    · intro id' view' hget
      rw [Memo.get?_insert] at hget
      by_cases hid : id = id'
      · rw [if_pos hid] at hget
        cases hget
        rw [← hid, hview]
      · rw [if_neg hid] at hget
        exact h.right hget
    · intro id' e b hkept hfound hb
      rw [Memo.contains_insert] at hkept ⊢
      rcases hkept with hkept | rfl
      · exact .inl (h.upward hkept hfound hb)
      · exact .inl (hbase e b view hfound hb hview)
    · rw [Memo.contains_insert]
      constructor
      · rintro (hx | rfl)
        · exact .inl hx
        · exact .inr ⟨rfl, view, hview⟩
      · exact Or.imp_right And.left

lemma Coherent.served_root (h : s.Coherent memo) (hon : s.memoizes = true)
    (hfound : s.registry.entity? id = some e) (hbase : s.registry.base? e = none) :
    s.Served memo id (s.settleWith id memo (s.registry.complete id)) := by
  have hroot : ∀ e b view, s.registry.entity? id = some e → s.registry.base? e = some b →
      s.registry.complete id = .ok view → memo.contains b.id = true := by
    intro e' b view he hb
    obtain rfl : e = e' := Option.some.inj (hfound.symm.trans he)
    rw [hbase] at hb
    cases hb
  obtain ⟨hanswer, hcoherent, hcontains⟩ := h.settleWith hon hroot
  refine ⟨hanswer, hcoherent, fun x => ?_⟩
  rw [hcontains, Registry.derivesFrom_root_iff hfound hbase]

/-- A request for the base comes first, and leaves what the view of the entity needs. -/
lemma Served.derived (hon : s.memoizes = true) (hfound : s.registry.entity? id = some e)
    (hchain : s.registry.lineage e = .ok chain) (hbase : s.registry.base? e = some b)
    {outcome : Except ModelError Entity} {memo' : Memo}
    (h : s.Served memo b.id (outcome, memo')) :
    s.Served memo id (s.settleWith id memo' (s.registry.complete id)) := by
  have hthere : ∀ e' b' view, s.registry.entity? id = some e' → s.registry.base? e' = some b' →
      s.registry.complete id = .ok view → memo'.contains b'.id = true := by
    intro e' b' view he hb hview
    obtain rfl : e = e' := Option.some.inj (hfound.symm.trans he)
    obtain rfl : b = b' := Option.some.inj (hbase.symm.trans hb)
    rw [Registry.complete_base hfound hchain hbase, bind_eq_ok_iff] at hview
    obtain ⟨old, hold, -⟩ := hview
    obtain ⟨rest, hrest, -⟩ := Registry.lineage_base hchain hbase
    have hself := Registry.derivesFrom_self (Registry.base?_eq_some hbase).2 hrest
    exact (h.contains b.id).mpr (.inr ⟨hself, old, hold⟩)
  obtain ⟨hanswer, hcoherent, hcontains⟩ := h.coherent.settleWith hon hthere
  refine ⟨hanswer, hcoherent, fun x => ?_⟩
  rw [hcontains, h.contains, Registry.derivesFrom_base_iff hfound hchain hbase, or_assoc,
    ← or_and_right, or_comm (a := s.registry.derivesFrom b.id x = true)]

/-- Every request is served. The induction is on the length of the base chain. -/
theorem Coherent.request (h : s.Coherent memo) (hon : s.memoizes = true) (id : String) :
    s.Served memo id ((s.complete id).run.run memo) := by
  induction hn : s.registry.height id using Nat.strongRecOn generalizing id with
  | ind n ih =>
    cases hkept : s.lookup memo id with
    | some view =>
      have hget : memo.get? id = some view := by
        rwa [lookup, if_pos hon] at hkept
      rw [complete_run_kept hkept]
      exact h.served_unchanged (h.right hget).symm
        fun x hx => h.derived (by rw [Memo.contains, hget]; rfl) hx
    | none =>
      cases hfound : s.registry.entity? id with
      | none =>
        rw [complete_run_unknown hkept hfound]
        refine h.served_unchanged (Registry.complete_unknown hfound).symm fun x hx => ?_
        obtain ⟨e, -, he, -⟩ := Registry.derivesFrom_eq_true.mp hx
        rw [hfound] at he
        cases he
      | some e =>
        cases hchain : s.registry.lineage e with
        | error err =>
          rw [complete_run_cyclic hkept hfound hchain]
          refine h.served_unchanged (Registry.complete_cyclic hfound hchain).symm fun x hx => ?_
          obtain ⟨e', chain, he, hok, -⟩ := Registry.derivesFrom_eq_true.mp hx
          obtain rfl : e = e' := Option.some.inj (hfound.symm.trans he)
          rw [hchain] at hok
          cases hok
        | ok chain =>
          cases hbase : s.registry.base? e with
          | none =>
            rw [complete_run_root hkept hfound hbase, ← Registry.complete_root hfound hbase]
            exact h.served_root hon hfound hbase
          | some b =>
            have ih := ih _ (hn ▸ Registry.height_base_lt hfound hchain hbase) b.id rfl
            rw [complete_run_base hkept hfound hchain hbase, ih.answer,
              ← Registry.complete_base hfound hchain hbase]
            exact ih.derived hon hfound hchain hbase

theorem complete_run_plain (hoff : s.memoizes = false) (memo : Memo) (id : String) :
    (s.complete id).run.run memo = (s.registry.complete id, memo) := by
  have hkept (id : String) : s.lookup memo id = none := by simp [lookup, hoff]
  have hsettle (id : String) (outcome : Except ModelError Entity) :
      s.settleWith id memo outcome = (outcome, memo) := by
    cases outcome <;> simp [settleWith, store, hoff]
  induction hn : s.registry.height id using Nat.strongRecOn generalizing id with
  | ind n ih =>
    cases hfound : s.registry.entity? id with
    | none => rw [complete_run_unknown (hkept id) hfound, Registry.complete_unknown hfound]
    | some e =>
      cases hchain : s.registry.lineage e with
      | error err =>
        rw [complete_run_cyclic (hkept id) hfound hchain, Registry.complete_cyclic hfound hchain]
      | ok chain =>
        cases hbase : s.registry.base? e with
        | none =>
          rw [complete_run_root (hkept id) hfound hbase, Registry.complete_root hfound hbase, hsettle]
        | some b =>
          have ih := ih (s.registry.height b.id) (hn ▸ Registry.height_base_lt hfound hchain hbase)
            b.id rfl
          rw [complete_run_base (hkept id) hfound hchain hbase, ih, hsettle,
            Registry.complete_base hfound hchain hbase]

end Keeping

/-- The answers to a run of requests for complete views, one after the other. -/
def serve (s : Schema) (requests : List String) : StateM Memo (List (Except ModelError Entity)) :=
  requests.mapM fun id => (s.complete id).run

/-- The answer of a schema that has not been asked before. -/
def answer (s : Schema) (id : String) : Except ModelError Entity :=
  ((s.complete id).run.run .empty).1

section Serving

variable {s : Schema} {memo : Memo}

lemma serve_nil : (s.serve []).run memo = ([], memo) := rfl

lemma serve_cons (id : String) (requests : List String) :
    (s.serve (id :: requests)).run memo =
      (((s.complete id).run.run memo).1 ::
          ((s.serve requests).run ((s.complete id).run.run memo).2).1,
        ((s.serve requests).run ((s.complete id).run.run memo).2).2) := by
  unfold serve
  rw [List.mapM_cons]
  rfl

lemma serve_plain (hoff : s.memoizes = false) (requests : List String) :
    (s.serve requests).run memo = (requests.map s.registry.complete, memo) := by
  induction requests with
  | nil => rfl
  | cons id requests ih => rw [serve_cons, complete_run_plain hoff, ih, List.map_cons]

lemma Coherent.serve (h : s.Coherent memo) (hon : s.memoizes = true) (requests : List String) :
    ((s.serve requests).run memo).1 = requests.map s.registry.complete ∧
      ∀ x, ((s.serve requests).run memo).2.contains x = true ↔ memo.contains x = true ∨
        (∃ id ∈ requests, s.registry.derivesFrom id x = true) ∧
          ∃ view, s.registry.complete x = .ok view := by
  induction requests generalizing memo with
  | nil => exact ⟨rfl, fun x => by simp [serve_nil]⟩
  | cons id requests ih =>
    have hserved := h.request hon id
    obtain ⟨hanswers, hkept⟩ := ih hserved.coherent
    rw [serve_cons]
    refine ⟨?_, fun x => ?_⟩
    · rw [hserved.answer, hanswers, List.map_cons]
    · rw [hkept, hserved.contains, or_assoc, ← or_and_right]
      simp

def Reliable (s : Schema) (memo : Memo) : Prop := s.memoizes = true → s.Coherent memo

lemma reliable_empty : s.Reliable .empty := fun _ => coherent_empty

/-- The answer to a request does not depend on what has been asked before. -/
lemma Reliable.request (h : s.Reliable memo) (id : String) :
    ((s.complete id).run.run memo).1 = s.registry.complete id ∧
      s.Reliable ((s.complete id).run.run memo).2 := by
  cases hon : s.memoizes with
  | true =>
    have hserved := (h hon).request hon id
    exact ⟨hserved.answer, fun _ => hserved.coherent⟩
  | false =>
    rw [complete_run_plain hon]
    exact ⟨rfl, h⟩

/-- The views that are kept after a run of requests. -/
def keptAfter (s : Schema) (requests : List String) : Memo := ((s.serve requests).run .empty).2

/-- The answer that a schema gives to a question after a run of requests. -/
def answerAfter {α : Type} (s : Schema) (requests : List String) (question : Resolve α) :
    Except ModelError α :=
  (question.run.run (s.keptAfter requests)).1

lemma Reliable.serve (h : s.Reliable memo) (requests : List String) :
    s.Reliable ((s.serve requests).run memo).2 := by
  induction requests generalizing memo with
  | nil => exact h
  | cons id requests ih =>
    rw [serve_cons]
    exact ih (h.request id).2

lemma reliable_keptAfter (s : Schema) (requests : List String) : s.Reliable (s.keptAfter requests) :=
  reliable_empty.serve requests

lemma answerAfter_complete (s : Schema) (requests : List String) (id : String) :
    s.answerAfter requests (s.complete id) = s.registry.complete id :=
  ((s.reliable_keptAfter requests).request id).1

lemma answer_eq (s : Schema) : s.answer = s.registry.complete :=
  funext fun id => (reliable_empty.request id).1

lemma Reliable.mapM (h : s.Reliable memo) (entities : List Entity) :
    ((entities.mapM fun e => s.complete e.id).run.run memo).1 =
      entities.mapM fun e => s.registry.complete e.id := by
  induction entities generalizing memo with
  | nil => rfl
  | cons e rest ih =>
    obtain ⟨hanswer, hreliable⟩ := h.request e.id
    rw [List.mapM_cons, List.mapM_cons, ExceptT.run_bind, StateT.run_bind, ← hanswer]
    generalize (s.complete e.id).run.run memo = result at hreliable ⊢
    obtain ⟨outcome, memo'⟩ := result
    cases outcome with
    | error err => rfl
    | ok view =>
      have ih := ih hreliable
      change (((rest.mapM fun e => s.complete e.id) >>= fun views =>
        pure (view :: views)).run.run memo').1 = (rest.mapM fun e => s.registry.complete e.id) >>=
          fun views => pure (view :: views)
      rw [← ih, ExceptT.run_bind, StateT.run_bind]
      generalize (rest.mapM fun e => s.complete e.id).run.run memo' = result
      obtain ⟨outcome, memo''⟩ := result
      cases outcome <;> rfl

lemma completeEntities_eq (s : Schema) : ((s.completeEntities).run.run .empty).1 =
    s.registry.activeEntities.mapM fun e => s.registry.complete e.id :=
  reliable_empty.mapM _

end Serving

end Schema

namespace Model

/-- Two schemas of one model, of which one memoizes, give the same answers to every run of requests,
and the first has then kept the views of just those entities that can be completed and that are, or
are ancestors of, entities asked for. -/
theorem memoization_is_invisible {m : Model} {settings : Settings} {s : Schema}
    (hon : settings.memoizeComplete = true) (hbuild : m.build settings = .ok s) :
    ∃ plain, m.build { settings with memoizeComplete := false } = .ok plain ∧
      ∀ requests : List String,
        ((s.serve requests).run .empty).1 = ((plain.serve requests).run .empty).1 ∧
        ((s.serve requests).run .empty).1 = requests.map plain.answer ∧
        ∀ x, s.isMemoized ((s.serve requests).run .empty).2 x = true ↔
          (∃ view, plain.answer x = .ok view) ∧
            ∃ id ∈ requests, s.registry.derivesFrom id x = true := by
  obtain ⟨rfl, hcycle, hsound⟩ := build_eq_ok_iff.mp hbuild
  refine ⟨Schema.flatten m { settings with memoizeComplete := false },
    build_eq_ok_iff.mpr ⟨rfl, hcycle, hsound⟩, fun requests => ?_⟩
  have hregistry : (Schema.flatten m { settings with memoizeComplete := false }).registry =
      (Schema.flatten m settings).registry := rfl
  have hmemoizes : (Schema.flatten m settings).memoizes = true := hon
  obtain ⟨hanswers, hkept⟩ := Schema.coherent_empty.serve hmemoizes requests
  have hoff : (Schema.flatten m { settings with memoizeComplete := false }).memoizes = false := rfl
  rw [Schema.serve_plain hoff, Schema.answer_eq, hregistry]
  refine ⟨hanswers, hanswers, fun x => ?_⟩
  rw [Schema.isMemoized, hmemoizes, Bool.true_and, hkept]
  simp [Schema.Memo.contains_empty, and_comm]

/-- An entity that cannot be completed, for it declares the alias `k` of its base again for a
property of another name. -/
def withClash : Model :=
  let type : TypeReference := ⟨"text", .native ⟨"String", .reference⟩⟩
  { ofNameSpace none with
    types := [type]
    entities := [
      { Entity.ofName "Base" "Base" with
        properties := [{ Property.ofType "x" type with aliasName := "k" }] },
      { Entity.ofName "Clash" "Clash" with
        base := some "Base"
        properties := [{ Property.ofType "y" type with aliasName := "k" }] }] }

/-- The view of the base is kept as soon as it has been needed for an entity that cannot be completed
itself, and handed out when it is asked for. -/
theorem memoization_is_invisible_withClash :
    withClash.build .default = .ok (Schema.flatten withClash .default) ∧
      ∃ plain, withClash.build { Settings.default with memoizeComplete := false } = .ok plain ∧
        (((Schema.flatten withClash .default).serve ["Clash", "Gone", "Base"]).run .empty).1 =
          ["Clash", "Gone", "Base"].map plain.answer ∧
        (["Clash", "Gone", "Base"].map plain.answer).map
            (·.map fun view => view.properties.map (·.aliasName)) =
          [.error (.duplicateAlias "Clash" "k"), .error (.unknownEntity "Gone" .completion),
            .ok ["k"]] ∧
        (Schema.flatten withClash .default).isMemoized
          (((Schema.flatten withClash .default).serve ["Clash", "Gone"]).run .empty).2 "Base" = true ∧
        (Schema.flatten withClash .default).isMemoized
          (((Schema.flatten withClash .default).serve ["Clash", "Gone"]).run .empty).2 "Clash" =
            false := by
  have hbuild : withClash.build .default = .ok (Schema.flatten withClash .default) :=
    build_of_problems (by decide +kernel) (by decide +kernel)
  obtain ⟨plain, hplain, hserve⟩ := memoization_is_invisible rfl hbuild
  obtain ⟨rfl, -, -⟩ := build_eq_ok_iff.mp hplain
  have hbase : ∃ view, (Schema.flatten withClash
      { Settings.default with memoizeComplete := false }).answer "Base" = .ok view := by
    rw [Schema.answer_eq]
    exact exists_eq_ok (by decide +kernel)
  have hclash : ((Schema.flatten withClash
      { Settings.default with memoizeComplete := false }).answer "Clash").toOption.isNone := by
    rw [Schema.answer_eq]
    decide +kernel
  refine ⟨hbuild, _, hplain, (hserve ["Clash", "Gone", "Base"]).2.1, ?_, ?_, ?_⟩
  · rw [Schema.answer_eq]
    decide +kernel
  · refine ((hserve ["Clash", "Gone"]).2.2 "Base").mpr ⟨hbase, "Clash", List.mem_cons_self, ?_⟩
    decide +kernel
  · refine Bool.eq_false_iff.mpr (mt ((hserve ["Clash", "Gone"]).2.2 "Clash").mp ?_)
    rintro ⟨⟨view, hview⟩, -⟩
    rw [hview] at hclash
    cases hclash

end Model
end EntityModel
