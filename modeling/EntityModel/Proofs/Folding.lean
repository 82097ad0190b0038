import EntityModel.Proofs.Ancestry
import EntityModel.Proofs.Memoization

/-!
# Completion as a fold

Completing an entity asks for its base first, and so on up the base chain. The requests come to an
end, after no more of them than there are entities, and the view is what merging the entities of the
chain one after the other gives, from the topmost one down.
-/

namespace EntityModel

/-- Any error but that of a base chain that loops. -/
def ModelError.IsAcyclic (err : ModelError) : Prop := ∀ path, err ≠ .cyclicInheritance path

/-- The errors with which a merge refuses a source fragment or a property. -/
def ModelError.IsRefusal : ModelError → Prop
  | duplicateAlias .. | duplicateReference .. | unknownType .. | typeMismatch ..
  | unknownSourceFragment .. => True
  | _ => False

lemma ModelError.IsRefusal.isAcyclic {err : ModelError} (h : err.IsRefusal) : err.IsAcyclic := by
  rintro path rfl
  exact h

namespace Registry

open ModelError (IsAcyclic IsRefusal)

/-- Completes an entity with a limited number of requests, the first one and those for its ancestors;
`none` where these do not suffice. -/
def completeWithin (r : Registry) : (requests : Nat) → String → Option (Except ModelError Entity)
  | 0, _ => none
  | requests + 1, id =>
    match r.entity? id with
    | none => some (.error (.unknownEntity id .completion))
    | some e =>
      match r.lineage e with
      | .error err => some (.error err)
      | .ok _ =>
        match r.base? e with
        | none => some (r.merge none e)
        | some b => (r.completeWithin requests b.id).map (· >>= fun old => r.merge (some old) e)

/-- Merges the entities of a list one after the other, each with the result so far. -/
def mergeAll (r : Registry) (entities : List Entity) : Except ModelError (Option Entity) :=
  entities.foldlM (fun old e => some <$> r.merge old e) none

section Errors

variable (r : Registry) (entity : String) (attached : List FragmentRef)

lemma checkFragment_failsWith (ref : FragmentRef) :
    FailsWith IsRefusal (r.checkFragment entity attached ref) := by
  unfold checkFragment
  split
  · exact failsWith_error trivial
  · split
    · exact failsWith_error trivial
    · exact failsWith_ok ()

lemma checkPropertyType_failsWith (p : Property) :
    FailsWith IsRefusal (r.checkPropertyType entity p) := by
  unfold checkPropertyType
  split
  · exact failsWith_error trivial
  · split
    · exact failsWith_ok ()
    · exact failsWith_error trivial

lemma checkPropertyFragment_failsWith (p : Property) :
    FailsWith IsRefusal (checkPropertyFragment entity attached p) := by
  unfold checkPropertyFragment
  split
  · exact failsWith_ok ()
  · split
    · exact failsWith_ok ()
    · exact failsWith_error trivial

lemma checkProperty_failsWith (properties : List Property) (p : Property) :
    FailsWith IsRefusal (r.checkProperty entity properties attached p) := by
  have hchecks : FailsWith IsRefusal (r.checkPropertyType entity p >>= fun _ =>
      checkPropertyFragment entity attached p) :=
    (r.checkPropertyType_failsWith entity p).bind fun _ =>
      checkPropertyFragment_failsWith entity attached p
  unfold checkProperty
  dsimp only
  split
  · exact (failsWith_error trivial).bind fun _ => hchecks
  · exact hchecks

lemma pushFragment_failsWith (refs : List FragmentRef) (position : Nat) (ref : FragmentRef) :
    FailsWith IsRefusal (r.pushFragment entity refs position ref) :=
  (r.checkFragment_failsWith entity refs ref).bind fun _ => failsWith_ok _

lemma pushProperty_failsWith (properties : List Property) (position : Nat) (p : Property) :
    FailsWith IsRefusal (r.pushProperty entity attached properties position p) :=
  (r.checkProperty_failsWith entity attached properties p).bind fun _ => failsWith_ok _

lemma place_failsWith (d : Draft) (p : Property) :
    FailsWith IsRefusal (r.place entity attached d p) :=
  (r.pushProperty_failsWith entity attached d.properties d.boundary _).bind fun _ => failsWith_ok _

lemma inherit_failsWith (d : Draft) (p : Property) :
    FailsWith IsRefusal (r.inherit entity attached d p) := by
  unfold inherit
  split
  · exact r.place_failsWith entity attached d p
  · split
    · exact failsWith_ok d
    · exact r.place_failsWith entity attached _ p

lemma insertMissingTables_failsWith (old : Entity) (refs : List FragmentRef) :
    FailsWith IsRefusal (r.insertMissingTables old entity refs) := by
  refine failsWith_foldlM (fun refs ⟨ref, position⟩ => ?_) _ _
  dsimp only
  split
  · exact failsWith_error trivial
  · split
    · exact failsWith_ok refs
    · exact r.pushFragment_failsWith entity refs position ref

lemma bequeath_failsWith (old settled : Entity) : FailsWith IsRefusal (r.bequeath old settled) := by
  rw [bequeath_eq]
  refine FailsWith.bind ?_ fun fragments => ?_
  · split
    · exact r.insertMissingTables_failsWith settled.id old settled.fragments
    · exact failsWith_ok settled.fragments
  · have hdraft := failsWith_foldlM (r.inherit_failsWith settled.id fragments) old.properties
      ⟨settled.properties, settled.properties.length⟩
    exact hdraft.bind fun _ => failsWith_ok _

variable {r} {e : Entity} {chain : List Entity}

lemma settle_failsWith (hchain : r.lineage e = .ok chain) : FailsWith IsRefusal (r.settle e) := by
  unfold settle
  rw [effectiveFragments_of_lineage hchain]
  refine (failsWith_ok _).bind fun effective => ?_
  have hfragments := failsWith_foldlM
    (fun refs ref => r.pushFragment_failsWith e.id refs refs.length ref) effective []
  refine hfragments.bind fun fragments => ?_
  have hproperties := failsWith_foldlM
    (fun ps p => r.pushProperty_failsWith e.id fragments ps ps.length p) e.properties []
  exact hproperties.bind fun _ => failsWith_ok _

/-- What a merge fails with is the refusal of a declaration, once the chain of the entity ends. -/
lemma merge_failsWith (hchain : r.lineage e = .ok chain) (old : Option Entity) :
    FailsWith IsRefusal (r.merge old e) := by
  refine (settle_failsWith hchain).bind fun settled => ?_
  cases old with
  | none => exact failsWith_ok settled
  | some old => exact r.bequeath_failsWith old settled

end Errors

variable {r : Registry} {id : String} {e : Entity} {chain : List Entity}

lemma mergeAll_concat (entities : List Entity) (e : Entity) :
    r.mergeAll (entities ++ [e]) = r.mergeAll entities >>= fun old => some <$> r.merge old e := by
  unfold mergeAll
  rw [List.foldlM_append]
  simp only [List.foldlM_cons, List.foldlM_nil, bind_pure]

/-- The view of an entity whose base chain ends is made of the entities of the chain, the topmost one
first. -/
theorem complete_eq_mergeAll (hfound : r.entity? id = some e) (hchain : r.lineage e = .ok chain) :
    some <$> r.complete id = r.mergeAll chain.reverse := by
  induction chain generalizing id e with
  | nil => exact absurd (mem_lineage_self hchain) List.not_mem_nil
  | cons x rest ih =>
    rcases lineage_cases hchain with ⟨hbase, hcons⟩ | ⟨b, rest', hbase, hrest, hcons⟩
    · cases hcons
      rw [complete_root hfound hbase, List.reverse_singleton, ← List.nil_append [x], mergeAll_concat]
      rfl
    · cases hcons
      have hview := ih (base?_eq_some hbase).2 hrest
      rw [complete_base hfound hchain hbase, List.reverse_cons, mergeAll_concat, ← hview]
      cases r.complete b.id <;> rfl

lemma complete_refuses (hfound : r.entity? id = some e) (hchain : r.lineage e = .ok chain) :
    FailsWith IsRefusal (r.complete id) := by
  induction chain generalizing id e with
  | nil => exact absurd (mem_lineage_self hchain) List.not_mem_nil
  | cons x rest ih =>
    rcases lineage_cases hchain with ⟨hbase, -⟩ | ⟨b, rest', hbase, hrest, hcons⟩
    · rw [complete_root hfound hbase]
      exact merge_failsWith hchain none
    · cases hcons
      rw [complete_base hfound hchain hbase]
      exact (ih (base?_eq_some hbase).2 hrest).bind fun old => merge_failsWith hchain (some old)

lemma complete_failsWith (hfound : r.entity? id = some e) (hchain : r.lineage e = .ok chain) :
    FailsWith IsAcyclic (r.complete id) :=
  (complete_refuses hfound hchain).mono fun _ => IsRefusal.isAcyclic

lemma completeWithin_of_lineage (hfound : r.entity? id = some e) (hchain : r.lineage e = .ok chain)
    {requests : Nat} (henough : chain.length ≤ requests) :
    r.completeWithin requests id = some (r.complete id) := by
  induction requests generalizing id e chain with
  | zero =>
    have hpos := List.length_pos_of_mem (mem_lineage_self hchain)
    omega
  | succ requests ih =>
    rw [completeWithin, hfound]
    dsimp only
    rw [hchain]
    dsimp only
    rcases lineage_cases hchain with ⟨hbase, -⟩ | ⟨b, rest, hbase, hrest, rfl⟩
    · rw [hbase, complete_root hfound hbase]
    · rw [List.length_cons] at henough
      have hview := ih (base?_eq_some hbase).2 hrest (by omega)
      rw [hbase, complete_base hfound hchain hbase]
      dsimp only
      rw [hview]
      rfl

lemma completeWithin_of_cycle {err : ModelError} (hfound : r.entity? id = some e)
    (hchain : r.lineage e = .error err) {requests : Nat} (henough : 1 ≤ requests) :
    r.completeWithin requests id = some (r.complete id) := by
  obtain ⟨requests, rfl⟩ := Nat.exists_eq_add_of_le' henough
  rw [completeWithin, hfound, complete_cyclic hfound hchain]
  dsimp only
  rw [hchain]

/-- What becomes of a request for a registered entity. It comes to an end, and needs no more requests
than there are entities. It fails for a cycle just when the base chain of the entity comes to an
entity again. Else the view, or the error, is that of merging the entities of the chain one after the
other, from the topmost one down. A schema that keeps views gives the same answer, whatever it has been
asked before. -/
theorem completion_is_a_fold (hfound : r.entity? id = some e) :
    (∀ requests, r.entities.length ≤ requests →
      r.completeWithin requests id = some (r.complete id)) ∧
    ((∃ path, r.complete id = .error (.cyclicInheritance path)) ↔ r.Revisits e) ∧
    (¬ r.Revisits e → ∃ chain, r.lineage e = .ok chain ∧
      some <$> r.complete id = r.mergeAll chain.reverse) ∧
    (∀ (s : Schema) (asked : List String), s.registry = r →
      s.answerAfter asked (s.complete id) = r.complete id) := by
  have hmem := (r.mem_of_entity? hfound).1
  have hself : r.entity? e.id = some e := by
    rw [(r.mem_of_entity? hfound).2, hfound]
  refine ⟨fun requests henough => ?_, ⟨?_, ?_⟩, fun hnot => ?_, fun s asked hs => ?_⟩
  · cases hchain : r.lineage e with
    | ok chain =>
      have hlength := lineage_length_le hself hchain
      exact completeWithin_of_lineage hfound hchain (by omega)
    | error err =>
      have hpos := List.length_pos_of_mem hmem
      exact completeWithin_of_cycle hfound hchain (by omega)
  · rintro ⟨path, hfails⟩
    by_contra hnot
    obtain ⟨chain, hchain⟩ := lineage_eq_ok_iff.mpr hnot
    exact complete_failsWith hfound hchain _ hfails path rfl
  · intro hrevisits
    obtain ⟨path, hchain⟩ := lineage_eq_error_iff.mpr hrevisits
    exact ⟨path, complete_cyclic hfound hchain⟩
  · obtain ⟨chain, hchain⟩ := lineage_eq_ok_iff.mpr hnot
    exact ⟨chain, hchain, complete_eq_mergeAll hfound hchain⟩
  · rw [s.answerAfter_complete, hs]

end Registry

namespace Model

namespace LoopBesideChain

def low : Entity := { Entity.ofName "Low" "Low" with base := some "Top" }

def left : Entity := { Entity.ofName "Left" "Left" with base := some "Right" }

/-- `low` derives from an entity whose base is not known, `left` from itself by way of another one. -/
def model : Model :=
  { ofNameSpace none with
    entities := [low, { Entity.ofName "Top" "Top" with base := some "Gone" }, left,
      { Entity.ofName "Right" "Right" with base := some "Left" }] }

theorem completion_is_a_fold_loopBesideChain :
    (model.registry.entity? "Left" = some left ∧ model.registry.Revisits left ∧
      ∃ path, model.registry.complete "Left" = .error (.cyclicInheritance path)) ∧
    (model.registry.entity? "Low" = some low ∧ ¬ model.registry.Revisits low ∧
      model.registry.completeWithin 4 "Low" = some (model.registry.complete "Low") ∧
      ∃ chain, model.registry.lineage low = .ok chain ∧
        some <$> model.registry.complete "Low" = model.registry.mergeAll chain.reverse) := by
  have hleft : model.registry.entity? "Left" = some left := rfl
  have hlow : model.registry.entity? "Low" = some low := rfl
  have hrevisits : model.registry.Revisits left := ⟨0, 2, left, left, by decide, rfl, rfl, rfl⟩
  have hnot : ¬ model.registry.Revisits low := by
    obtain ⟨top, htop⟩ : ∃ top, model.registry.base? low = some top := ⟨_, rfl⟩
    have hchain : model.registry.lineage low = .ok [low, top] := by
      rw [Registry.lineage, Registry.chainFrom_new htop (by cases htop; decide),
        Registry.chainFrom_root (by cases htop; rfl)]
      rfl
    exact Registry.not_revisits_of_lineage hchain
  obtain ⟨-, hcycle, -⟩ := Registry.completion_is_a_fold hleft
  obtain ⟨hends, -, hfold, -⟩ := Registry.completion_is_a_fold hlow
  exact ⟨⟨hleft, hrevisits, hcycle.mpr hrevisits⟩, hlow, hnot, hends 4 (by decide), hfold hnot⟩

end LoopBesideChain

end Model

end EntityModel
