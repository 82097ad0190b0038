import EntityModel.Proofs.Finished

/-!
# Complete views

The complete view of an entity is the merge of its declaration with the complete view of its base.
What holds of every merge holds of every complete view.
-/

namespace EntityModel.Registry

variable {r : Registry} {id : String} {e b view : Entity} {chain : List Entity}

lemma complete_root (hfound : r.entity? id = some e) (hbase : r.base? e = none) :
    r.complete id = r.merge none e := by
  rw [complete]
  split
  · simp_all
  · next e' hfound' =>
    obtain rfl : e = e' := Option.some.inj (hfound.symm.trans hfound')
    rw [lineage_root hbase]
    dsimp only
    split <;> simp_all

lemma complete_base (hfound : r.entity? id = some e) (hchain : r.lineage e = .ok chain)
    (hbase : r.base? e = some b) :
    r.complete id = r.complete b.id >>= fun old => r.merge (some old) e := by
  rw [complete]
  split
  · simp_all
  · next e' hfound' =>
    obtain rfl : e = e' := Option.some.inj (hfound.symm.trans hfound')
    split
    · simp_all
    · split
      · simp_all
      · next b' hbase' =>
        obtain rfl : b = b' := Option.some.inj (hbase.symm.trans hbase')
        cases r.complete b.id <;> rfl

lemma complete_unknown (hfound : r.entity? id = none) :
    r.complete id = .error (.unknownEntity id .completion) := by
  rw [complete]
  split <;> simp_all

lemma complete_cyclic {err : ModelError} (hfound : r.entity? id = some e)
    (hchain : r.lineage e = .error err) : r.complete id = .error err := by
  rw [complete]
  split
  · simp_all
  · next e' hfound' =>
    obtain rfl : e = e' := Option.some.inj (hfound.symm.trans hfound')
    split <;> simp_all

lemma complete_eq_ok (h : r.complete id = .ok view) :
    ∃ e chain, r.entity? id = some e ∧ r.lineage e = .ok chain ∧
      ((r.base? e = none ∧ r.merge none e = .ok view) ∨
        ∃ b old, r.base? e = some b ∧ r.complete b.id = .ok old ∧
          r.merge (some old) e = .ok view) := by
  cases hfound : r.entity? id with
  | none =>
    rw [complete_unknown hfound] at h
    cases h
  | some e =>
    cases hchain : r.lineage e with
    | error err =>
      rw [complete_cyclic hfound hchain] at h
      cases h
    | ok chain =>
      refine ⟨e, chain, rfl, hchain, ?_⟩
      cases hbase : r.base? e with
      | none => exact .inl ⟨rfl, complete_root hfound hbase ▸ h⟩
      | some b =>
        rw [complete_base hfound hchain hbase, bind_eq_ok_iff] at h
        obtain ⟨old, hold, h⟩ := h
        exact .inr ⟨b, old, rfl, hold, h⟩

lemma exists_merge_of_complete (h : r.complete id = .ok view) :
    ∃ e old, r.entity? id = some e ∧ r.merge old e = .ok view := by
  obtain ⟨e, _, hfound, -, ⟨-, hmerge⟩ | ⟨_, old, -, -, hmerge⟩⟩ := complete_eq_ok h
  · exact ⟨e, none, hfound, hmerge⟩
  · exact ⟨e, some old, hfound, hmerge⟩

lemma complete_id (h : r.complete id = .ok view) : view.id = id := by
  obtain ⟨e, _, hfound, hmerge⟩ := exists_merge_of_complete h
  rw [r.merge_id hmerge, (r.mem_of_entity? hfound).2]

lemma finished_of_complete (h : r.complete id = .ok view) : r.Finished view := by
  obtain ⟨_, _, -, hmerge⟩ := exists_merge_of_complete h
  exact finished_of_merge hmerge

theorem complete_distinct (h : r.complete id = .ok view) :
    (view.properties.map (·.aliasName)).Nodup :=
  (finished_of_complete h).properties.aliases

/-- The properties of a complete view, from those of the complete view of the base. -/
theorem complete_properties {old : Entity} (hfound : r.entity? e.id = some e)
    (hbase : r.base? e = some b) (hold : r.complete b.id = .ok old)
    (hview : r.complete e.id = .ok view) :
    view.properties =
      (Handover.handedDown e.properties old.properties).map (r.inheritedCopy e.id view.fragments) ++
        (Handover.kept e.properties old.properties).map (·.ownedBy e.id) := by
  obtain ⟨e', _, hfound', -, h⟩ := complete_eq_ok hview
  obtain rfl : e = e' := Option.some.inj (hfound.symm.trans hfound')
  rcases h with ⟨hnone, -⟩ | ⟨b', old', hbase', hold', hmerge⟩
  · rw [hbase] at hnone
    cases hnone
  · obtain rfl : b = b' := Option.some.inj (hbase.symm.trans hbase')
    obtain rfl : old = old' := Except.ok.inj (hold.symm.trans hold')
    exact r.merge_properties hmerge (complete_distinct hold)

/-- The complete view of an entity consists of copies of properties of the complete view of its base
and of copies of its own. -/
lemma complete_split (hfound : r.entity? e.id = some e) (hbase : r.base? e = some b)
    (hview : r.complete e.id = .ok view) :
    ∃ old, r.complete b.id = .ok old ∧ ∃ inherited own : List Property,
      inherited.Sublist old.properties ∧ own.Sublist e.properties ∧
      view.properties = inherited.map (r.inheritedCopy e.id view.fragments) ++
        own.map (·.ownedBy e.id) := by
  obtain ⟨e', chain, hfound', hchain, -⟩ := complete_eq_ok hview
  cases hfound.symm.trans hfound'
  have hmerge := hview
  rw [complete_base hfound hchain hbase] at hmerge
  obtain ⟨old, hold, -⟩ := bind_eq_ok_iff.mp hmerge
  exact ⟨old, hold, _, _, Handover.handedDown_sublist _ _, Handover.kept_sublist _ _,
    complete_properties hfound hbase hold hview⟩

lemma complete_root_properties (hfound : r.entity? e.id = some e) (hbase : r.base? e = none)
    (hview : r.complete e.id = .ok view) : view.properties = e.properties.map (·.ownedBy e.id) := by
  rw [complete_root hfound hbase, merge_none] at hview
  obtain ⟨_, -, -, -, -, -, rfl⟩ := r.settle_eq_ok_iff.mp hview
  rfl

lemma mem_complete_properties {q : Property} (hfound : r.entity? e.id = some e)
    (hview : r.complete e.id = .ok view) (hq : q ∈ view.properties) :
    (∃ p ∈ e.properties, q = p.ownedBy e.id) ∨
      ∃ b old, r.base? e = some b ∧ r.complete b.id = .ok old ∧
        ∃ p ∈ old.properties, q = r.inheritedCopy e.id view.fragments p := by
  cases hbase : r.base? e with
  | none =>
    rw [complete_root_properties hfound hbase hview] at hq
    obtain ⟨p, hp, rfl⟩ := List.mem_map.mp hq
    exact .inl ⟨p, hp, rfl⟩
  | some b =>
    obtain ⟨old, hold, inherited, own, hinherited, hown, hproperties⟩ :=
      complete_split hfound hbase hview
    rw [hproperties] at hq
    rcases List.mem_append.mp hq with hq | hq
    · obtain ⟨p, hp, rfl⟩ := List.mem_map.mp hq
      exact .inr ⟨b, old, rfl, hold, p, hinherited.subset hp, rfl⟩
    · obtain ⟨p, hp, rfl⟩ := List.mem_map.mp hq
      exact .inl ⟨p, hown.subset hp, rfl⟩

end EntityModel.Registry
