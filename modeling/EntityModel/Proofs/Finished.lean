import EntityModel.Proofs.References
import EntityModel.Proofs.Tables

/-!
# What every merge gives

A merge lets nothing in unchecked, whichever entities are merged. Its result has no base to be followed,
fragments that are registered and told apart, and properties that belong to it and have passed their
checks behind these fragments. The properties of the draft keep to that while others come in.
-/

namespace EntityModel.Registry

/-- Properties that an entity has taken in after their checks. -/
structure Admitted (r : Registry) (entity : String) (attached : List FragmentRef)
    (properties : List Property) : Prop where
  aliases : (properties.map (·.aliasName)).Nodup
  types : ∀ p ∈ properties, r.checkPropertyType entity p = .ok ()
  bindings : ∀ p ∈ properties, checkPropertyFragment entity attached p = .ok ()
  owners : ∀ p ∈ properties, p.owner = some entity

/-- An entity that goes through all the checks of a merge as it is. -/
structure Finished (r : Registry) (e : Entity) : Prop where
  base : e.base = none
  registered : r.AllRegistered e.fragments
  fragments : (e.fragments.map (·.fragment)).Nodup
  properties : r.Admitted e.id e.fragments e.properties

variable {r : Registry} {new view : Entity} {old : Option Entity} {entity : String}
  {attached more : List FragmentRef} {properties fewer result : List Property} {d d' : Draft}
  {position : Nat} {p : Property}

namespace Admitted

lemma sublist (h : r.Admitted entity attached properties) (hsub : fewer.Sublist properties) :
    r.Admitted entity attached fewer where
  aliases := h.aliases.sublist (hsub.map _)
  types q hq := h.types q (hsub.mem hq)
  bindings q hq := h.bindings q (hsub.mem hq)
  owners q hq := h.owners q (hsub.mem hq)

lemma mono (h : r.Admitted entity attached properties) (hmore : attached ⊆ more) :
    r.Admitted entity more properties where
  aliases := h.aliases
  types := h.types
  bindings q hq := by
    refine checkPropertyFragment_eq_ok_iff.mpr fun fragment hfragment => ?_
    have hattached := checkPropertyFragment_eq_ok_iff.mp (h.bindings q hq) fragment hfragment
    obtain ⟨ref, href, hsame⟩ := List.any_eq_true.mp hattached
    exact List.any_eq_true.mpr ⟨ref, hmore href, hsame⟩
  owners := h.owners

lemma pushProperty (h : r.Admitted entity attached properties)
    (hpush : r.pushProperty entity attached properties position p = .ok result) :
    r.Admitted entity attached result := by
  unfold Registry.pushProperty at hpush
  obtain ⟨⟨⟩, hcheck, hpush⟩ := bind_eq_ok_iff.mp hpush
  obtain ⟨haliases, htype, hbinding⟩ := r.checkProperty_eq_ok_iff.mp hcheck
  cases hpush
  refine ⟨nodup_map_insertWithin h.aliases haliases, ?_, ?_, ?_⟩
  all_goals
    intro q hq
    rcases mem_insertWithin.mp hq with rfl | hq
  · exact htype
  · exact h.types q hq
  · exact hbinding
  · exact h.bindings q hq
  · rfl
  · exact h.owners q hq

lemma place (hd : r.Admitted entity attached d.properties)
    (h : r.place entity attached d p = .ok d') : r.Admitted entity attached d'.properties := by
  unfold Registry.place at h
  obtain ⟨_, hpush, h⟩ := bind_eq_ok_iff.mp h
  cases h
  exact hd.pushProperty hpush

lemma inherit (hd : r.Admitted entity attached d.properties)
    (h : r.inherit entity attached d p = .ok d') : r.Admitted entity attached d'.properties := by
  unfold Registry.inherit at h
  split at h
  · exact hd.place h
  · next index hfound =>
    split at h
    · cases h
      exact hd
    · have hremoved : r.Admitted entity attached (d.removeAt index).properties :=
        hd.sublist (List.eraseIdx_sublist _ _)
      exact hremoved.place h

end Admitted

lemma finished_of_settle (h : r.settle new = .ok view) : r.Finished view := by
  obtain ⟨effective, -, hregistered, hfragments, haliases, hchecks, rfl⟩ := r.settle_eq_ok_iff.mp h
  refine ⟨rfl, hregistered, hfragments, ?_, ?_, ?_, ?_⟩
  · simpa [Function.comp_def, Property.ownedBy] using haliases
  · exact List.forall_mem_map.mpr fun p hp => (hchecks p hp).1
  · exact List.forall_mem_map.mpr fun p hp => (hchecks p hp).2
  · exact List.forall_mem_map.mpr fun p hp => rfl

/-- What a merge gives is finished. What it takes over has passed its checks behind the fragments of
the result, and the own properties have passed theirs behind fewer. -/
theorem finished_of_merge (h : r.merge old new = .ok view) : r.Finished view := by
  cases old with
  | none => exact finished_of_settle (r.merge_none new ▸ h)
  | some old =>
    rw [merge_some] at h
    obtain ⟨settled, hsettle, h⟩ := bind_eq_ok_iff.mp h
    have hsettled := finished_of_settle hsettle
    obtain ⟨fragments, draft, hfragments, hloop, rfl⟩ := r.bequeath_eq_ok h
    obtain ⟨hregistered, hdistinct, hmore⟩ : r.AllRegistered fragments ∧
        (fragments.map (·.fragment)).Nodup ∧ settled.fragments ⊆ fragments := by
      split at hfragments
      · obtain ⟨hold, rfl⟩ := insertMissingTables_eq_ok_iff.mp hfragments
        exact ⟨hsettled.registered.withMissing hold, nodup_withMissing hsettled.fragments,
          subset_withMissing⟩
      · cases hfragments
        exact ⟨hsettled.registered, hsettled.fragments, List.Subset.refl _⟩
    have hdraft := foldlM_keeps (P := fun d : Draft => r.Admitted settled.id fragments d.properties)
      (fun _ _ _ _ hd hstep => hd.inherit hstep) (hsettled.properties.mono hmore) hloop
    exact ⟨hsettled.base, hregistered, hdistinct, hdraft⟩

end EntityModel.Registry
