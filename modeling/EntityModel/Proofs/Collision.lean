import EntityModel.Proofs.Narrowing
import EntityModel.Proofs.Resolution
import EntityModel.Proofs.Tables

/-!
# When entities can be completed

In a sound registry whose entities have distinct aliases of their own, every check of a merge passes
but one: a property of the base may arrive while an own one of its alias, under another name, is
there. Whether that happens is read off the labels that are declared along the base chain.
-/

namespace EntityModel

open Labelled (label)

namespace Handover

/-- The labels that the complete view of the first entity of a chain shows. -/
def shownAlong : List Entity → List Label
  | [] => []
  | e :: rest =>
    handedDown e.properties (shownAlong rest) ++ (kept e.properties (shownAlong rest)).map label

/-- The entity, nearest to the root, where an alias of its own meets one that arrives from above, and
that alias. -/
def collisionAlong : List Entity → Option (String × String)
  | [] => none
  | e :: rest =>
    (collisionAlong rest).or
      ((collision? e.properties [] (shownAlong rest)).map fun p => (e.id, p.aliasName))

lemma kept_nil {α β : Type} [Labelled α] [Labelled β] (own : List β) :
    kept own ([] : List α) = own := by
  simp [kept]

lemma collisionAlong_singleton (e : Entity) : collisionAlong [e] = none := rfl

lemma shownAlong_singleton (e : Entity) : shownAlong [e] = e.properties.map label := by
  have hhanded : handedDown e.properties (shownAlong []) = [] := rfl
  rw [shownAlong, hhanded, List.nil_append, shownAlong, kept_nil]

end Handover

namespace Registry

variable {r : Registry} {e b : Entity} {chain rest : List Entity}

lemma mem_foldl_addMissing {refs more : List FragmentRef} {ref : FragmentRef}
    (h : ref ∈ more.foldl addMissing refs) : ref ∈ refs ∨ ref ∈ more := by
  rw [foldl_addMissing_eq, List.mem_append] at h
  exact h.imp_right fun h => firsts_sublist.subset h

lemma foldl_addMissing_sublist {refs more : List FragmentRef} :
    (more.foldl addMissing refs).Sublist (refs ++ more) := by
  rw [foldl_addMissing_eq]
  exact firsts_sublist.append_left refs

/-- References to different fragments are all taken. -/
lemma foldl_addMissing_eq_self {refs : List FragmentRef} (h : (refs.map (·.fragment)).Nodup) :
    refs.foldl addMissing [] = refs :=
  (foldl_addMissing_eq [] refs).trans (firsts_eq_self h)

lemma mem_gatherFragments {ref : FragmentRef} (h : ref ∈ gatherFragments [] chain) :
    ∃ x ∈ chain, ref ∈ x.fragments := by
  rw [gatherFragments_eq] at h
  obtain ⟨x, hx, href⟩ := List.mem_flatMap.mp (firsts_sublist.subset h)
  exact ⟨x, List.mem_of_mem_take hx, href⟩

lemma nodup_gatherFragments {refs : List FragmentRef} (h : (refs.map (·.fragment)).Nodup) :
    ((gatherFragments refs chain).map (·.fragment)).Nodup := by
  rw [gatherFragments_eq, ← firsts_behind h]
  exact nodup_firsts

/-- A view that a derived entity can be merged with. -/
structure SoundView (r : Registry) (view : Entity) : Prop where
  fragments : r.AllRegistered view.fragments
  types : ∀ p ∈ view.properties, r.IsAdmissible p.type
  distinct : (view.properties.map (·.aliasName)).Nodup

namespace Sound

lemma settle (h : r.Sound) (he : e ∈ r.entities) (hchain : r.lineage e = .ok chain)
    (hdistinct : (e.properties.map (·.aliasName)).Nodup) :
    r.settle e = .ok { e with
      base := none
      fragments := gatherFragments [] chain
      properties := e.properties.map (·.ownedBy e.id) } := by
  have heffective := effectiveFragments_of_lineage hchain
  have hknown : r.AllRegistered (gatherFragments [] chain) := by
    intro ref href
    obtain ⟨x, hx, href⟩ := mem_gatherFragments href
    have hmem := h.mem_lineage he hchain hx
    obtain ⟨chain', hchain'⟩ := h.chains x hmem
    exact (h.entities x hmem _ (effectiveFragments_of_lineage hchain')).fragments ref href
  have hentity := h.entities e he _ heffective
  exact r.settle_eq_ok_iff.mpr ⟨_, heffective, hknown, nodup_gatherFragments List.nodup_nil,
    hdistinct, fun p hp => ⟨hentity.types p hp, hentity.bindings p hp⟩, rfl⟩

lemma settled_soundView (h : r.Sound) (he : e ∈ r.entities) {view : Entity}
    (hview : r.settle e = .ok view) : r.SoundView view := by
  have hfinished := finished_of_settle hview
  refine ⟨hfinished.registered, fun p hp => ?_, hfinished.properties.aliases⟩
  obtain ⟨_, -, -, -, -, -, rfl⟩ := r.settle_eq_ok_iff.mp hview
  obtain ⟨w, hw, rfl⟩ := List.mem_map.mp hp
  change r.IsAdmissible w.type
  exact h.declared_admissible he hw

lemma merged_soundView (h : r.Sound) (he : e ∈ r.entities) {old view : Entity}
    (hold : r.SoundView old) (hview : r.merge (some old) e = .ok view) : r.SoundView view := by
  have hfinished := finished_of_merge hview
  refine ⟨hfinished.registered, fun p hp => ?_, hfinished.properties.aliases⟩
  rw [r.merge_properties hview hold.distinct] at hp
  rcases List.mem_append.mp hp with hp | hp
  · obtain ⟨q, hq, rfl⟩ := List.mem_map.mp hp
    exact h.narrow_admissible (hold.types q ((Handover.handedDown_sublist _ _).subset hq)) e.id
  · obtain ⟨w, hw, rfl⟩ := List.mem_map.mp hp
    change r.IsAdmissible w.type
    exact h.declared_admissible he ((Handover.kept_sublist _ _).subset hw)

/-- Merging an entity with a sound view of its base fails only on an alias. -/
theorem merge_eq (h : r.Sound) (he : e ∈ r.entities) (hchain : r.lineage e = .ok chain)
    (hdistinct : (e.properties.map (·.aliasName)).Nodup) {old : Entity} (hold : r.SoundView old) :
    match Handover.collision? e.properties [] old.properties with
    | some p => r.merge (some old) e = .error (.duplicateAlias e.id p.aliasName)
    | none => ∃ view, r.merge (some old) e = .ok view ∧ r.SoundView view := by
  have hsettle := h.settle he hchain hdistinct
  obtain ⟨fragments, hfragments⟩ : ∃ fragments,
      (if e.inheritsBaseTables then r.insertMissingTables old e.id (gatherFragments [] chain)
        else .ok (gatherFragments [] chain)) = .ok fragments := by
    split
    · exact ⟨_, insertMissingTables_eq_ok_iff.mpr ⟨hold.fragments, rfl⟩⟩
    · exact ⟨_, rfl⟩
  have hown : ((e.properties.map (·.ownedBy e.id)).map (·.aliasName)).Nodup := by
    simpa [Function.comp_def, Property.ownedBy] using hdistinct
  have hloop : old.properties.foldlM (r.inherit e.id fragments)
        ((Handover.takeAll (e.properties.map (·.ownedBy e.id)) []).draft
          (r.inheritedCopy e.id fragments)) =
      match Handover.collision? (e.properties.map (·.ownedBy e.id)) [] old.properties with
      | some p => .error (.duplicateAlias e.id p.aliasName)
      | none => .ok ((Handover.takeAll (e.properties.map (·.ownedBy e.id)) old.properties).draft
          (r.inheritedCopy e.id fragments)) :=
    r.foldlM_inherit_eq hown hold.distinct
      fun p hp => (h.narrow_admissible (hold.types p hp) e.id).check
  rw [Handover.collision?_map_own (Property.ownedBy · e.id) fun _ => rfl] at hloop
  have hmerge : r.merge (some old) e =
      old.properties.foldlM (r.inherit e.id fragments)
        ((Handover.takeAll (e.properties.map (·.ownedBy e.id)) []).draft
          (r.inheritedCopy e.id fragments)) >>= fun draft =>
      .ok (bequest old { e with
        base := none
        fragments := gatherFragments [] chain
        properties := e.properties.map (·.ownedBy e.id) } fragments draft) := by
    rw [merge_some, hsettle]
    change r.bequeath old _ = _
    rw [bequeath_eq, hfragments]
    rfl
  rw [hmerge, hloop]
  cases hcollision : Handover.collision? e.properties [] old.properties with
  | some p => rfl
  | none =>
    rw [hcollision] at hloop
    rw [hloop] at hmerge
    exact ⟨_, rfl, h.merged_soundView he hold hmerge⟩

/-- The complete views of a sound registry are sound. -/
theorem soundView (h : r.Sound) {id : String} {view : Entity} (hview : r.complete id = .ok view) :
    r.SoundView view := by
  obtain ⟨e, chain, hfound, hchain, -⟩ := complete_eq_ok hview
  have he := (r.mem_of_entity? hfound).1
  induction chain generalizing id e view with
  | nil => cases mem_lineage_self hchain
  | cons x rest ih =>
    rcases lineage_cases hchain with ⟨hbase, -⟩ | ⟨b, rest', hbase, hrest, hcons⟩
    · rw [complete_root hfound hbase, merge_none] at hview
      exact h.settled_soundView he hview
    · cases hcons
      rw [complete_base hfound hchain hbase] at hview
      obtain ⟨old, hold, hmerge⟩ := bind_eq_ok_iff.mp hview
      have hsound := ih hold b (base?_eq_some hbase).2 hrest (mem_of_base? hbase)
      exact h.merged_soundView he hsound hmerge

/-- The complete view of an entity shows the labels along its chain, where no aliases meet on it, and
else the first that meet are what keeps it from being completed. -/
theorem complete_along (h : r.Sound)
    (hdistinct : ∀ x ∈ r.entities, (x.properties.map (·.aliasName)).Nodup)
    (he : e ∈ r.entities) (hchain : r.lineage e = .ok chain) :
    match Handover.collisionAlong chain with
    | some (d, a) => r.complete e.id = .error (.duplicateAlias d a)
    | none => ∃ view, r.complete e.id = .ok view ∧ r.SoundView view ∧
        view.properties.map label = Handover.shownAlong chain := by
  -- along the chain, with the view of the base and its labels given by the rest of it
  induction chain generalizing e with
  | nil => cases mem_lineage_self hchain
  | cons a rest ih =>
    have hfound := h.entity?_of_mem he
    rcases lineage_cases hchain with ⟨hbase, heq⟩ | ⟨b, rest', hbase, hrest, heq⟩
    · obtain ⟨rfl, rfl⟩ : e = a ∧ rest = [] := by simp_all
      have hsettle := h.settle he hchain (hdistinct e he)
      rw [Handover.collisionAlong_singleton, Handover.shownAlong_singleton,
        complete_root hfound hbase, merge_none, hsettle]
      refine ⟨_, rfl, h.settled_soundView he hsettle, ?_⟩
      rw [List.map_map]
      rfl
    · obtain ⟨rfl, rfl⟩ : e = a ∧ rest = rest' := by simp_all
      have ih := ih (mem_of_base? hbase) hrest
      rw [Handover.collisionAlong, Handover.shownAlong, complete_base hfound hchain hbase]
      cases habove : Handover.collisionAlong rest with
      | some clash =>
        rw [habove] at ih
        dsimp only at ih
        rw [ih]
        rfl
      | none =>
        rw [habove] at ih
        obtain ⟨old, hold, hsound, hlabels⟩ := ih
        have hmerge := h.merge_eq he hchain (hdistinct e he) hsound
        have hlabel (p : Property) : label (label p) = label p := rfl
        rw [hold, Option.none_or, ← hlabels]
        change match ((Handover.collision? e.properties (([] : List Property).map label)
            (old.properties.map label)).map fun p => (e.id, p.aliasName)) with
          | some (d, a) => r.merge (some old) e = .error (.duplicateAlias d a)
          | none => ∃ view, r.merge (some old) e = .ok view ∧ r.SoundView view ∧
              view.properties.map label = _
        rw [Handover.collision?_map label hlabel]
        cases hcollision : Handover.collision? e.properties [] old.properties with
        | some p =>
          rw [hcollision] at hmerge
          exact hmerge
        | none =>
          rw [hcollision] at hmerge
          obtain ⟨view, hview, hsoundView⟩ := hmerge
          refine ⟨view, hview, hsoundView, ?_⟩
          rw [r.merge_properties hview hsound.distinct, List.map_append, List.map_map, List.map_map,
            Handover.handedDown_map label hlabel, Handover.kept_map label hlabel]
          rfl

end Sound

end Registry

end EntityModel
