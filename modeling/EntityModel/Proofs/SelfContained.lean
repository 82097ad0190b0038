import EntityModel.Proofs.Collision
import EntityModel.Proofs.Memoization
import EntityModel.Proofs.References

/-!
# Self-contained views

The fragments of a complete view are the effective fragments of its entity: what a merge takes over
from the base is attached already. All that the view refers to is among them, since whatever an
ancestor attaches below an end of the inheritance of tables, it attaches with its anchor.
-/

namespace EntityModel

namespace Registry

variable {r : Registry} {e view : Entity} {chain : List Entity} {id : String}

/-- An entity that stands for itself: it has no base, and its properties and fragments refer to
nothing outside of it. -/
structure SelfContained (r : Registry) (view : Entity) : Prop where
  base : view.base = none
  aliases : (view.properties.map (·.aliasName)).Nodup
  fragments : (view.fragments.map (·.fragment)).Nodup
  registered : ∀ ref ∈ view.fragments, (r.fragment? ref.fragment).isSome
  bindings : ∀ p ∈ view.properties, ∀ fragment ∈ p.sourceFragment,
    fragment ∈ view.fragments.map (·.fragment)
  anchors : ∀ ref ∈ view.fragments, ∀ anchor ∈ ref.anchor,
    anchor ∈ view.fragments.map (·.fragment)
  owners : ∀ p ∈ view.properties, p.owner = some view.id

/-- Where the fragments of the old entity are attached there is nothing to insert. -/
lemma insertMissingTables_of_attached {old : Entity} {entity : String}
    {refs result : List FragmentRef}
    (hattached : ∀ ref ∈ old.fragments, isAttached refs ref.fragment = true)
    (hresult : r.insertMissingTables old entity refs = .ok result) : result = refs := by
  obtain ⟨-, rfl⟩ := insertMissingTables_eq_ok_iff.mp hresult
  rw [withMissing, missingTables_eq_nil hattached]
  rfl

/-- Through inherited tables an entity has all the fragments of its completed base. -/
lemma isAttached_of_base {old : Entity} (hinherits : e.inheritsBaseTables = true)
    (hold : old.fragments = gatherFragments [] chain) :
    ∀ ref ∈ old.fragments, isAttached (gatherFragments [] (e :: chain)) ref.fragment = true := by
  intro ref href
  rw [hold] at href
  rw [isAttached_gatherFragments_cons]
  exact .inr ⟨hinherits, isAttached_iff_mem.mpr (List.mem_map_of_mem href)⟩

lemma merge_none_fragments (h : r.merge none e = .ok view) (hchain : r.lineage e = .ok chain) :
    view.fragments = gatherFragments [] chain := by
  rw [merge_none] at h
  obtain ⟨effective, heffective, -, -, -, -, rfl⟩ := r.settle_eq_ok_iff.mp h
  rw [effectiveFragments_of_lineage hchain] at heffective
  cases heffective
  rfl

lemma merge_some_fragments {old : Entity} {rest : List Entity}
    (h : r.merge (some old) e = .ok view) (hchain : r.lineage e = .ok (e :: rest))
    (hold : old.fragments = gatherFragments [] rest) :
    view.fragments = gatherFragments [] (e :: rest) := by
  rw [merge_some] at h
  obtain ⟨settled, hsettle, h⟩ := bind_eq_ok_iff.mp h
  obtain ⟨effective, heffective, -, -, -, -, rfl⟩ := r.settle_eq_ok_iff.mp hsettle
  rw [effectiveFragments_of_lineage hchain] at heffective
  cases heffective
  obtain ⟨fragments, draft, hfragments, -, rfl⟩ := r.bequeath_eq_ok h
  change fragments = gatherFragments [] (e :: rest)
  dsimp only at hfragments
  split at hfragments
  · next hinherits =>
    exact insertMissingTables_of_attached (isAttached_of_base hinherits hold) hfragments
  · cases hfragments
    rfl

/-- The fragments of a complete view are those gathered along the chain. -/
theorem complete_fragments (hfound : r.entity? id = some e) (hchain : r.lineage e = .ok chain)
    (hview : r.complete id = .ok view) : view.fragments = gatherFragments [] chain := by
  induction chain generalizing id e view with
  | nil => cases mem_lineage_self hchain
  | cons x rest ih =>
    rcases lineage_cases hchain with ⟨hbase, -⟩ | ⟨b, rest', hbase, hrest, hcons⟩
    · rw [complete_root hfound hbase] at hview
      exact merge_none_fragments hview hchain
    · cases hcons
      rw [complete_base hfound hchain hbase] at hview
      obtain ⟨old, hold, hmerge⟩ := bind_eq_ok_iff.mp hview
      exact merge_some_fragments hmerge hchain (ih (base?_eq_some hbase).2 hrest hold)

namespace Sound

/-- What a chain adds to some fragments comes with its anchors. -/
lemma gathered_anchors (h : r.Sound) (he : e ∈ r.entities) (hchain : r.lineage e = .ok chain)
    {refs : List FragmentRef} {ref : FragmentRef} (href : ref ∈ gatherFragments refs chain) :
    ref ∈ refs ∨ ∀ anchor ∈ ref.anchor, isAttached (gatherFragments [] chain) anchor = true := by
  induction chain generalizing e refs with
  | nil => exact .inl href
  | cons x rest ih =>
    obtain ⟨_, hcons, -, hrest⟩ := lineage_rest hchain
    cases hcons
    have hentity := h.entities x he _ (effectiveFragments_of_lineage hchain)
    -- what the entity attaches itself has passed the check of anchors
    have hown (href : ref ∈ x.fragments.foldl addMissing refs) : ref ∈ refs ∨
        ∀ anchor ∈ ref.anchor, isAttached (gatherFragments [] (x :: rest)) anchor = true :=
      (mem_foldl_addMissing href).imp_right fun href =>
        checkAnchor_eq_ok_iff.mp (hentity.anchors ref href)
    rw [gatherFragments] at href
    split at href
    · next hinherits =>
      rcases lineage_cases hchain with ⟨-, hcons⟩ | ⟨b, _, hbase, -, hcons⟩
      · cases hcons
        exact hown href
      · cases hcons
        rcases ih (mem_of_base? hbase) (hrest b hbase) href with href | hanchors
        · exact hown href
        · refine .inr fun anchor hanchor => isAttached_gatherFragments_cons.mpr ?_
          exact .inr ⟨hinherits, hanchors anchor hanchor⟩
    · exact hown href

/-- The complete views of a sound registry are self-contained. -/
theorem selfContained (h : r.Sound) (hview : r.complete id = .ok view) :
    view.id = id ∧ r.SelfContained view := by
  obtain ⟨e, chain, hfound, hchain, -⟩ := complete_eq_ok hview
  have hfragments := complete_fragments hfound hchain hview
  have hfinished := finished_of_complete hview
  refine ⟨complete_id hview, hfinished.base, hfinished.properties.aliases, hfinished.fragments,
    hfinished.registered, fun p hp => ?_, fun ref href => ?_, hfinished.properties.owners⟩
  · simp only [← isAttached_iff_mem]
    exact checkPropertyFragment_eq_ok_iff.mp (hfinished.properties.bindings p hp)
  · simp only [← isAttached_iff_mem]
    rw [hfragments] at href ⊢
    exact (h.gathered_anchors (r.mem_of_entity? hfound).1 hchain href).resolve_left
      List.not_mem_nil

end Sound

/-- What an entity attaches that does not inherit tables is its own, each fragment once. -/
lemma gatherFragments_own (hoff : e.inheritsBaseTables = false) :
    gatherFragments [] (e :: chain) = e.fragments.foldl addMissing [] := by
  rw [gatherFragments, hoff]
  exact if_neg Bool.false_ne_true

/-- Completion attaches the effective fragments, in their order. Where the tables of the base are
inherited, the completed base has no table that the entity lacks, so the merge inserts nothing. Where
they are not, only own fragments are attached, all of them when no fragment is declared twice. -/
theorem completion_adds_no_fragment (hfound : r.entity? id = some e)
    (hview : r.complete id = .ok view) :
    r.effectiveFragments e = .ok view.fragments ∧
    (∀ b, r.base? e = some b → e.inheritsBaseTables = true → ∃ old settled,
      r.complete b.id = .ok old ∧ r.settle e = .ok settled ∧ r.bequeath old settled = .ok view ∧
      r.missingTables settled.fragments old.fragments = [] ∧
      r.insertMissingTables old e.id settled.fragments = .ok settled.fragments) ∧
    (e.inheritsBaseTables = false → view.fragments.Sublist e.fragments ∧
      (∀ ref ∈ e.fragments, isAttached view.fragments ref.fragment = true) ∧
      ((e.fragments.map (·.fragment)).Nodup → view.fragments = e.fragments)) := by
  obtain ⟨e', chain, hfound', hchain, hmerge⟩ := complete_eq_ok hview
  cases hfound.symm.trans hfound'
  have hfragments := complete_fragments hfound hchain hview
  have heffective : r.effectiveFragments e = .ok view.fragments := by
    rw [effectiveFragments_of_lineage hchain, hfragments]
  refine ⟨heffective, fun b hbase hinherits => ?_, fun hoff => ?_⟩
  · rcases hmerge with ⟨hroot, -⟩ | ⟨b', old, hbase', hold, hmerge⟩
    · cases hroot.symm.trans hbase
    · cases hbase.symm.trans hbase'
      rw [merge_some] at hmerge
      obtain ⟨settled, hsettle, hbequeath⟩ := bind_eq_ok_iff.mp hmerge
      obtain ⟨effective, heffective', -, -, -, -, rfl⟩ := r.settle_eq_ok_iff.mp hsettle
      cases heffective.symm.trans heffective'
      obtain ⟨rest, hrest, rfl⟩ := lineage_base hchain hbase
      have hold' := complete_fragments (base?_eq_some hbase).2 hrest hold
      have hattached := hfragments ▸ isAttached_of_base hinherits hold'
      obtain ⟨fragments, -, hinsert, -, -⟩ := r.bequeath_eq_ok hbequeath
      rw [if_pos hinherits] at hinsert
      cases insertMissingTables_of_attached hattached hinsert
      exact ⟨old, _, hold, hsettle, hbequeath, missingTables_eq_nil hattached, hinsert⟩
  · obtain ⟨rest, rfl, -⟩ := lineage_rest hchain
    rw [hfragments, gatherFragments_own hoff]
    refine ⟨foldl_addMissing_sublist, fun ref href => ?_, foldl_addMissing_eq_self⟩
    exact isAttached_foldl_addMissing.mpr (.inr ⟨ref, href, rfl⟩)

end Registry

namespace Model.CopiedTable

def low : Entity :=
  { Entity.ofName "Low" "Low" with
    base := some "Middle"
    fragments := [.primary "more", .secondary "extra" "more" .inner] }

def middle : Entity :=
  { Entity.ofName "Middle" "Middle" with
    base := some "Top"
    inheritsBaseTables := false
    fragments := [.primary "copy", .secondary "extra" "copy" .outer] }

/-- The table of the root is known to `middle`, which does not inherit it, under another name. -/
def registry : Registry :=
  Model.registry
    { ofNameSpace none with
      fragments := [.ofName "main" "main", .ofName "copy" "main", .ofName "extra" "extra",
        .ofName "more" "more"]
      entities := [low, middle, { Entity.ofName "Top" "Top" with fragments := [.primary "main"] }] }

theorem completion_adds_no_fragment_low :
    (registry.effectiveFragments low = .ok
        [.primary "more", .secondary "extra" "more" .inner, .primary "copy"] ∧
      ∃ old settled, registry.complete "Middle" = .ok old ∧ registry.settle low = .ok settled ∧
        registry.insertMissingTables old "Low" settled.fragments = .ok settled.fragments) ∧
    ∃ view, registry.complete "Middle" = .ok view ∧ view.fragments = middle.fragments := by
  have hlow : (registry.complete "Low").toOption.map (·.fragments) =
      some [.primary "more", .secondary "extra" "more" .inner, .primary "copy"] := by decide +kernel
  have hmiddle : (registry.complete "Middle").toOption.map (·.fragments) = some middle.fragments := by
    decide +kernel
  obtain ⟨view, hview, hfragments⟩ := exists_ok_of_map hlow
  obtain ⟨old, hold, -⟩ := exists_ok_of_map hmiddle
  have hfoundLow : registry.entity? "Low" = some low := rfl
  have hfoundMiddle : registry.entity? "Middle" = some middle := rfl
  obtain ⟨heffective, hbase, -⟩ := Registry.completion_adds_no_fragment hfoundLow hview
  obtain ⟨-, -, hown⟩ := Registry.completion_adds_no_fragment hfoundMiddle hold
  obtain ⟨old', settled, hold', hsettle, -, -, hinsert⟩ := hbase middle rfl rfl
  exact ⟨⟨hfragments ▸ heffective, old', settled, hold', hsettle, hinsert⟩, old, hold,
    (hown rfl).2.2 (by decide)⟩

end Model.CopiedTable

namespace Schema

/-- A completed entity is self-contained, whichever of its ancestors stop inheriting tables. -/
theorem completed_entity_is_self_contained {m : Model} {settings : Settings} {s : Schema}
    (hbuild : m.build settings = .ok s) {id : String} {view : Entity}
    (hview : s.answer id = .ok view) : view.id = id ∧ s.registry.SelfContained view := by
  obtain ⟨-, -, hsound⟩ := Model.build_eq_ok_iff.mp hbuild
  rw [answer_eq] at hview
  exact hsound.selfContained hview

end Schema

namespace Model.StoredAcrossLevels

def first : Entity :=
  { Entity.ofName "First" "First" with
    fragments := [.primary "main", .secondary "extra" "main" .outer]
    properties := [(Property.ofType "p" ⟨"text", .user "String" none⟩).storedIn "extra" "column"] }

def second : Entity :=
  { Entity.ofName "Second" "Second" with
    base := some "First"
    fragments := [.secondary "more" "extra" .inner] }

/-- The fragment of `second` has an anchor that comes from its base. -/
def model : Model :=
  { ofNameSpace none with
    types := [⟨"text", .user "String" none⟩]
    fragments := [.ofName "main" "main", .ofName "extra" "extra", .ofName "more" "more"]
    entities := [first, second] }

def schema : Schema := Schema.flatten model .default

lemma build_model : model.build .default = .ok schema :=
  build_of_problems (by decide +kernel) (by decide +kernel)

theorem completed_entity_is_self_contained_second : ∃ view, schema.answer "Second" = .ok view ∧
    view.fragments.map (·.fragment) = ["more", "main", "extra"] ∧
    view.properties.map (·.sourceFragment) = [some "extra"] ∧
    schema.registry.SelfContained view := by
  have hshown : (schema.registry.complete "Second").toOption.map (fun view =>
      (view.fragments.map (·.fragment), view.properties.map (·.sourceFragment))) =
        some (["more", "main", "extra"], [some "extra"]) := by decide +kernel
  rw [Schema.answer_eq]
  obtain ⟨view, hview, hparts⟩ := exists_ok_of_map hshown
  obtain ⟨hfragments, hproperties⟩ := Prod.mk.inj hparts
  have hanswer : schema.answer "Second" = .ok view := by rw [Schema.answer_eq, hview]
  exact ⟨view, hview, hfragments, hproperties,
    (Schema.completed_entity_is_self_contained build_model hanswer).2⟩

end Model.StoredAcrossLevels

end EntityModel
