import EntityModel.Proofs.Adding
import Mathlib.Tactic.MkIffOfInductiveProp

/-!
# What is accepted as a new entity

An entity is added by a sequence of changes, each checked in the model that those before it have left.
Whether they all go through can be told beforehand: one look at the model with the bare entity, and at
the entity as it is declared, decides.
-/

namespace EntityModel

namespace Registry

/-- A fragment is handed down to an entity: it inherits the tables of its base, and the fragment is an
effective one of the base. -/
def HandsDown (r : Registry) (e : Entity) (fragment : String) : Prop :=
  e.inheritsBaseTables = true ∧ ∃ b attached, r.base? e = some b ∧
    r.effectiveFragments b = .ok attached ∧ isAttached attached fragment = true

/-- What a registry that has an entity without its fragments and properties asks of them. -/
@[mk_iff]
structure Accepts (r : Registry) (e : Entity) : Prop where
  chain : e.fragments ≠ [] ∨ e.properties ≠ [] → ¬ r.Revisits e
  known : ∀ ref ∈ e.fragments, (r.fragment? ref.fragment).isSome
  notInherited : ∀ ref ∈ e.fragments, ¬ r.HandsDown e ref.fragment
  distinct : (e.fragments.map (·.fragment)).Nodup
  anchors : ∀ before ref after, e.fragments = before ++ ref :: after → ∀ anchor ∈ ref.anchor,
    (∃ other ∈ before, other.fragment = anchor) ∨ r.HandsDown e anchor
  aliases : (e.properties.map (·.aliasName)).Nodup
  types : ∀ p ∈ e.properties, r.checkPropertyType e.id p = .ok ()
  bindings : ∀ p ∈ e.properties, ∀ fragment ∈ p.sourceFragment,
    (∃ ref ∈ e.fragments, ref.fragment = fragment) ∨ r.HandsDown e fragment

variable {r : Registry} {e : Entity} {fragment : String}

lemma handsDown_iff (hends : ¬ r.Revisits e) :
    r.HandsDown e fragment ↔ r.InheritsFragment e fragment := by
  refine and_congr_right fun _ => exists_congr fun b => ?_
  simp only [exists_and_left]
  refine and_congr_right fun hbase => ?_
  have hends' : ¬ r.Revisits b := mt (Revisits.of_base hbase) hends
  refine (exists_effectiveFragments_iff (P := fun attaches => attaches fragment)).trans ?_
  exact and_iff_right hends'

/-- Behind those before it every fragment may be attached just when all of them fit together. -/
lemma takesFragments_iff (hends : ¬ r.Revisits e) :
    (∀ before ref after, e.fragments = before ++ ref :: after → r.TakesFragment e before ref) ↔
      (∀ ref ∈ e.fragments, (r.fragment? ref.fragment).isSome) ∧
      (∀ ref ∈ e.fragments, ¬ r.HandsDown e ref.fragment) ∧
      (e.fragments.map (·.fragment)).Nodup ∧
      ∀ before ref after, e.fragments = before ++ ref :: after → ∀ anchor ∈ ref.anchor,
        (∃ other ∈ before, other.fragment = anchor) ∨ r.HandsDown e anchor := by
  simp only [handsDown_iff hends, nodup_map_iff_split]
  constructor
  · intro h
    refine ⟨fun ref href => ?_, fun ref href => ?_, fun before ref after he => (h _ _ _ he).fresh,
      fun before ref after he => (h _ _ _ he).anchor⟩
    · obtain ⟨before, after, he⟩ := List.append_of_mem href
      exact (h before ref after he).known
    · obtain ⟨before, after, he⟩ := List.append_of_mem href
      exact (h before ref after he).notInherited
  · rintro ⟨hknown, hnot, hfresh, hanchor⟩ before ref after he
    have href : ref ∈ e.fragments := he ▸ List.mem_append_right _ List.mem_cons_self
    exact ⟨hends, hknown ref href, hfresh _ _ _ he, hnot ref href, hanchor _ _ _ he⟩

lemma takesProperties_iff (hends : ¬ r.Revisits e) :
    (∀ before p after, e.properties = before ++ p :: after → r.TakesProperty e before p) ↔
      (e.properties.map (·.aliasName)).Nodup ∧
      (∀ p ∈ e.properties, r.checkPropertyType e.id p = .ok ()) ∧
      ∀ p ∈ e.properties, ∀ fragment ∈ p.sourceFragment,
        (∃ ref ∈ e.fragments, ref.fragment = fragment) ∨ r.HandsDown e fragment := by
  simp only [handsDown_iff hends, ← attaches_iff, nodup_map_iff_split]
  constructor
  · intro h
    refine ⟨fun before p after he => (h _ _ _ he).fresh, fun p hp => ?_, fun p hp => ?_⟩
    · obtain ⟨before, after, he⟩ := List.append_of_mem hp
      exact (h before p after he).type
    · obtain ⟨before, after, he⟩ := List.append_of_mem hp
      exact (h before p after he).binding
  · rintro ⟨hfresh, htype, hbinding⟩ before p after he
    have hp : p ∈ e.properties := he ▸ List.mem_append_right _ List.mem_cons_self
    exact ⟨hends, hfresh _ _ _ he, htype p hp, hbinding p hp⟩

lemma admits_of_bare (hfragments : e.fragments = []) (hproperties : e.properties = []) :
    r.Admits e where
  fragments before ref after he := absurd (hfragments.symm.trans he) (by simp)
  properties before p after he := absurd (hproperties.symm.trans he) (by simp)

lemma accepts_of_bare (hfragments : e.fragments = []) (hproperties : e.properties = []) :
    r.Accepts e := by
  simp [accepts_iff, hfragments, hproperties]

lemma Admits.bare_of_revisits (h : r.Admits e) (hback : r.Revisits e) :
    e.fragments = [] ∧ e.properties = [] := by
  simp only [List.eq_nil_iff_forall_not_mem]
  refine ⟨fun ref href => ?_, fun p hp => ?_⟩
  · obtain ⟨before, -, htakes⟩ := h.takesFragment href
    exact htakes.chain hback
  · obtain ⟨before, htakes⟩ := h.takesProperty hp
    exact htakes.chain hback

lemma Accepts.bare_of_revisits (h : r.Accepts e) (hback : r.Revisits e) :
    e.fragments = [] ∧ e.properties = [] := by
  by_contra hfilled
  exact h.chain (not_and_or.mp hfilled) hback

/-- Nothing depends on the order in which an entity is filled but the anchors. -/
theorem admits_iff_accepts : r.Admits e ↔ r.Accepts e := by
  by_cases hback : r.Revisits e
  · constructor
    · intro h
      obtain ⟨hfragments, hproperties⟩ := h.bare_of_revisits hback
      exact accepts_of_bare hfragments hproperties
    · intro h
      obtain ⟨hfragments, hproperties⟩ := h.bare_of_revisits hback
      exact admits_of_bare hfragments hproperties
  · constructor
    · intro h
      obtain ⟨hknown, hnot, hdistinct, hanchors⟩ := (takesFragments_iff hback).mp h.fragments
      obtain ⟨haliases, htypes, hbindings⟩ := (takesProperties_iff hback).mp h.properties
      exact ⟨fun _ => hback, hknown, hnot, hdistinct, hanchors, haliases, htypes, hbindings⟩
    · intro h
      exact ⟨(takesFragments_iff hback).mpr ⟨h.known, h.notInherited, h.distinct, h.anchors⟩,
        (takesProperties_iff hback).mpr ⟨h.aliases, h.types, h.bindings⟩⟩

end Registry

namespace Model

variable {m : Model} {e : Entity}

/-- Whether an entity is accepted can be told from the model that has only the bare entity. -/
lemma accepts_withBare_iff (hunknown : m.entity? e.id = none) :
    (m.withLast e.owned).registry.Accepts e.owned ↔ (m.withBare e).registry.Accepts e := by
  have hdetailed : (m.withLast e.owned).DetailedAt e.id (m.withBare e) :=
    detailedAt_filled (e := e.owned) hunknown
  have hrevisits : (m.withLast e.owned).registry.Revisits e.owned ↔
      (m.withBare e).registry.Revisits e :=
    hdetailed.looksAlike.revisits_iff rfl
  have hfragment : (m.withLast e.owned).registry.fragment? = (m.withBare e).registry.fragment? :=
    (fragment?_withLast m e.owned).trans (fragment?_withLast m (e.filled [] [])).symm
  by_cases hback : (m.withLast e.owned).registry.Revisits e.owned
  · have howned : e.owned.properties = [] ↔ e.properties = [] := List.map_eq_nil_iff
    constructor
    · intro h
      obtain ⟨hfragments, hproperties⟩ := h.bare_of_revisits hback
      exact Registry.accepts_of_bare hfragments (howned.mp hproperties)
    · intro h
      obtain ⟨hfragments, hproperties⟩ := h.bare_of_revisits (hrevisits.mp hback)
      exact Registry.accepts_of_bare hfragments (howned.mpr hproperties)
  · have habove : (m.withLast e.owned).registry.SameAbove (m.withBare e).registry e.owned :=
      hdetailed.sameAbove (e := e.owned) hback
    have hhands (fragment : String) : (m.withLast e.owned).registry.HandsDown e.owned fragment ↔
        (m.withBare e).registry.HandsDown e fragment := by
      rw [Registry.handsDown_iff hback, Registry.handsDown_iff (mt hrevisits.mpr hback)]
      exact habove.inheritsFragment_iff.symm
    simp only [Registry.accepts_iff, hrevisits, hhands, hfragment,
      ← hdetailed.checkPropertyType_eq]
    simp only [Entity.owned, List.forall_mem_map, List.map_map, ne_eq, List.map_eq_nil_iff]
    exact Iff.rfl

end Model

namespace Edit

variable {m m' : Model} {e : Entity}

/-- An entity is added just when its identifier is not in use and the model with the bare entity accepts
it. It then stands behind the others as it is declared, and its properties are its own. -/
theorem addEntity_succeeds_iff_accepts : (addEntity e).run m = .ok () m' ↔
    (∀ x ∈ m.allEntities, x.id ≠ e.id) ∧ (m.withBare e).registry.Accepts e ∧
      m' = { m with entities := m.entities ++
        [{ e with properties := e.properties.map fun p => { p with owner := some e.id } }] } := by
  rw [addEntity_eq_ok_iff, Registry.admits_iff_accepts, ← Model.entity?_eq_none_iff]
  refine and_congr_right fun hunknown => ?_
  rw [Model.accepts_withBare_iff hunknown]
  exact Iff.rfl

/-- The base chain is not followed as long as there is nothing to attach. -/
example : ((addEntity { Entity.ofName "Loop" "Loop" with base := some "Loop" }).result
    (Model.ofNameSpace none)).toOption.isSome := by decide +kernel

end Edit

end EntityModel
