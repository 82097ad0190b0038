import EntityModel.Proofs.Identifiers
import EntityModel.Proofs.Reachable

/-!
# Identifiers of reachable models

Every change that declares something looks for its identifier in the whole tree of the model. Only
an inclusion compares no more than what the included model declares itself. So the identifiers of a
reachable model are unique unless an include of an include brings one in again.
-/

namespace EntityModel

namespace Model

variable {m m' : Model}

/-- The same declarations by their identifiers, and the same includes. -/
def SameIds (m m' : Model) : Prop := (∀ kind, m'.ids kind = m.ids kind) ∧ m'.includes = m.includes

lemma guarded_iff : m.Guarded ↔
    (∀ kind, m.GuardedAt kind) ∧ ∀ other ∈ m.includes, other.Guarded := forall_mem_tree

/-- A model that declares fewer identifiers is still guarded. -/
lemma Guarded.of_subset (h : m.Guarded) (hown : ∀ kind, (m'.ids kind).Nodup)
    (hsub : ∀ kind, m'.ids kind ⊆ m.ids kind) (hincludes : m'.includes = m.includes) :
    m'.Guarded := by
  obtain ⟨hroot, hothers⟩ := guarded_iff.mp h
  refine guarded_iff.mpr ⟨fun kind => ⟨hown kind, ?_, ?_⟩, hincludes ▸ hothers⟩
  · rw [hincludes]
    intro other hother
    exact List.disjoint_of_subset_left (hsub kind) ((hroot kind).includes other hother)
  · rw [hincludes]
    exact (hroot kind).pairs

lemma Guarded.congr (h : m.Guarded) (hsame : m.SameIds m') : m'.Guarded := by
  obtain ⟨hids, hincludes⟩ := hsame
  refine h.of_subset (fun kind => ?_) (fun kind => ?_) hincludes
  · rw [hids]
    exact ((guarded_iff.mp h).1 kind).own
  · rw [hids]
    exact List.Subset.refl _

/-- A declaration whose identifier is not visible keeps a model guarded. -/
lemma Guarded.declare (h : m.Guarded) {kind : Identified} {id : String}
    (hnew : id ∉ m.visibleIds kind) (hkind : m'.ids kind = m.ids kind ++ [id])
    (hothers : ∀ kind', kind' ≠ kind → m'.ids kind' = m.ids kind')
    (hincludes : m'.includes = m.includes) : m'.Guarded := by
  obtain ⟨hroot, hguarded⟩ := guarded_iff.mp h
  refine guarded_iff.mpr ⟨fun kind' => ⟨?_, ?_, hincludes ▸ (hroot kind').pairs⟩,
    hincludes ▸ hguarded⟩
  · by_cases hsame : kind' = kind
    · subst hsame
      have hown : id ∉ m.ids kind' := fun hid => hnew (ids_subset_visibleIds hid)
      rw [hkind, List.nodup_append']
      exact ⟨(hroot kind').own, List.nodup_singleton id, List.disjoint_singleton.mpr hown⟩
    · rw [hothers kind' hsame]
      exact (hroot kind').own
  · rw [hincludes]
    intro other hother
    by_cases hsame : kind' = kind
    · subst hsame
      have hid : id ∉ other.ids kind' := fun hid =>
        hnew (visibleIds_subset_of_include hother (ids_subset_visibleIds hid))
      rw [hkind, List.disjoint_append_left]
      exact ⟨(hroot kind').includes other hother, List.singleton_disjoint.mpr hid⟩
    · rw [hothers kind' hsame]
      exact (hroot kind').includes other hother

/-- An inclusion is refused just when the other model itself declares an identifier that is
visible. -/
lemma clash?_eq_none_iff {other : Model} :
    m.clash? other = none ↔ ∀ kind, (m.visibleIds kind).Disjoint (other.ids kind) := by
  have hdisjoint {α : Type} (key : α → String) (l : List α) (ids : List String) :
      (∀ a ∈ l, key a ∉ ids) ↔ ids.Disjoint (l.map key) := by
    simp only [List.disjoint_right, List.mem_map, forall_exists_index, and_imp,
      forall_apply_eq_imp_iff₂]
  unfold clash?
  simp only [Option.or_eq_none_iff, Option.map_eq_none_iff, List.find?_eq_none,
    isSome_type?_iff, isSome_fragment?_iff, isSome_entity?_iff, hdisjoint]
  constructor
  · rintro ⟨htypes, hfragments, hentities⟩ kind
    cases kind with
    | type => exact htypes
    | sourceFragment => exact hfragments
    | entity => exact hentities
  · intro h
    exact ⟨h .type, h .sourceFragment, h .entity⟩

lemma Guarded.include {other : Model} (h : m.Guarded) (hother : other.Guarded)
    (hclash : m.clash? other = none) :
    Guarded { m with includes := m.includes ++ [other] } := by
  obtain ⟨hroot, hguarded⟩ := guarded_iff.mp h
  have hnew := clash?_eq_none_iff.mp hclash
  refine guarded_iff.mpr ⟨fun kind => ⟨(hroot kind).own, fun x hx => ?_, ?_⟩, fun x hx => ?_⟩
  · rcases List.mem_append.mp hx with hx | hx
    · exact (hroot kind).includes x hx
    · have hown : m.ids kind ⊆ m.visibleIds kind := ids_subset_visibleIds
      rw [List.mem_singleton.mp hx]
      exact List.disjoint_of_subset_left hown (hnew kind)
  · refine List.pairwise_append.mpr ⟨(hroot kind).pairs, List.pairwise_singleton _ _, ?_⟩
    intro earlier hearlier later hlater
    rw [List.mem_singleton.mp hlater]
    exact List.disjoint_of_subset_left (visibleIds_subset_of_include hearlier) (hnew kind)
  · rcases List.mem_append.mp hx with hx | hx
    · exact hguarded x hx
    · rwa [List.mem_singleton.mp hx]

/-- A declaration is a step only when its identifier is not visible. -/
lemma Guarded.step (h : m.Guarded) (hstep : m.Step m') : m'.Guarded := by
  cases hstep with
  | annotate nameSpace extensions => exact h.congr ⟨fun kind => by cases kind <;> rfl, rfl⟩
  | @declareType t hnew =>
    have hid : t.id ∉ m.visibleIds .type :=
      mt isSome_type?_iff.mpr (Option.not_isSome_iff_eq_none.mpr hnew)
    refine h.declare hid List.map_append (fun kind hkind => ?_) rfl
    cases kind <;> first | exact absurd rfl hkind | rfl
  | @declareFragment f hnew =>
    have hid : f.id ∉ m.visibleIds .sourceFragment :=
      mt isSome_fragment?_iff.mpr (Option.not_isSome_iff_eq_none.mpr hnew)
    refine h.declare hid List.map_append (fun kind hkind => ?_) rfl
    cases kind <;> first | exact absurd rfl hkind | rfl
  | @declareEntity e hnew =>
    have hid : e.id ∉ m.visibleIds .entity :=
      mt isSome_entity?_iff.mpr (Option.not_isSome_iff_eq_none.mpr hnew)
    refine h.declare hid (map_id_withBare m e) (fun kind hkind => ?_) rfl
    cases kind <;> first | exact absurd rfl hkind | rfl
  | relate hknown => exact h.congr ⟨fun kind => by cases kind <;> rfl, rfl⟩
  | adjust hown hchange =>
    refine h.congr ⟨fun kind => ?_, rfl⟩
    cases kind with
    | type => rfl
    | sourceFragment => rfl
    | entity => exact hchange.map_id hown
  | reorder hsub hdistinct =>
    refine h.of_subset (fun kind => ?_) (fun kind => ?_) rfl
    · cases kind with
      | type => exact ((guarded_iff.mp h).1 .type).own
      | sourceFragment => exact ((guarded_iff.mp h).1 .sourceFragment).own
      | entity => exact hdistinct
    · cases kind with
      | type => exact List.Subset.refl _
      | sourceFragment => exact List.Subset.refl _
      | entity => exact List.map_subset _ hsub

lemma Grown.guarded (h : m.Grown) : m.Guarded := by
  induction h with
  | start nameSpace =>
    refine guarded_iff.mpr ⟨fun kind => ⟨?_, ?_, List.Pairwise.nil⟩, ?_⟩
    · cases kind <;> exact List.nodup_nil
    · exact fun other hother => absurd hother List.not_mem_nil
    · exact fun other hother => absurd hother List.not_mem_nil
  | step h hstep ih => exact ih.step hstep
  | combine h hother hclash ih ihother => exact ih.include ihother hclash

/-- Within each model of a tree, and as far as an inclusion looks, the identifiers of a reachable model
are unique. -/
theorem Reachable.guarded (h : m.Reachable) : m.Guarded := h.grown.guarded

/-- The models that are made of types, source fragments, entities and includes that have been added one
after the other, with or without success. -/
inductive Assembled : Model → Prop where
  | start (nameSpace : Option String) : Assembled (ofNameSpace nameSpace)
  | addType {m : Model} (t : TypeReference) (h : Assembled m) :
      Assembled ((Edit.addType t).after m)
  | addFragment {m : Model} (f : SourceFragment) (h : Assembled m) :
      Assembled ((Edit.addFragment f).after m)
  | addEntity {m : Model} (e : Entity) (h : Assembled m) : Assembled ((Edit.addEntity e).after m)
  | addInclude {m other : Model} (h : Assembled m) (hother : Assembled other) :
      Assembled ((Edit.addInclude other).after m)

lemma Assembled.reachable (h : m.Assembled) : m.Reachable := by
  induction h with
  | start nameSpace => exact .start nameSpace
  | addType t h ih => exact .change (.addType t) ih
  | addFragment f h ih => exact .change (.addFragment f) ih
  | addEntity e h ih => exact .change (.addEntity e) ih
  | addInclude h hother ih ihother => exact .combine ih ihother

/-- When the identifiers in a model and all it includes are unique, however the model has been made:
just when no include brings in, through its own includes, what is declared by the model that includes
it or visible through an earlier include. -/
theorem Reachable.uniqueIds_iff_nestedApart (h : m.Reachable) : m.UniqueIds ↔ m.NestedApart := by
  rw [uniqueIds_iff]
  exact ⟨And.right, fun hapart => ⟨h.guarded, hapart⟩⟩

namespace IncludedTwice

def shared : Entity := Entity.ofName "Shared" "Shared"

def inner : Model := (Edit.addEntity shared).after (ofNameSpace none)

def middle : Model := (Edit.addInclude inner).after (ofNameSpace none)

/-- An entity and, by way of an include of an include, another one of its identifier. -/
def outer : Model := (Edit.addInclude middle).after inner

lemma assembled_outer : outer.Assembled :=
  have hinner : inner.Assembled := .addEntity shared (.start none)
  .addInclude hinner (.addInclude (.start none) hinner)

lemma visibleIds_outer : outer.visibleIds .entity = ["Shared", "Shared"] := by decide +kernel

theorem uniqueIds_iff_nestedApart_outer :
    outer.Reachable ∧ (outer.UniqueIds ↔ outer.NestedApart) ∧ ¬ outer.NestedApart := by
  have hreachable := assembled_outer.reachable
  have hiff := hreachable.uniqueIds_iff_nestedApart
  refine ⟨hreachable, hiff, fun hapart => ?_⟩
  have hnodup := hiff.mpr hapart .entity
  rw [visibleIds_outer] at hnodup
  exact absurd hnodup (by decide)

end IncludedTwice

/-- The checks of changes do not keep identifiers unique in a model and its includes. -/
theorem assembled_not_uniqueIds : ¬ ∀ m : Model, m.Assembled → m.UniqueIds := by
  intro h
  have hnodup := h IncludedTwice.outer IncludedTwice.assembled_outer .entity
  rw [IncludedTwice.visibleIds_outer] at hnodup
  exact absurd hnodup (by decide)

end Model

end EntityModel
