import EntityModel.Model
import Mathlib.Data.List.Nodup

/-!
# Identifiers in a tree of models

Types, source fragments and entities are known by identifiers. A model may declare them itself or
see them through its includes. They are unique in the whole tree just when they are in each place of
it: within one model, between a model and its includes, and between the includes of one model.
-/

namespace EntityModel

/-- What is known by an identifier. -/
inductive Identified where
  | type
  | sourceFragment
  | entity
  deriving DecidableEq

namespace Model

/-! ### What a model and its includes hold -/

section Tree

variable {m m' : Model}

lemma flatMap_tree {α : Type} (f : Model → List α) (m : Model) :
    m.tree.flatMap f = f m ++ (m.includes.flatMap tree).flatMap f := by
  rw [tree_eq, List.flatMap_cons]

lemma allEntities_eq (m : Model) :
    m.allEntities = m.entities ++ (m.includes.flatMap tree).flatMap (·.entities) :=
  flatMap_tree _ m

lemma type?_congr (htypes : m.types = m'.types) (hincludes : m.includes = m'.includes) :
    m.type? = m'.type? := by
  funext id
  unfold type?
  rw [tree_eq, tree_eq m', List.findSome?_cons, List.findSome?_cons, htypes, hincludes]

lemma fragment?_congr (hfragments : m.fragments = m'.fragments)
    (hincludes : m.includes = m'.includes) : m.fragment? = m'.fragment? := by
  funext id
  unfold fragment?
  rw [tree_eq, tree_eq m', List.findSome?_cons, List.findSome?_cons, hfragments, hincludes]

end Tree

/-- The identifiers of one kind that a model declares itself. -/
def ids (m : Model) : Identified → List String
  | .type => m.types.map (·.id)
  | .sourceFragment => m.fragments.map (·.id)
  | .entity => m.entities.map (·.id)

/-- The identifiers that a model and all it includes declare. -/
def visibleIds (m : Model) (kind : Identified) : List String := m.tree.flatMap (·.ids kind)

/-- The identifiers that are visible through the includes of a model. -/
def includedIds (m : Model) (kind : Identified) : List String := m.includes.flatMap (·.visibleIds kind)

/-- No two declarations of one kind in a model and all it includes share an identifier. -/
def UniqueIds (m : Model) : Prop := ∀ kind, (m.visibleIds kind).Nodup

/-- The identifiers of a model are its own, and neither its own ones nor those that an earlier include
brings are declared by an include itself. -/
structure GuardedAt (m : Model) (kind : Identified) : Prop where
  own : (m.ids kind).Nodup
  includes : ∀ other ∈ m.includes, (m.ids kind).Disjoint (other.ids kind)
  pairs : m.includes.Pairwise fun earlier later =>
    (earlier.visibleIds kind).Disjoint (later.ids kind)

/-- Neither the own identifiers of a model nor those that an earlier include brings come in a second
time through the includes of an include. -/
structure ApartAt (m : Model) (kind : Identified) : Prop where
  includes : ∀ other ∈ m.includes, (m.ids kind).Disjoint (other.includedIds kind)
  pairs : m.includes.Pairwise fun earlier later =>
    (earlier.visibleIds kind).Disjoint (later.includedIds kind)

def Guarded (m : Model) : Prop := ∀ part ∈ m.tree, ∀ kind, part.GuardedAt kind

/-- What an include includes is apart from what is visible beside it, everywhere in a tree. -/
def NestedApart (m : Model) : Prop := ∀ part ∈ m.tree, ∀ kind, part.ApartAt kind

variable {m : Model} {kind : Identified} {id : String}

/-- What holds of a model whenever it holds of its includes holds of every model. -/
theorem induct {P : Model → Prop} (h : ∀ m, (∀ other ∈ m.includes, P other) → P m) :
    (m : Model) → P m
  | ⟨nameSpace, types, fragments, entities, relations, includes, extensions⟩ =>
    h _ fun other (hother : other ∈ includes) =>
      have _hlt := List.sizeOf_lt_of_mem hother
      induct h other
termination_by m => sizeOf m
decreasing_by
  simp only [Model.mk.sizeOf_spec]
  omega

lemma visibleIds_eq (m : Model) (kind : Identified) :
    m.visibleIds kind = m.ids kind ++ m.includedIds kind := by
  unfold visibleIds includedIds
  rw [tree_eq, List.flatMap_cons, List.flatMap_assoc]
  rfl

lemma ids_subset_visibleIds : m.ids kind ⊆ m.visibleIds kind := by
  rw [visibleIds_eq]
  exact List.subset_append_left _ _

lemma visibleIds_subset_of_include {other : Model} (h : other ∈ m.includes) :
    other.visibleIds kind ⊆ m.visibleIds kind := by
  intro id hid
  rw [visibleIds_eq]
  exact List.mem_append_right _ (List.mem_flatMap.mpr ⟨other, h, hid⟩)

/-- What is found in a tree is what is visible. -/
lemma isSome_findSome?_iff {α : Type} (parts : Model → List α) (key : α → String)
    (hkind : ∀ part : Model, part.ids kind = (parts part).map key) :
    (m.tree.findSome? fun part => (parts part).find? (key · == id)).isSome ↔
      id ∈ m.visibleIds kind := by
  unfold visibleIds
  rw [List.findSome?_isSome_iff, List.mem_flatMap]
  refine exists_congr fun part => and_congr_right fun _ => ?_
  simp [hkind]

lemma isSome_type?_iff : (m.type? id).isSome ↔ id ∈ m.visibleIds .type :=
  isSome_findSome?_iff (·.types) (·.id) fun _ => rfl

lemma isSome_fragment?_iff : (m.fragment? id).isSome ↔ id ∈ m.visibleIds .sourceFragment :=
  isSome_findSome?_iff (·.fragments) (·.id) fun _ => rfl

lemma isSome_entity?_iff : (m.entity? id).isSome ↔ id ∈ m.visibleIds .entity :=
  isSome_findSome?_iff (·.entities) (·.id) fun _ => rfl

lemma forall_mem_tree {P : Model → Prop} :
    (∀ part ∈ m.tree, P part) ↔ P m ∧ ∀ other ∈ m.includes, ∀ part ∈ other.tree, P part := by
  rw [tree_eq, List.forall_mem_cons]
  simp only [List.mem_flatMap]
  constructor
  · rintro ⟨hm, hall⟩
    exact ⟨hm, fun other hother part hpart => hall part ⟨other, hother, hpart⟩⟩
  · rintro ⟨hm, hall⟩
    exact ⟨hm, fun part ⟨other, hother, hpart⟩ => hall other hother part hpart⟩

/-- Identifiers are unique in a tree when they are at its root and in the tree of every include. -/
lemma nodup_visibleIds_step : (m.visibleIds kind).Nodup ↔
    (m.GuardedAt kind ∧ m.ApartAt kind) ∧ ∀ other ∈ m.includes, (other.visibleIds kind).Nodup := by
  have hsplit (l : List String) (other : Model) : l.Disjoint (other.visibleIds kind) ↔
      l.Disjoint (other.ids kind) ∧ l.Disjoint (other.includedIds kind) := by
    rw [visibleIds_eq, List.disjoint_append_right]
  have hincluded : (m.ids kind).Disjoint (m.includedIds kind) ↔
      ∀ other ∈ m.includes, (m.ids kind).Disjoint (other.visibleIds kind) := by
    simp only [includedIds, List.disjoint_left, List.mem_flatMap, not_exists, not_and]
    exact ⟨fun h other hother id hid => h hid other hother,
      fun h id hid other hother => h other hother hid⟩
  have hpairs : m.includes.Pairwise (Function.onFun List.Disjoint (·.visibleIds kind)) ↔
      m.includes.Pairwise (fun earlier later =>
        (earlier.visibleIds kind).Disjoint (later.ids kind)) ∧
      m.includes.Pairwise fun earlier later =>
        (earlier.visibleIds kind).Disjoint (later.includedIds kind) := by
    rw [← List.pairwise_and_iff]
    exact List.Pairwise.iff fun earlier later => hsplit _ later
  rw [visibleIds_eq, List.nodup_append', hincluded, includedIds, List.nodup_flatMap, hpairs]
  simp only [hsplit]
  constructor
  · rintro ⟨hown, ⟨hothers, hguarded, hapart⟩, hincludes⟩
    exact ⟨⟨⟨hown, fun other h => (hincludes other h).1, hguarded⟩,
      ⟨fun other h => (hincludes other h).2, hapart⟩⟩, hothers⟩
  · rintro ⟨⟨⟨hown, hincludes, hguarded⟩, ⟨hnested, hapart⟩⟩, hothers⟩
    exact ⟨hown, ⟨hothers, hguarded, hapart⟩, fun other h => ⟨hincludes other h, hnested other h⟩⟩

lemma nodup_visibleIds_iff : (m.visibleIds kind).Nodup ↔
    ∀ part ∈ m.tree, part.GuardedAt kind ∧ part.ApartAt kind := by
  induction m using induct with
  | h m ih =>
    rw [nodup_visibleIds_step, forall_mem_tree]
    exact and_congr_right fun _ => forall₂_congr ih

theorem uniqueIds_iff : m.UniqueIds ↔ m.Guarded ∧ m.NestedApart := by
  constructor
  · intro h
    exact ⟨fun part hpart kind => (nodup_visibleIds_iff.mp (h kind) part hpart).1,
      fun part hpart kind => (nodup_visibleIds_iff.mp (h kind) part hpart).2⟩
  · rintro ⟨hguarded, hapart⟩ kind
    exact nodup_visibleIds_iff.mpr fun part hpart =>
      ⟨hguarded part hpart kind, hapart part hpart kind⟩

end Model

end EntityModel
