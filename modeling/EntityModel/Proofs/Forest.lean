import EntityModel.Proofs.Loops
import EntityModel.Proofs.Soundness
import EntityModel.View
import Mathlib.Order.Defs.Unbundled

/-!
# The forest of inheritance

A schema is asked for the entities derived from another one, for the root of an entity, and whether one
entity may stand for another. The first is answered downwards, from the declared bases, and the others by
the base chain. All of them see one forest: what is reached downwards from an entity is what has that
entity on its chain, and a chain has one end.
-/

namespace EntityModel

namespace Registry

variable {r : Registry} {e b x root : Entity} {chain : List Entity}

lemma mem_lineage_iff (h : r.lineage e = .ok chain) :
    x ∈ chain ↔ Relation.ReflTransGen r.HasBase e x := by
  have hsteps : Relation.ReflTransGen r.HasBase e x ↔ ∃ steps, r.ancestor? e steps = some x :=
    reaches_iff_iterate
  rw [hsteps, List.mem_iff_getElem?]
  exact exists_congr fun steps => by rw [ancestor?_of_lineage h]

/-- Two entities without base are not both reached from one entity. -/
lemma root_unique (hx : Relation.ReflTransGen r.HasBase e x) (hxbase : r.base? x = none)
    (hroot : Relation.ReflTransGen r.HasBase e root) (hrootbase : r.base? root = none) : x = root := by
  rcases hx.total_of_right_unique rightUnique_hasBase hroot with h | h
  · rcases h.cases_head with rfl | ⟨b, hb, -⟩
    · rfl
    · cases hxbase.symm.trans hb
  · rcases h.cases_head with rfl | ⟨b, hb, -⟩
    · rfl
    · cases hrootbase.symm.trans hb

/-- Entities that are reached from each other are one, or a chain would come back. -/
lemma reaches_antisymm (h : r.lineage e = .ok chain) (hx : Relation.ReflTransGen r.HasBase e x)
    (he : Relation.ReflTransGen r.HasBase x e) : e = x := by
  rcases hx.cases_head with rfl | ⟨b, hb, hbx⟩
  · rfl
  · have hloop : r.OnLoop e := .head' hb (hbx.trans he)
    exact absurd hloop.revisits (not_revisits_of_lineage h)

lemma superBase?_of_base?_none (hbase : r.base? e = none) : r.superBase? e = .ok none := by
  unfold superBase?
  rw [lineage_root hbase]
  rfl

lemma superBase?_of_base? (hbase : r.base? e = some b) (h : r.lineage e = .ok chain) :
    ∃ root, r.superBase? e = .ok (some root) ∧ root ∈ chain ∧ r.base? root = none := by
  obtain ⟨rest, hrest, rfl⟩ := lineage_base h hbase
  obtain ⟨tail, rfl, -⟩ := lineage_rest hrest
  obtain ⟨root, hroot⟩ : ∃ root, (e :: b :: tail).getLast? = some root :=
    ⟨_, List.getLast?_eq_some_getLast (List.cons_ne_nil _ _)⟩
  refine ⟨root, ?_, List.mem_of_getLast? hroot, base?_of_getLast? h hroot⟩
  have hlong : 1 < (e :: b :: tail).length := by simp
  unfold superBase?
  rw [h, ← hroot]
  exact congrArg Except.ok (if_pos hlong)

namespace Sound

/-- A sound registry knows what is declared as a base. -/
lemma hasBase_iff (h : r.Sound) (hb : b ∈ r.entities) :
    r.HasBase e b ↔ e.base = some b.id := by
  refine ⟨fun hbase => (base?_eq_some hbase).1, fun hbase => ?_⟩
  unfold HasBase base?
  rw [hbase, Option.bind_some, h.entity?_of_mem hb]

lemma base?_eq_none_iff (h : r.Sound) (he : e ∈ r.entities) : r.base? e = none ↔ e.base = none := by
  unfold base?
  cases hbase : e.base with
  | none => simp
  | some id =>
    have hknown : r.isKnown id = true := h.bases e he id hbase
    rw [Option.bind_some]
    refine ⟨fun hnone => ?_, nofun⟩
    rw [isKnown, hnone] at hknown
    cases hknown

end Sound

end Registry

namespace Schema

/-- An entity as the schema shows it. -/
def viewOf (s : Schema) (e : Entity) : EntityView := ⟨s.registry, e⟩

/-- Where the first entity is asked for, the second one may stand. -/
def Assignable (s : Schema) (a b : Entity) : Prop :=
  (s.viewOf a).isAssignableFrom (s.viewOf b) = .ok true

variable {s : Schema} {a b : Entity} {id : String} {chain : List Entity}

lemma isAssignableFrom_of_lineage (h : s.registry.lineage b = .ok chain) :
    (s.viewOf a).isAssignableFrom (s.viewOf b) = .ok (chain.any (·.id == a.id)) := by
  unfold EntityView.isAssignableFrom viewOf
  rw [h]
  rfl

section

variable (h : s.registry.Sound)

include h

lemma assignable_iff (ha : a ∈ s.entities) (hb : b ∈ s.entities) :
    s.Assignable a b ↔ Relation.ReflTransGen s.registry.HasBase b a := by
  obtain ⟨chain, hchain⟩ := h.chains b hb
  rw [Assignable, isAssignableFrom_of_lineage hchain, Except.ok.injEq, List.any_eq_true,
    ← Registry.mem_lineage_iff hchain]
  constructor
  · rintro ⟨x, hx, hid⟩
    have hx' : x ∈ s.entities := h.mem_lineage hb hchain hx
    rwa [← List.inj_on_of_nodup_map h.distinct hx' ha (beq_iff_eq.mp hid)]
  · exact fun hmem => ⟨a, hmem, beq_self_eq_true a.id⟩

lemma derivedEntities_eq (id : String) :
    s.derivedEntities id = s.entities.filter (·.base == some id) := by
  have hfound : ∀ e ∈ s.entities.filter (·.base == some id), s.entity? e.id = some e :=
    fun e he => h.entity?_of_mem (List.mem_of_mem_filter he)
  unfold derivedEntities
  split_ifs with hnone
  · rw [eq_comm, List.filter_eq_nil_iff]
    intro e he hbase
    have hknown : (s.entity? id).isSome = true := h.bases e he id (beq_iff_eq.mp hbase)
    rw [Option.isNone_iff_eq_none.mp hnone] at hknown
    cases hknown
  · rw [List.filterMap_congr hfound, List.filterMap_some]

lemma mem_derivedEntities_iff : b ∈ s.derivedEntities id ↔ b ∈ s.entities ∧ b.base = some id := by
  rw [derivedEntities_eq h, List.mem_filter, beq_iff_eq]

lemma climbs_of_reaches_derived (ha : a ∈ s.entities)
    (hdown : Relation.ReflTransGen (fun x y => y ∈ s.derivedEntities x.id) a b) :
    b ∈ s.entities ∧ Relation.ReflTransGen s.registry.HasBase b a := by
  induction hdown with
  | refl => exact ⟨ha, .refl⟩
  | tail _ hxy ih =>
    obtain ⟨hx, hup⟩ := ih
    obtain ⟨hy, hbase⟩ := (mem_derivedEntities_iff h).mp hxy
    exact ⟨hy, .head ((h.hasBase_iff hx).mpr hbase) hup⟩

/-- What is reached downwards from an entity has that entity among its ancestors. -/
lemma reaches_derived_iff (ha : a ∈ s.entities) (hb : b ∈ s.entities) :
    Relation.ReflTransGen (fun x y => y ∈ s.derivedEntities x.id) a b ↔
      Relation.ReflTransGen s.registry.HasBase b a := by
  refine ⟨fun hdown => (climbs_of_reaches_derived h ha hdown).2, fun hup => ?_⟩
  induction hup using Relation.ReflTransGen.head_induction_on with
  | refl => exact .refl
  | head hbase _ ih =>
    have hlink := (Registry.base?_eq_some hbase).1
    exact (ih (Registry.mem_of_base? hbase)).tail ((mem_derivedEntities_iff h).mpr ⟨hb, hlink⟩)

/-- Where one entity may stand for another is a partial order. -/
theorem isPartialOrder_assignable :
    IsPartialOrder {e // e ∈ s.entities} (fun a b => s.Assignable a b) where
  refl a := (assignable_iff h a.2 a.2).mpr .refl
  trans a b c hab hbc := by
    rw [assignable_iff h a.2 b.2] at hab
    rw [assignable_iff h b.2 c.2] at hbc
    exact (assignable_iff h a.2 c.2).mpr (hbc.trans hab)
  antisymm a b hab hba := by
    rw [assignable_iff h a.2 b.2] at hab
    rw [assignable_iff h b.2 a.2] at hba
    obtain ⟨chain, hchain⟩ := h.chains a a.2
    exact Subtype.ext (Registry.reaches_antisymm hchain hba hab)

/-- The root of an entity is the only one without base for which the entity may stand. -/
theorem superBase?_viewOf (hb : b ∈ s.entities) :
    ∃ root, (s.viewOf b).superBase? = .ok (root.map s.viewOf) ∧ (root = none ↔ b.base = none) ∧
      ∀ x ∈ root, x ∈ s.entities ∧ x.base = none ∧ s.Assignable x b ∧
        ∀ a ∈ s.entities, a.base = none → s.Assignable a b → a = x := by
  obtain ⟨chain, hchain⟩ := h.chains b hb
  have hview (root : Option Entity) (hroot : s.registry.superBase? b = .ok root) :
      (s.viewOf b).superBase? = .ok (root.map s.viewOf) := by
    unfold EntityView.superBase? viewOf
    rw [hroot]
    rfl
  cases hbase : s.registry.base? b with
  | none =>
    have hnone := (h.base?_eq_none_iff hb).mp hbase
    refine ⟨none, hview none (Registry.superBase?_of_base?_none hbase), by simp [hnone], ?_⟩
    exact fun x hx => absurd hx (Option.not_mem_none x)
  | some c =>
    obtain ⟨root, hroot, hmem, hend⟩ := Registry.superBase?_of_base? hbase hchain
    have hrootmem := h.mem_lineage hb hchain hmem
    have hup := (Registry.mem_lineage_iff hchain).mp hmem
    refine ⟨some root, hview _ hroot, ?_, ?_⟩
    · have hsome := (Registry.base?_eq_some hbase).1
      simp [hsome]
    · intro x hx
      obtain rfl := Option.mem_some_iff.mp hx
      refine ⟨hrootmem, (h.base?_eq_none_iff hrootmem).mp hend, (assignable_iff h hrootmem hb).mpr hup,
        fun a ha hnone hab => ?_⟩
      have haup := (assignable_iff h ha hb).mp hab
      exact Registry.root_unique haup ((h.base?_eq_none_iff ha).mpr hnone) hup hend

end

/-- The questions about inheritance that a built schema is asked see one forest. -/
theorem inheritance_is_forest {m : Model} {settings : Settings} (hbuild : m.build settings = .ok s) :
    (∀ a ∈ s.entities, ∀ b ∈ s.entities, ∃ answer,
      (s.viewOf a).isAssignableFrom (s.viewOf b) = .ok answer) ∧
    IsPartialOrder {e // e ∈ s.entities} (fun a b => s.Assignable a b) ∧
    (∀ a ∈ s.entities, ∀ b ∈ s.entities, s.Assignable a b ↔
      Relation.ReflTransGen (fun x y => y ∈ s.derivedEntities x.id) a b) ∧
    (∀ id, s.derivedEntities id = s.entities.filter (·.base == some id) ∧
      (s.derivedEntities id).Nodup) ∧
    ∀ b ∈ s.entities, ∃ root, (s.viewOf b).superBase? = .ok (root.map s.viewOf) ∧
      (root = none ↔ b.base = none) ∧
      ∀ x ∈ root, x ∈ s.entities ∧ x.base = none ∧ s.Assignable x b ∧
        ∀ a ∈ s.entities, a.base = none → s.Assignable a b → a = x := by
  obtain ⟨-, -, h⟩ := Model.build_eq_ok_iff.mp hbuild
  refine ⟨fun a _ b hb => ?_, isPartialOrder_assignable h, fun a ha b hb => ?_, fun id => ?_,
    fun b hb => superBase?_viewOf h hb⟩
  · obtain ⟨chain, hchain⟩ := h.chains b hb
    exact ⟨_, isAssignableFrom_of_lineage hchain⟩
  · rw [assignable_iff h ha hb, reaches_derived_iff h ha hb]
  · refine ⟨derivedEntities_eq h id, ?_⟩
    rw [derivedEntities_eq h]
    exact (List.Nodup.of_map _ h.distinct).filter _

end Schema

namespace Model.TwoTrees

def root : Entity := Entity.ofName "Root" "Root"

def middle : Entity := { Entity.ofName "Middle" "Middle" with base := some "Root" }

def leaf : Entity := { Entity.ofName "Leaf" "Leaf" with base := some "Middle" }

def side : Entity := { Entity.ofName "Side" "Side" with base := some "Root" }

/-- A tree whose root is declared by an included model, and an entity that stands alone. -/
def model : Model :=
  { ofNameSpace none with
    entities := [leaf, middle, side, Entity.ofName "Lone" "Lone"]
    includes := [{ ofNameSpace none with entities := [root] }] }

def schema : Schema := Schema.flatten model .default

lemma build_model : model.build .default = .ok schema :=
  build_of_problems (by decide +kernel) (by decide +kernel)

lemma schema_entities : schema.entities = [leaf, middle, side, Entity.ofName "Lone" "Lone", root] := rfl

theorem inheritance_is_forest_twoTrees :
    model.build .default = .ok schema ∧ schema.derivedEntities "Root" = [middle, side] ∧
      (schema.viewOf leaf).superBase? = .ok (some (schema.viewOf root)) := by
  obtain ⟨-, -, hdown, hderived, hroots⟩ := Schema.inheritance_is_forest build_model
  have hleaf : leaf ∈ schema.entities := by simp [schema_entities]
  have hmiddle : middle ∈ schema.entities := by simp [schema_entities]
  have hroot : root ∈ schema.entities := by simp [schema_entities]
  have hsteps : schema.derivedEntities "Root" = [middle, side] ∧
      schema.derivedEntities "Middle" = [leaf] := by
    rw [(hderived _).1, (hderived _).1, schema_entities]
    exact ⟨rfl, rfl⟩
  refine ⟨build_model, hsteps.1, ?_⟩
  have hreached : schema.Assignable root leaf := by
    refine (hdown root hroot leaf hleaf).mpr (.head (b := middle) ?_ (.single ?_))
    · change middle ∈ schema.derivedEntities "Root"
      simp [hsteps.1]
    · change leaf ∈ schema.derivedEntities "Middle"
      simp [hsteps.2]
  obtain ⟨found, hfound, hnone, honly⟩ := hroots leaf hleaf
  cases found with
  | none => exact absurd (hnone.mp rfl) (Option.some_ne_none _)
  | some x =>
    obtain ⟨-, -, -, hunique⟩ := honly x rfl
    rw [hunique root hroot rfl hreached]
    exact hfound

end Model.TwoTrees

end EntityModel
