import EntityModel.Proofs.Levels
import EntityModel.Proofs.Lineage
import EntityModel.Schema
import Mathlib.Data.List.Nodup

/-!
# What validation promises

A registry without problems is `Sound`, and the other way round. A schema is built just when the
flattened model has no base cycle and a sound registry.
-/

namespace EntityModel

namespace Registry

/-- What validation asks of an entity to which the given fragments count as attached. -/
structure SoundEntity (r : Registry) (e : Entity) (attached : List FragmentRef) : Prop where
  fragments : ∀ ref ∈ e.fragments, (r.fragment? ref.fragment).isSome
  anchors : ∀ ref ∈ e.fragments, checkAnchor e.id attached ref = .ok ()
  types : ∀ p ∈ e.properties, r.checkPropertyType e.id p = .ok ()
  bindings : ∀ p ∈ e.properties, checkPropertyFragment e.id attached p = .ok ()
  relations : ∀ relation ∈ e.entityRelations,
    r.isKnown relation.entity = true ∧ r.isKnown relation.sourceEntity = true

structure Sound (r : Registry) : Prop where
  distinct : (r.entities.map (·.id)).Nodup
  bases : ∀ e ∈ r.entities, ∀ base ∈ e.base, r.isKnown base = true
  chains : ∀ e ∈ r.entities, ∃ chain, r.lineage e = .ok chain
  targets : ∀ e ∈ r.entities, ∀ p ∈ e.properties, ∀ type ∈ r.type? p.type.id,
    ∀ target ∈ type.target?, r.isKnown target = true
  entities : ∀ e ∈ r.entities, ∀ attached, r.effectiveFragments e = .ok attached →
    r.SoundEntity e attached
  relations : ∀ relation ∈ r.relations, (r.fragment? relation.sourceFragment).isSome ∧
    ∀ id ∈ relation.entities, r.isKnown id = true

variable {r : Registry} {e : Entity}

lemma repeated_eq_nil_iff {α : Type} {key : α → String} {seen : List String} {l : List α} :
    repeated key seen l = [] ↔ (l.map key).Nodup ∧ ∀ a ∈ l, key a ∉ seen := by
  induction l generalizing seen with
  | nil => simp [repeated]
  | cons a l ih =>
    rw [repeated, List.map_cons, List.nodup_cons]
    by_cases hseen : key a ∈ seen
    · rw [if_pos (by simpa using hseen)]
      simp [hseen]
    · rw [if_neg (by simpa using hseen), ih]
      simp only [List.mem_map, List.mem_cons, not_or, not_exists, not_and, forall_eq_or_imp]
      constructor
      · rintro ⟨hnodup, hnew⟩
        exact ⟨⟨fun b hb => (hnew b hb).1, hnodup⟩, hseen, fun b hb => (hnew b hb).2⟩
      · rintro ⟨⟨hne, hnodup⟩, -, hnew⟩
        exact ⟨hnodup, fun b hb => ⟨hne b hb, hnew b hb⟩⟩

lemma unknownEntity_eq_nil_iff {referrer : Referrer} {id : String} :
    r.unknownEntity referrer id = [] ↔ r.isKnown id = true := by
  unfold unknownEntity
  split <;> simp_all

lemma problemOf_eq_nil_iff {check : Except ModelError Unit} :
    problemOf check = [] ↔ check = .ok () := by
  cases check <;> simp [problemOf]

lemma identifierProblems_eq_nil_iff :
    r.identifierProblems = [] ↔ (r.entities.map (·.id)).Nodup := by
  rw [identifierProblems, List.map_eq_nil_iff, repeated_eq_nil_iff]
  simp

/-- The bases of some entities are in order when each is registered and each chain ends. Of loops the
first one is reported, so that none goes unreported. -/
lemma baseProblems_eq_nil_iff {entities : List Entity} :
    r.baseProblems [] entities = [] ↔ ∀ e ∈ entities,
      (∀ base ∈ e.base, r.isKnown base = true) ∧ ∃ chain, r.lineage e = .ok chain := by
  induction entities with
  | nil => simp [baseProblems]
  | cons e rest ih =>
    have hdangling : e.base.toList.flatMap (r.unknownEntity (.base e.id)) = [] ↔
        ∀ base ∈ e.base, r.isKnown base = true := by
      simp [unknownEntity_eq_nil_iff]
    rw [baseProblems, List.forall_mem_cons, ← ih]
    cases hchain : r.lineage e with
    | ok chain =>
      simp only [List.append_eq_nil_iff, hdangling]
      simp
    | error err =>
      cases err <;> simp

lemma typeProblems_eq_nil_iff : r.typeProblems = [] ↔ ∀ e ∈ r.entities, ∀ p ∈ e.properties,
    ∀ type ∈ r.type? p.type.id, ∀ target ∈ type.target?, r.isKnown target = true := by
  unfold typeProblems
  dsimp only
  rw [List.flatMap_eq_nil_iff]
  constructor
  · intro h e he p hp type htype target htarget
    have hmem : p ∈ r.entities.flatMap (·.properties) := List.mem_flatMap.mpr ⟨e, he, hp⟩
    obtain ⟨q, hq, hsame⟩ : ∃ q ∈ firsts (·.type.id) [] (r.entities.flatMap (·.properties)),
        q.type.id = p.type.id :=
      List.mem_map.mp (mem_map_firsts.mpr ⟨List.mem_map_of_mem hmem, List.not_mem_nil⟩)
    have hnone := h q hq
    rw [hsame, Option.mem_def.mp htype] at hnone
    have hknown := List.flatMap_eq_nil_iff.mp hnone target (Option.mem_toList.mpr htarget)
    exact unknownEntity_eq_nil_iff.mp hknown
  · intro h p hp
    obtain ⟨e, he, hp⟩ := List.mem_flatMap.mp (firsts_sublist.subset hp)
    split
    · next type htype =>
      refine List.flatMap_eq_nil_iff.mpr fun target htarget => unknownEntity_eq_nil_iff.mpr ?_
      exact h e he p hp type htype target (Option.mem_toList.mp htarget)
    · rfl

lemma checkPropertyType_eq_ok_iff {entity : String} {p : Property} :
    r.checkPropertyType entity p = .ok () ↔ ∃ registered, r.type? p.type.id = some registered ∧
      r.isConsistent p.type.kind registered.kind = true := by
  unfold checkPropertyType
  cases r.type? p.type.id with
  | none => simp
  | some registered =>
    dsimp only
    split <;> simp_all

lemma entityProblems_eq_nil_iff {attached : List FragmentRef}
    (hattached : r.effectiveFragments e = .ok attached) :
    r.entityProblems e = [] ↔ r.SoundEntity e attached := by
  have hunregistered : (e.fragments.flatMap fun ref =>
      if (r.fragment? ref.fragment).isNone then
        [ModelError.unknownSourceFragment ref.fragment (.entity e.id)]
      else []) = [] ↔ ∀ ref ∈ e.fragments, (r.fragment? ref.fragment).isSome := by
    rw [List.flatMap_eq_nil_iff]
    refine forall₂_congr fun ref _ => ?_
    cases r.fragment? ref.fragment <;> simp
  unfold entityProblems
  rw [hattached]
  simp only [List.append_eq_nil_iff, hunregistered]
  simp only [List.flatMap_eq_nil_iff, problemOf_eq_nil_iff, List.append_eq_nil_iff,
    List.forall_mem_cons, unknownEntity_eq_nil_iff, List.not_mem_nil, false_imp_iff, implies_true,
    and_true]
  constructor
  · rintro ⟨⟨⟨hfragments, hanchors⟩, hproperties⟩, hrelations⟩
    exact ⟨hfragments, hanchors, fun p hp => (hproperties p hp).1, fun p hp => (hproperties p hp).2,
      hrelations⟩
  · rintro ⟨hfragments, hanchors, htypes, hbindings, hrelations⟩
    exact ⟨⟨⟨hfragments, hanchors⟩, fun p hp => ⟨htypes p hp, hbindings p hp⟩⟩, hrelations⟩

lemma relationProblems_eq_nil_iff {relation : Relation} :
    r.relationProblems relation = [] ↔ (r.fragment? relation.sourceFragment).isSome ∧
      ∀ id ∈ relation.entities, r.isKnown id = true := by
  unfold relationProblems
  dsimp only
  rw [List.append_eq_nil_iff, List.flatMap_eq_nil_iff]
  simp only [unknownEntity_eq_nil_iff]
  refine and_congr_left fun _ => ?_
  cases r.fragment? relation.sourceFragment <;> simp

lemma effectiveFragments_of_lineage {chain : List Entity} (h : r.lineage e = .ok chain) :
    r.effectiveFragments e = .ok (gatherFragments [] chain) := by
  rw [effectiveFragments, h]
  rfl

/-- Validation finds nothing in a registry just when it is sound. -/
theorem problems_eq_nil_iff : r.problems = [] ↔ r.Sound := by
  have hall (hchains : ∀ e ∈ r.entities, ∃ chain, r.lineage e = .ok chain) :
      (r.entities.filter fun e =>
        ((r.entities.filter r.hasLineage).map (·.id)).contains e.id) = r.entities := by
    rw [List.filter_eq_self]
    intro e he
    obtain ⟨chain, hchain⟩ := hchains e he
    simp only [List.contains_iff_mem, List.mem_map, List.mem_filter]
    exact ⟨e, ⟨he, by rw [hasLineage, hchain]⟩, rfl⟩
  unfold problems
  simp only [List.append_eq_nil_iff, identifierProblems_eq_nil_iff, baseProblems_eq_nil_iff,
    typeProblems_eq_nil_iff, List.flatMap_eq_nil_iff (l := r.relations),
    relationProblems_eq_nil_iff]
  constructor
  · rintro ⟨⟨⟨⟨hdistinct, hbases⟩, htargets⟩, hentities⟩, hrelations⟩
    rw [hall fun e he => (hbases e he).2, List.flatMap_eq_nil_iff] at hentities
    exact ⟨hdistinct, fun e he => (hbases e he).1, fun e he => (hbases e he).2, htargets,
      fun e he attached hattached => (entityProblems_eq_nil_iff hattached).mp (hentities e he),
      hrelations⟩
  · intro h
    rw [hall h.chains, List.flatMap_eq_nil_iff]
    refine ⟨⟨⟨⟨h.distinct, fun e he => ⟨h.bases e he, h.chains e he⟩⟩, h.targets⟩, ?_⟩, h.relations⟩
    intro e he
    obtain ⟨chain, hchain⟩ := h.chains e he
    have hattached := effectiveFragments_of_lineage hchain
    exact (entityProblems_eq_nil_iff hattached).mpr (h.entities e he _ hattached)

lemma validate_eq_ok_iff : r.validate = .ok () ↔ r.problems = [] := by
  unfold validate
  cases r.problems <;> simp

namespace Sound

lemma entity?_of_mem (h : r.Sound) (he : e ∈ r.entities) : r.entity? e.id = some e :=
  entity?_of_distinct h.distinct he

lemma mem_lineage {chain : List Entity} {x : Entity} (h : r.Sound) (he : e ∈ r.entities)
    (hchain : r.lineage e = .ok chain) (hx : x ∈ chain) : x ∈ r.entities :=
  (r.mem_of_entity? (lineage_of_mem (h.entity?_of_mem he) hchain hx).1).1

end Sound

end Registry

namespace Model

/-- A schema is built from what a model flattens to, when that has no base cycle and is sound. -/
theorem build_eq_ok_iff {m : Model} {settings : Settings} {s : Schema} :
    m.build settings = .ok s ↔ s = Schema.flatten m settings ∧
      Schema.firstCycle? s.entities = none ∧ s.registry.Sound := by
  rw [← Registry.problems_eq_nil_iff]
  unfold build
  dsimp only
  constructor
  · intro h
    split at h
    · cases h
    · next hcycle =>
      split at h
      · next hproblems =>
        cases h
        exact ⟨rfl, hcycle, hproblems⟩
      · cases h
  · rintro ⟨rfl, hcycle, hproblems⟩
    rw [hcycle, hproblems]

lemma build_of_problems {m : Model} {settings : Settings}
    (hcycle : Schema.firstCycle? (Schema.flatten m settings).entities = none)
    (hproblems : (Schema.flatten m settings).registry.problems = []) :
    m.build settings = .ok (Schema.flatten m settings) :=
  build_eq_ok_iff.mpr ⟨rfl, hcycle, Registry.problems_eq_nil_iff.mp hproblems⟩

end Model

end EntityModel
