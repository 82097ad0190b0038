import EntityModel.CommandLine
import EntityModel.Proofs.Cycles
import EntityModel.Proofs.Freezing
import EntityModel.Proofs.Soundness

/-!
# One verdict on a model

A model can be asked for its problems, with look-ups through its includes, and it can be frozen,
which looks for base cycles in the flat list first and then for the problems of the schema. With
unique identifiers both come to the same verdict.
-/

namespace EntityModel

namespace Registry

variable {r r' : Registry}

lemma validate_eq_error_iff {errors : List ModelError} :
    r.validate = .error errors ↔ r.problems = errors ∧ errors ≠ [] := by
  unfold validate
  cases r.problems with
  | nil =>
    simp only [reduceCtorEq, false_iff, not_and, not_not]
    exact Eq.symm
  | cons first rest =>
    simp only [Except.error.injEq, iff_self_and]
    rintro rfl
    exact List.cons_ne_nil first rest

lemma not_revisits_of_validate (h : r.validate = .ok ()) {e : Entity} (he : e ∈ r.entities) :
    ¬ r.Revisits e :=
  lineage_eq_ok_iff.mp ((problems_eq_nil_iff.mp (validate_eq_ok_iff.mp h)).chains e he)

end Registry

namespace Model

variable {m : Model} {settings : Settings}

/-- A model can be frozen when what it flattens to is sound, which leaves no room for a cycle. -/
lemma exists_build_iff :
    (∃ s, m.build settings = .ok s) ↔ (Schema.flatten m settings).registry.Sound := by
  constructor
  · rintro ⟨s, hs⟩
    obtain ⟨rfl, -, hsound⟩ := build_eq_ok_iff.mp hs
    exact hsound
  · intro hsound
    have hends : ∀ e ∈ (Schema.flatten m settings).entities,
        ¬ (Schema.flatten m settings).registry.Revisits e :=
      fun e he => Registry.lineage_eq_ok_iff.mp (hsound.chains e he)
    have hcycle := (Schema.firstCycle?_eq_none_iff hsound.distinct).mpr hends
    exact ⟨_, build_eq_ok_iff.mpr ⟨rfl, hcycle, hsound⟩⟩

lemma not_revisits_of_sound (hsound : (Schema.flatten m settings).registry.Sound) {e : Entity}
    (he : e ∈ m.allEntities) : ¬ m.registry.Revisits e := by
  have hentity : m.registry.entity? = (Schema.flatten m settings).registry.entity? :=
    (entity?_flatten hsound.distinct settings).symm
  rw [Registry.revisits_congr hentity]
  exact Registry.lineage_eq_ok_iff.mp (hsound.chains e he)

/-- The flat list shows a cycle when some base chain loops, and no other time. -/
lemma UniqueIds.firstCycle?_eq_none_iff (h : m.UniqueIds) :
    Schema.firstCycle? (Schema.flatten m settings).entities = none ↔
      ∀ e ∈ m.allEntities, ¬ m.registry.Revisits e := by
  have hdistinct : ((Schema.flatten m settings).entities.map (·.id)).Nodup :=
    h.nodup_map .entity (·.entities) (·.id) fun _ => rfl
  rw [Schema.firstCycle?_eq_none_iff hdistinct,
    Registry.revisits_congr (h.sameDeclarations settings).entity?]
  rfl

lemma UniqueIds.build_of_loop (h : m.UniqueIds) {e : Entity} (he : e ∈ m.allEntities)
    (hloop : m.registry.Revisits e) :
    ∃ path, m.build settings = .error (.cyclicInheritance path) := by
  cases hcycle : Schema.firstCycle? (Schema.flatten m settings).entities with
  | none => exact absurd hloop (h.firstCycle?_eq_none_iff.mp hcycle e he)
  | some path =>
    refine ⟨path, ?_⟩
    unfold build
    dsimp only
    rw [hcycle]

lemma UniqueIds.build_of_problem (h : m.UniqueIds)
    (hends : ∀ e ∈ m.allEntities, ¬ m.registry.Revisits e) {first : ModelError}
    {rest : List ModelError} (hproblems : m.registry.problems = first :: rest) :
    m.build settings = .error first := by
  unfold build
  dsimp only
  rw [h.firstCycle?_eq_none_iff.mpr hends, (h.sameDeclarations settings).problems, hproblems]

lemma UniqueIds.build_of_validate (h : m.UniqueIds) (hvalid : m.registry.validate = .ok ()) :
    m.build settings = .ok (Schema.flatten m settings) := by
  have hends : ∀ e ∈ m.allEntities, ¬ m.registry.Revisits e :=
    fun e he => Registry.not_revisits_of_validate hvalid he
  refine build_of_problems (h.firstCycle?_eq_none_iff.mpr hends) ?_
  rw [(h.sameDeclarations settings).problems, Registry.validate_eq_ok_iff.mp hvalid]

/-- A model with unique identifiers can be frozen just when validation finds nothing. A loop of
bases is what freezing reports before all else, and without one it reports what validation reports
first. The command that validates succeeds once validation has. -/
theorem UniqueIds.build_agrees_with_validate (hunique : m.UniqueIds) (settings : Settings) :
    ((∃ s, m.build settings = .ok s) ↔ m.registry.validate = .ok ()) ∧
    ((∃ e ∈ m.allEntities, m.registry.Revisits e) →
      ∃ path, m.build settings = .error (.cyclicInheritance path)) ∧
    ((∀ e ∈ m.allEntities, ¬ m.registry.Revisits e) →
      ∀ errors, m.registry.validate = .error errors →
        ∃ first, errors.head? = some first ∧ m.build settings = .error first) ∧
    (m.registry.validate = .ok () → ∀ file,
      (CommandLine.validate file m settings).exitCode = 0 ∧
      ∀ err, CommandLine.validate file m settings ≠ CommandLine.invalidModel err) := by
  refine ⟨⟨?_, fun hvalid => ⟨_, hunique.build_of_validate hvalid⟩⟩, ?_,
    fun hends errors herrors => ?_, fun hvalid file => ?_⟩
  · rintro ⟨s, hs⟩
    obtain ⟨rfl, -, hsound⟩ := build_eq_ok_iff.mp hs
    rw [Registry.validate_eq_ok_iff, ← (hunique.sameDeclarations settings).problems]
    exact Registry.problems_eq_nil_iff.mpr hsound
  · rintro ⟨e, he, hloop⟩
    exact hunique.build_of_loop he hloop
  · obtain ⟨hproblems, hne⟩ := Registry.validate_eq_error_iff.mp herrors
    cases errors with
    | nil => exact absurd rfl hne
    | cons first rest =>
      exact ⟨first, rfl, hunique.build_of_problem hends hproblems⟩
  · have hsuccess : (CommandLine.validate file m settings).exitCode = 0 := by
      unfold CommandLine.validate
      rw [Registry.validate_eq_ok_iff.mp hvalid, hunique.build_of_validate hvalid]
      rfl
    refine ⟨hsuccess, fun err hinvalid => ?_⟩
    have hfailure : (CommandLine.invalidModel err).exitCode = 1 := rfl
    rw [hinvalid, hfailure] at hsuccess
    exact absurd hsuccess (by decide)

namespace BaseElsewhere

/-- An entity with a base, beside an included model that declares another entity. -/
def model (base : String) (ofBase : Option String) : Model :=
  { ofNameSpace none with
    entities := [{ Entity.ofName "Derived" "Derived" with base := some base }]
    includes := [{ ofNameSpace none with
      entities := [{ Entity.ofName "Base" "Base" with base := ofBase }] }] }

lemma uniqueIds_model (base : String) (ofBase : Option String) : (model base ofBase).UniqueIds := by
  intro kind
  cases kind with
  | type => exact List.nodup_nil
  | sourceFragment => exact List.nodup_nil
  | entity =>
    change ["Derived", "Base"].Nodup
    decide

/-- One model that is valid, one in which a base is not known, and one with a loop that runs through
the include. -/
theorem build_agrees_with_validate_baseElsewhere :
    ((model "Base" none).registry.validate = .ok () ∧
      (∃ s, (model "Base" none).build .default = .ok s) ∧
      (CommandLine.validate "m" (model "Base" none) .default).exitCode = 0) ∧
    (model "Gone" none).build .default = .error (.unknownEntity "Gone" (.base "Derived")) ∧
    ∃ path, (model "Base" (some "Derived")).build .default = .error (.cyclicInheritance path) := by
  obtain ⟨hvalidIff, -, -, hcommand⟩ :=
    (uniqueIds_model "Base" none).build_agrees_with_validate .default
  obtain ⟨-, -, hfirst, -⟩ := (uniqueIds_model "Gone" none).build_agrees_with_validate .default
  obtain ⟨-, hloop, -, -⟩ :=
    (uniqueIds_model "Base" (some "Derived")).build_agrees_with_validate .default
  have hvalid : (model "Base" none).registry.validate = .ok () := by decide +kernel
  refine ⟨⟨hvalid, hvalidIff.mpr hvalid, (hcommand hvalid "m").1⟩, ?_, ?_⟩
  · have hroots : ∀ e ∈ (model "Gone" none).allEntities,
        (model "Gone" none).registry.base? e = none := by decide +kernel
    have hproblem : (model "Gone" none).registry.validate =
        .error [.unknownEntity "Gone" (.base "Derived")] := by decide +kernel
    have hends : ∀ e ∈ (model "Gone" none).allEntities,
        ¬ (model "Gone" none).registry.Revisits e := fun e he =>
      Registry.not_revisits_of_lineage (Registry.chainFrom_root (hroots e he))
    obtain ⟨first, hhead, hbuild⟩ := hfirst hends _ hproblem
    cases hhead
    exact hbuild
  · exact hloop ⟨_, List.mem_cons_self, 0, 2, _, _, by decide, rfl, rfl, rfl⟩

end BaseElsewhere

end Model

end EntityModel
