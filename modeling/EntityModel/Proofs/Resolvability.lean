import EntityModel.Proofs.Collision
import EntityModel.Proofs.Memoization
import EntityModel.Proofs.Representation

/-!
# Which schemas resolve

A schema that is built from a reachable model completes all its entities, unless aliases meet on the
base chain of one. Neither the checks of changes nor validation look for that.
-/

namespace EntityModel.Schema

open Handover (collisionAlong)

variable {s : Schema}

lemma answer_along (hsound : s.registry.Sound)
    (hdistinct : ∀ x ∈ s.entities, (x.properties.map (·.aliasName)).Nodup) {e : Entity}
    (he : e ∈ s.entities) : ∃ chain, s.registry.lineage e = .ok chain ∧
      ((∃ view, s.answer e.id = .ok view) ↔ collisionAlong chain = none) ∧
      ∀ d a, collisionAlong chain = some (d, a) → s.answer e.id = .error (.duplicateAlias d a) := by
  obtain ⟨chain, hchain⟩ := hsound.chains e he
  have halong := hsound.complete_along hdistinct he hchain
  rw [answer_eq]
  refine ⟨chain, hchain, ?_, fun d a hclash => ?_⟩
  · cases hclash : collisionAlong chain with
    | none =>
      rw [hclash] at halong
      obtain ⟨view, hview, -⟩ := halong
      exact ⟨fun _ => rfl, fun _ => ⟨view, hview⟩⟩
    | some clash =>
      rw [hclash] at halong
      dsimp only at halong
      rw [halong]
      exact ⟨fun ⟨_, h⟩ => (nomatch h), fun h => (nomatch h)⟩
  · rw [hclash] at halong
    exact halong

/-- What a schema that has been built answers. An entity can be completed just when no aliases meet
on its chain, and else the first that meet are reported; all active entities can be completed
together just when each can. -/
theorem build_resolves_iff {m : Model} {settings : Settings} (hm : m.Reachable)
    (hbuild : m.build settings = .ok s) :
    (∀ e ∈ s.entities, ∃ chain, s.registry.lineage e = .ok chain ∧
      ((∃ view, s.answer e.id = .ok view) ↔ collisionAlong chain = none) ∧
      ∀ d a, collisionAlong chain = some (d, a) →
        s.answer e.id = .error (.duplicateAlias d a)) ∧
    ((∃ views, ((s.completeEntities).run.run .empty).1 = .ok views) ↔
      ∀ e ∈ s.registry.activeEntities, ∃ chain, s.registry.lineage e = .ok chain ∧
        collisionAlong chain = none) := by
  obtain ⟨rfl, -, hsound⟩ := Model.build_eq_ok_iff.mp hbuild
  have hone {e : Entity} (he : e ∈ (flatten m settings).entities) :=
    answer_along hsound hm.distinctAliases he
  refine ⟨fun e he => hone he, ?_⟩
  rw [completeEntities_eq, mapM_succeeds_iff]
  refine forall₂_congr fun e he => ?_
  obtain ⟨chain, hchain, hiff, -⟩ := hone (List.mem_of_mem_filter he)
  rw [answer_eq] at hiff
  rw [hiff, hchain]
  simp

end EntityModel.Schema

namespace EntityModel.Model

/-- The declarations of `withClash`, made one by one. -/
def madeWithClash : Model :=
  ofChanges (withClash.types.map .addType ++ withClash.entities.map .addEntity)

lemma madeWithClash_build :
    madeWithClash.build .default = .ok (Schema.flatten madeWithClash .default) :=
  build_of_problems (by decide +kernel) (by decide +kernel)

theorem build_resolves_iff_madeWithClash :
    madeWithClash.build .default = .ok (Schema.flatten madeWithClash .default) ∧
      (∀ e ∈ (Schema.flatten madeWithClash .default).entities, ∃ chain,
        (Schema.flatten madeWithClash .default).registry.lineage e = .ok chain ∧
        ((∃ view, (Schema.flatten madeWithClash .default).answer e.id = .ok view) ↔
          Handover.collisionAlong chain = none)) ∧
      ¬ ∃ views,
        (((Schema.flatten madeWithClash .default).completeEntities).run.run .empty).1 = .ok views := by
  obtain ⟨hentities, hall⟩ :=
    Schema.build_resolves_iff (reachable_ofChanges _) madeWithClash_build
  refine ⟨madeWithClash_build, fun e he => ?_, fun hviews => ?_⟩
  · obtain ⟨chain, hchain, hiff, -⟩ := hentities e he
    exact ⟨chain, hchain, hiff⟩
  · have hclash : ∃ e ∈ (Schema.flatten madeWithClash .default).registry.activeEntities,
        ((Schema.flatten madeWithClash .default).registry.lineage e).toOption.bind
          Handover.collisionAlong = some ("Clash", "k") := by
      decide +kernel
    obtain ⟨e, he, hclash⟩ := hclash
    obtain ⟨chain, hchain, hnone⟩ := hall.mp hviews e he
    rw [hchain] at hclash
    exact absurd (hnone.symm.trans hclash) (by decide)

/-- A schema may be built although one of its entities cannot be completed. -/
theorem build_not_resolves :
    ¬ ∀ (m : Model) (settings : Settings) (s : Schema), m.Reachable → m.build settings = .ok s →
      ∀ e ∈ s.entities, ∃ view, s.answer e.id = .ok view := by
  intro h
  have hclash : ∃ e ∈ (Schema.flatten madeWithClash .default).entities,
      ((Schema.flatten madeWithClash .default).registry.complete e.id).toOption.isSome = false := by
    decide +kernel
  obtain ⟨e, he, hfails⟩ := hclash
  obtain ⟨view, hview⟩ := h _ _ _ (reachable_ofChanges _) madeWithClash_build e he
  rw [Schema.answer_eq] at hview
  rw [hview] at hfails
  cases hfails

end EntityModel.Model
