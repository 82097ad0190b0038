import EntityModel.Model
import EntityModel.Proofs.Ancestry
import EntityModel.Proofs.Resolution

/-!
# What a completed entity takes from its chain

Apart from its properties and fragments, a complete view is read off the base chain level by level. The
switches are handed all the way down from the top, names to suppress are gathered on the way up, and of
the descriptions the nearest counts that is not empty. All else is declared by the entity itself.
-/

namespace EntityModel

/-- The first description along a chain that is not empty. Where there is none, the description is
empty if some level declares one, and absent otherwise. -/
def describedAlong (chain : List Entity) : Option String :=
  let descriptions := chain.filterMap (·.description)
  (descriptions.find? (· ≠ "")).or (if descriptions.isEmpty then none else some "")

variable {e : Entity} {rest : List Entity}

/-- One level more is merged with the description from above. -/
lemma describedAlong_cons :
    describedAlong (e :: rest) = mergeDescriptions (describedAlong rest) e.description := by
  unfold describedAlong mergeDescriptions
  rw [List.filterMap_cons]
  cases e.description with
  | none => simp
  | some text =>
    by_cases hempty : text = ""
    · -- from above comes a description that is not empty, or at best an empty one
      subst hempty
      simp only [List.find?_cons]
      cases (rest.filterMap (·.description)).isEmpty <;> simp
    · simp [hempty]

lemma describedAlong_singleton : describedAlong [e] = e.description := by
  rw [describedAlong_cons, mergeDescriptions]
  split <;> rfl

namespace Registry

variable {r : Registry} {view : Entity} {id : String}

/-- What a complete view takes from the base chain of its entity, however long that is: the switches
of the topmost ancestor, the names to suppress of all levels, the nearest first, and a description. Its
properties and fragments apart, the rest is as the entity declares it. -/
theorem inherited_scalars (hfound : r.entity? id = some e) (hview : r.complete id = .ok view) :
    ∃ chain top, r.lineage e = .ok chain ∧ (∀ steps, chain[steps]? = r.ancestor? e steps) ∧
      chain.getLast? = some top ∧
      view = { e with
        base := none
        description := describedAlong chain
        suppressed := chain.flatMap (·.suppressed)
        behaviour := top.behaviour
        cacheCheckRequired := top.cacheCheckRequired
        makeInterface := top.makeInterface
        useGenerics := top.useGenerics
        properties := view.properties
        fragments := view.fragments } := by
  obtain ⟨e', chain, hfound', hchain, -⟩ := complete_eq_ok hview
  cases hfound.symm.trans hfound'
  refine ⟨chain, ?_⟩
  induction chain generalizing id e view with
  | nil => cases mem_lineage_self hchain
  | cons x rest ih =>
    have hsteps (steps : Nat) : (x :: rest)[steps]? = r.ancestor? e steps :=
      (ancestor?_of_lineage hchain steps).symm
    rcases lineage_cases hchain with ⟨hbase, hcons⟩ | ⟨b, rest', hbase, hrest, hcons⟩
    · cases hcons
      rw [complete_root hfound hbase] at hview
      refine ⟨x, hchain, hsteps, rfl, ?_⟩
      rw [describedAlong_singleton, List.flatMap_singleton]
      exact r.merge_none_scalars hview
    · cases hcons
      rw [complete_base hfound hchain hbase] at hview
      obtain ⟨old, hold, hmerge⟩ := bind_eq_ok_iff.mp hview
      have hentity := (base?_eq_some hbase).2
      obtain ⟨top, -, -, htop, hscalars⟩ := ih hentity hold hentity hrest
      -- what comes from the base is what the base takes from the rest of the chain
      have hview := r.merge_some_scalars hmerge
      rw [hscalars] at hview
      refine ⟨top, hchain, hsteps, by rw [List.getLast?_cons, htop, Option.getD_some], ?_⟩
      rw [describedAlong_cons, List.flatMap_cons]
      exact hview

end Registry

namespace Model.FourLevels

def clerk : Entity :=
  { Entity.ofName "Clerk" "Clerk" with
    description := some ""
    base := some "Employee"
    familyName := some "Staff"
    suppressed := ["legacy", "badge"]
    inheritsBaseTables := false
    useGenerics := true
    behaviour := .forcePartial }

/-- Each level switches something else on, and the nearest descriptions are empty or absent. -/
def registry : Registry :=
  Model.registry
    { ofNameSpace none with
      entities := [clerk,
        { Entity.ofName "Employee" "Employee" with
          base := some "Person"
          cacheCheckRequired := true
          suppressed := ["name"] },
        { Entity.ofName "Person" "Person" with
          description := some "Anyone with a name"
          base := some "Party"
          behaviour := .partialObjects },
        { Entity.ofName "Party" "Party" with
          description := some "Anyone we deal with"
          suppressed := ["legacy"]
          makeInterface := true
          behaviour := .abstract }] }

theorem inherited_scalars_clerk : ∃ view, registry.complete "Clerk" = .ok view ∧
    view = { clerk with
      base := none
      description := some "Anyone with a name"
      suppressed := ["legacy", "badge", "name", "legacy"]
      behaviour := .abstract
      cacheCheckRequired := false
      makeInterface := true
      useGenerics := false
      properties := view.properties
      fragments := view.fragments } := by
  obtain ⟨view, hview⟩ : ∃ view, registry.complete "Clerk" = .ok view :=
    exists_eq_ok (by decide +kernel)
  have hfound : registry.entity? "Clerk" = some clerk := rfl
  have htexts : (registry.lineage clerk).toOption.map (fun chain =>
      (describedAlong chain, chain.flatMap (·.suppressed))) =
        some (some "Anyone with a name", ["legacy", "badge", "name", "legacy"]) := by
    decide +kernel
  have hswitches : (registry.lineage clerk).toOption.bind (fun chain =>
      chain.getLast?.map fun top =>
        (top.behaviour, top.cacheCheckRequired, top.makeInterface, top.useGenerics)) =
          some (.abstract, false, true, false) := by decide +kernel
  obtain ⟨chain, top, hchain, -, htop, hscalars⟩ := Registry.inherited_scalars hfound hview
  simp only [hchain, Except.toOption, Option.map_some, Option.some.injEq, Prod.mk.injEq] at htexts
  simp only [hchain, Except.toOption, Option.bind_some, htop, Option.map_some, Option.some.injEq,
    Prod.mk.injEq] at hswitches
  obtain ⟨hdescription, hsuppressed⟩ := htexts
  obtain ⟨hbehaviour, hcheck, hinterface, hgenerics⟩ := hswitches
  rw [hdescription, hsuppressed, hbehaviour, hcheck, hinterface, hgenerics] at hscalars
  exact ⟨view, hview, hscalars⟩

end Model.FourLevels

end EntityModel
