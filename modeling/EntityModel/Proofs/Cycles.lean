import EntityModel.Proofs.Ancestry
import EntityModel.Schema
import Mathlib.Dynamics.PeriodicPts.Defs

/-!
# Base cycles of a schema

A place lies on a cycle when its bases come back to it after some steps. They do so within the
length of the list or never, so that the search along the way misses no cycle. With distinct
identifiers there is a cycle just when the bases of some entity revisit an identifier.
-/

namespace EntityModel.Schema

/-- The place that is reached from another one when its base is taken a number of times. -/
def placeAfter (entities : List Entity) (place steps : Nat) : Option Nat :=
  (·.bind (basePlace? entities))^[steps] (some place)

section Ways

variable {entities : List Entity} {place next target : Nat}

lemma placeAfter_succ_of_some (hbase : basePlace? entities place = some next) (steps : Nat) :
    placeAfter entities place (steps + 1) = placeAfter entities next steps :=
  iterate_bind_of_some hbase steps

lemma placeAfter_succ_of_none (hbase : basePlace? entities place = none) (steps : Nat) :
    placeAfter entities place (steps + 1) = none :=
  iterate_bind_of_none hbase steps

lemma placeAfter_add {first : Nat} (hfirst : placeAfter entities place first = some next)
    (steps : Nat) :
    placeAfter entities place (first + steps) = placeAfter entities next steps :=
  iterate_bind_add hfirst steps

lemma placeAfter_add_of_none {first : Nat} (hfirst : placeAfter entities place first = none)
    (steps : Nat) : placeAfter entities place (first + steps) = none := by
  unfold placeAfter at hfirst ⊢
  rw [Nat.add_comm, Function.iterate_add_apply, hfirst]
  exact iterate_bind_none steps

/-- A way shows its target when that is reached within the limit. -/
lemma mem_wayTo_iff {limit : Nat} : target ∈ wayTo entities target limit place ↔
    ∃ steps < limit, placeAfter entities place (steps + 1) = some target := by
  induction limit generalizing place with
  | zero => simp [wayTo]
  | succ limit ih =>
    rw [wayTo]
    cases hbase : basePlace? entities place with
    | none => simp [placeAfter_succ_of_none hbase]
    | some next =>
      simp only [placeAfter_succ_of_some hbase, List.mem_cons]
      constructor
      · rintro (rfl | hrest)
        · exact ⟨0, by omega, rfl⟩
        · split at hrest
          · cases hrest
          · obtain ⟨steps, hsteps, hreached⟩ := ih.mp hrest
            exact ⟨steps + 1, by omega, hreached⟩
      · rintro ⟨steps, hsteps, hreached⟩
        by_cases hnext : next = target
        · exact .inl hnext.symm
        · rw [if_neg hnext]
          cases steps with
          | zero => exact absurd (Option.some.inj hreached) hnext
          | succ steps => exact .inr (ih.mpr ⟨steps, by omega, hreached⟩)

lemma lastPlace?_lt {id : String} (h : lastPlace? entities id = some place) :
    place < entities.length := by
  obtain ⟨back, hback, rfl⟩ := Option.map_eq_some_iff.mp h
  obtain ⟨hlt, -⟩ := List.findIdx?_eq_some_iff_getElem.mp hback
  rw [List.length_reverse] at hlt
  omega

lemma placeAfter_lt {steps : Nat} (hplace : place < entities.length)
    (h : placeAfter entities place steps = some target) : target < entities.length := by
  induction steps generalizing place with
  | zero =>
    cases h
    exact hplace
  | succ steps ih =>
    cases hbase : basePlace? entities place with
    | none =>
      rw [placeAfter_succ_of_none hbase] at h
      cases h
    | some next =>
      rw [placeAfter_succ_of_some hbase] at h
      obtain ⟨e, -, hnext⟩ := Option.bind_eq_some_iff.mp hbase
      obtain ⟨base, -, hlast⟩ := Option.bind_eq_some_iff.mp hnext
      exact ih (lastPlace?_lt hlast) h

/-- A place that is returned to is returned to within the length of the list: until then no place
is passed twice. -/
lemma exists_return_lt {steps : Nat} (hplace : place < entities.length)
    (hreturn : placeAfter entities place (steps + 1) = some place) :
    ∃ steps < entities.length, placeAfter entities place (steps + 1) = some place := by
  let advance : Option Nat → Option Nat := (·.bind (basePlace? entities))
  let period := Function.minimalPeriod advance (some place)
  have hperiodic : Function.IsPeriodicPt advance (steps + 1) (some place) := hreturn
  have hpos : 0 < period := hperiodic.minimalPeriod_pos (by omega)
  have hround : placeAfter entities place period = some place :=
    Function.isPeriodicPt_minimalPeriod advance (some place)
  have hpassed (i : Nat) (hi : i < period) :
      placeAfter entities place i ∈ (Finset.range entities.length).image some := by
    cases hi' : placeAfter entities place i with
    | none =>
      have hnone := placeAfter_add_of_none hi' (period - i)
      rw [Nat.add_sub_cancel' hi.le, hround] at hnone
      cases hnone
    | some q => exact Finset.mem_image_of_mem _ (Finset.mem_range.mpr (placeAfter_lt hplace hi'))
  have hle : period ≤ entities.length := by
    have hcard := Finset.le_card_of_inj_on_range (placeAfter entities place) hpassed
      fun i hi j hj hij => Function.iterate_injOn_Iio_minimalPeriod hi hj hij
    simpa only [Finset.card_image_of_injective _ (Option.some_injective _), Finset.card_range]
      using hcard
  refine ⟨period - 1, by omega, ?_⟩
  rw [Nat.sub_add_cancel hpos, hround]

/-- A place counts as on a cycle just when its bases come back to it at all. -/
theorem isOnCycle_iff (hplace : place < entities.length) : isOnCycle entities place = true ↔
    ∃ steps, placeAfter entities place (steps + 1) = some place := by
  unfold isOnCycle cycleWay
  rw [List.contains_iff_mem, mem_wayTo_iff]
  constructor
  · rintro ⟨steps, -, hreturn⟩
    exact ⟨steps, hreturn⟩
  · rintro ⟨steps, hreturn⟩
    exact exists_return_lt hplace hreturn

end Ways

variable {s : Schema}

/-- The entity at the last place of an identifier is the one that is looked up. -/
lemma lastPlace?_bind (s : Schema) (id : String) :
    (lastPlace? s.entities id).bind (s.entities[·]?) = s.entity? id := by
  unfold lastPlace? entity? findLast?
  rw [List.find?_eq_bind_findIdx?_getElem?, Option.bind_map]
  cases hback : s.entities.reverse.findIdx? (·.id == id) with
  | none => rfl
  | some back =>
    obtain ⟨hlt, -⟩ := List.findIdx?_eq_some_iff_getElem.mp hback
    rw [List.length_reverse] at hlt
    exact (List.getElem?_reverse hlt).symm

/-- Taking the base goes along with looking at what stands at a place. -/
lemma semiconj_base (s : Schema) :
    Function.Semiconj (fun place : Option Nat => place.bind (s.entities[·]?))
      (·.bind (basePlace? s.entities)) (·.bind s.registry.base?) := by
  intro place
  cases place with
  | none => rfl
  | some place =>
    change (basePlace? s.entities place).bind (s.entities[·]?) =
      s.entities[place]?.bind s.registry.base?
    unfold basePlace?
    cases s.entities[place]? with
    | none => rfl
    | some e =>
      change (e.base.bind (lastPlace? s.entities)).bind (s.entities[·]?) =
        e.base.bind s.registry.entity?
      rw [Option.bind_assoc]
      exact Option.bind_congr fun id _ => lastPlace?_bind s id

lemma placeAfter_bind {e : Entity} {place : Nat} (he : s.entities[place]? = some e) (steps : Nat) :
    (placeAfter s.entities place steps).bind (s.entities[·]?) = s.registry.ancestor? e steps := by
  have hsteps := (semiconj_base s).iterate_right steps (some place)
  rw [Option.bind_some, he] at hsteps
  exact hsteps

/-- A schema with distinct identifiers has a base cycle just when the bases of one of its entities
revisit an identifier. -/
theorem firstCycle?_eq_none_iff (hdistinct : (s.entities.map (·.id)).Nodup) :
    firstCycle? s.entities = none ↔ ∀ e ∈ s.entities, ¬ s.registry.Revisits e := by
  have hnone : firstCycle? s.entities = none ↔ ∀ place < s.entities.length,
      ¬ ∃ steps, placeAfter s.entities place (steps + 1) = some place := by
    unfold firstCycle?
    rw [Option.map_eq_none_iff, List.find?_eq_none]
    simp only [List.mem_range]
    exact forall₂_congr fun place hplace => not_congr (isOnCycle_iff hplace)
  rw [hnone]
  constructor
  · rintro hnever e he ⟨i, j, x, y, hij, hx, hy, hid⟩
    obtain ⟨place, hplace, rfl⟩ := List.getElem_of_mem he
    have hat : s.entities[place]? = some s.entities[place] := List.getElem?_eq_getElem hplace
    rw [← placeAfter_bind hat] at hx hy
    obtain ⟨p, hp, hxp⟩ := Option.bind_eq_some_iff.mp hx
    obtain ⟨q, hq, hyq⟩ := Option.bind_eq_some_iff.mp hy
    have hlt : p < s.entities.length := placeAfter_lt hplace hp
    -- equal identifiers stand at one place, to which the way from it thus returns
    have hsame : p = q := by
      refine (List.getElem?_inj (by rwa [List.length_map]) hdistinct).mp ?_
      simp only [List.getElem?_map, hxp, hyq, Option.map_some, hid]
    subst hsame
    have hreturn := placeAfter_add hp (j - i)
    rw [Nat.add_sub_cancel' hij.le, hq] at hreturn
    refine hnever p hlt ⟨j - i - 1, ?_⟩
    rw [Nat.sub_add_cancel (by omega), hreturn]
  · rintro hends place hplace ⟨steps, hreturn⟩
    have hat : s.entities[place]? = some s.entities[place] := List.getElem?_eq_getElem hplace
    have hback : s.registry.ancestor? s.entities[place] (steps + 1) = some s.entities[place] := by
      rw [← placeAfter_bind hat, hreturn, Option.bind_some, hat]
    exact hends _ (List.getElem_mem hplace) ⟨0, steps + 1, _, _, by omega, rfl, hback, rfl⟩

end EntityModel.Schema
