import EntityModel.Proofs.Lineage
import Mathlib.Data.List.Perm.Subperm
import Mathlib.Logic.Function.Iterate

/-!
# Ancestors by the number of steps

The chain of an entity ends just when its bases, followed any number of times, never come to an
identifier again. It then lists the ancestors in the order of their distance and is no longer than
the registry.
-/

namespace EntityModel

section Steps

variable {α : Type} {step : α → Option α} {a b : α}

lemma iterate_bind_of_some (hstep : step a = some b) (steps : Nat) :
    (fun x : Option α => x.bind step)^[steps + 1] (some a) = (·.bind step)^[steps] (some b) := by
  rw [Function.iterate_succ_apply, Option.bind_some, hstep]

lemma iterate_bind_add {first : Nat} (hfirst : (fun x : Option α => x.bind step)^[first] (some a) =
    some b) (steps : Nat) : (fun x : Option α => x.bind step)^[first + steps] (some a) =
      (·.bind step)^[steps] (some b) := by
  rw [Nat.add_comm, Function.iterate_add_apply, hfirst]

lemma iterate_bind_none (steps : Nat) : (fun x : Option α => x.bind step)^[steps] none = none :=
  Function.iterate_fixed rfl steps

lemma iterate_bind_of_none (hstep : step a = none) (steps : Nat) :
    (fun x : Option α => x.bind step)^[steps + 1] (some a) = none := by
  rw [Function.iterate_succ_apply, Option.bind_some, hstep]
  exact iterate_bind_none steps

end Steps

namespace Registry

/-- The entity that is reached from another one when its base is taken a number of times. -/
def ancestor? (r : Registry) (e : Entity) (steps : Nat) : Option Entity :=
  (·.bind r.base?)^[steps] (some e)

/-- The bases of an entity lead to an identifier for the second time. -/
def Revisits (r : Registry) (e : Entity) : Prop :=
  ∃ i j x y, i < j ∧ r.ancestor? e i = some x ∧ r.ancestor? e j = some y ∧ x.id = y.id

variable {r : Registry} {e b x : Entity} {chain : List Entity} {seen : List String}

lemma ancestor?_succ (e : Entity) (steps : Nat) :
    r.ancestor? e (steps + 1) = (r.ancestor? e steps).bind r.base? :=
  Function.iterate_succ_apply' _ _ _

lemma ancestor?_succ_of_base (hbase : r.base? e = some b) (steps : Nat) :
    r.ancestor? e (steps + 1) = r.ancestor? b steps :=
  iterate_bind_of_some hbase steps

lemma ancestor?_succ_of_root (hbase : r.base? e = none) (steps : Nat) :
    r.ancestor? e (steps + 1) = none :=
  iterate_bind_of_none hbase steps

lemma Revisits.of_base (hbase : r.base? e = some b) (h : r.Revisits b) : r.Revisits e := by
  obtain ⟨i, j, x, y, hij, hx, hy, hid⟩ := h
  refine ⟨i + 1, j + 1, x, y, by omega, ?_, ?_, hid⟩
  · rw [ancestor?_succ_of_base hbase, hx]
  · rw [ancestor?_succ_of_base hbase, hy]

section Lookups

variable {r' : Registry} (hentity : r.entity? = r'.entity?)

include hentity

lemma base?_congr : r.base? = r'.base? := by
  unfold Registry.base?
  rw [hentity]

lemma ancestor?_congr : r.ancestor? = r'.ancestor? := by
  unfold Registry.ancestor?
  rw [base?_congr hentity]

lemma revisits_congr : r.Revisits = r'.Revisits := by
  unfold Revisits
  rw [ancestor?_congr hentity]

end Lookups

/-- A walk asks for nothing but the bases of the entities that it comes to. -/
lemma chainFrom_congr {r' : Registry}
    (hbases : ∀ steps, ∀ x ∈ r.ancestor? e steps, r'.base? x = r.base? x) :
    r'.chainFrom seen e = r.chainFrom seen e := by
  induction seen, e using chainFrom.induct (r := r) with
  | case1 seen e root =>
    rw [chainFrom_root root, chainFrom_root ((hbases 0 e rfl).trans root)]
  | case2 seen e b base met =>
    rw [chainFrom_met base met, chainFrom_met ((hbases 0 e rfl).trans base) met]
  | case3 seen e b base new ih =>
    rw [chainFrom_new base new, chainFrom_new ((hbases 0 e rfl).trans base) new,
      ih fun steps x hx => hbases (steps + 1) x ((ancestor?_succ_of_base base steps).trans hx)]

lemma lineage_congr {r' : Registry}
    (hbases : ∀ steps, ∀ x ∈ r.ancestor? e steps, r'.base? x = r.base? x) :
    r'.lineage e = r.lineage e :=
  chainFrom_congr hbases

/-- What a walk that succeeds has seen: each entity is new to it. -/
lemma chainFrom_distinct (h : r.chainFrom seen e = .ok chain) :
    ∃ rest, chain = e :: rest ∧ (rest.map (·.id)).Nodup ∧ ∀ x ∈ rest, x.id ∉ seen := by
  induction seen, e using chainFrom.induct (r := r) generalizing chain with
  | case1 seen e root =>
    rw [chainFrom_root root] at h
    cases h
    exact ⟨[], rfl, List.nodup_nil, fun x hx => absurd hx List.not_mem_nil⟩
  | case2 seen e b base met =>
    rw [chainFrom_met base met] at h
    cases h
  | case3 seen e b base new ih =>
    rw [chainFrom_new base new] at h
    cases htail : r.chainFrom (seen ++ [b.id]) b with
    | error err =>
      rw [htail] at h
      cases h
    | ok tail =>
      rw [htail] at h
      cases h
      obtain ⟨rest, rfl, hdistinct, hnew⟩ := ih htail
      have hb : b.id ∉ rest.map (·.id) := by
        intro hmem
        obtain ⟨x, hx, hid⟩ := List.mem_map.mp hmem
        exact hnew x hx (by simp [hid])
      refine ⟨b :: rest, rfl, List.nodup_cons.mpr ⟨hb, hdistinct⟩, fun x hx => ?_⟩
      rcases List.mem_cons.mp hx with rfl | hx
      · exact new
      · exact fun hseen => hnew x hx (List.mem_append_left _ hseen)

/-- A chain does not come to an identifier twice. -/
theorem lineage_distinct (h : r.lineage e = .ok chain) : (chain.map (·.id)).Nodup := by
  obtain ⟨rest, rfl, hdistinct, hnew⟩ := chainFrom_distinct h
  refine List.nodup_cons.mpr ⟨fun hmem => ?_, hdistinct⟩
  obtain ⟨x, hx, hid⟩ := List.mem_map.mp hmem
  exact hnew x hx (by simp [hid])

theorem lineage_length_le (hfound : r.entity? e.id = some e) (h : r.lineage e = .ok chain) :
    chain.length ≤ r.entities.length := by
  have hsub : chain.map (·.id) ⊆ r.entities.map (·.id) := by
    intro id hid
    obtain ⟨x, hx, rfl⟩ := List.mem_map.mp hid
    have hentity := (lineage_of_mem hfound h hx).1
    exact List.mem_map_of_mem (r.mem_of_entity? hentity).1
  have hle := (List.subperm_of_subset (lineage_distinct h) hsub).length_le
  simpa only [List.length_map] using hle

/-- The places of a chain are the ancestors by their distance. -/
theorem ancestor?_of_lineage (h : r.lineage e = .ok chain) (steps : Nat) :
    r.ancestor? e steps = chain[steps]? := by
  induction steps generalizing e chain with
  | zero =>
    rcases lineage_cases h with ⟨-, rfl⟩ | ⟨b, rest, -, -, rfl⟩
    · rfl
    · rfl
  | succ steps ih =>
    rcases lineage_cases h with ⟨hbase, rfl⟩ | ⟨b, rest, hbase, hrest, rfl⟩
    · rw [ancestor?_succ_of_root hbase]
      rfl
    · rw [ancestor?_succ_of_base hbase, ih hrest]
      rfl

lemma not_revisits_of_lineage (h : r.lineage e = .ok chain) : ¬ r.Revisits e := by
  rintro ⟨i, j, x, y, hij, hx, hy, hid⟩
  rw [ancestor?_of_lineage h] at hx hy
  have hsame : (chain.map (·.id))[i]? = (chain.map (·.id))[j]? := by
    simp only [List.getElem?_map, hx, hy, Option.map_some, hid]
  have hi : i < (chain.map (·.id)).length := by
    obtain ⟨hi, -⟩ := List.getElem?_eq_some_iff.mp hx
    rwa [List.length_map]
  have heq := (List.getElem?_inj hi (lineage_distinct h)).mp hsame
  omega

/-- A walk that fails has come back, to where it has been before it started or to where it has been
since. -/
lemma chainFrom_error {err : ModelError} (h : r.chainFrom seen e = .error err) :
    (∃ path, err = .cyclicInheritance path) ∧
      (r.Revisits e ∨ ∃ steps x, r.ancestor? e (steps + 1) = some x ∧ x.id ∈ seen) := by
  induction seen, e using chainFrom.induct (r := r) with
  | case1 seen e root =>
    rw [chainFrom_root root] at h
    cases h
  | case2 seen e b base met =>
    rw [chainFrom_met base met] at h
    cases h
    refine ⟨⟨_, rfl⟩, .inr ⟨0, b, ?_, met⟩⟩
    rw [ancestor?_succ_of_base base]
    rfl
  | case3 seen e b base new ih =>
    rw [chainFrom_new base new] at h
    cases htail : r.chainFrom (seen ++ [b.id]) b with
    | ok tail =>
      rw [htail] at h
      cases h
    | error err' =>
      rw [htail] at h
      cases h
      obtain ⟨hpath, hback⟩ := ih htail
      refine ⟨hpath, ?_⟩
      rcases hback with hrevisits | ⟨steps, x, hx, hmem⟩
      · exact .inl (hrevisits.of_base base)
      · have hx' : r.ancestor? e (steps + 2) = some x := by
          rw [ancestor?_succ_of_base base, hx]
        rcases List.mem_append.mp hmem with hmem | hmem
        · exact .inr ⟨steps + 1, x, hx', hmem⟩
        · -- `x` is the base itself, which is one step away
          have hb : r.ancestor? e 1 = some b := ancestor?_succ_of_base base 0
          exact .inl ⟨1, steps + 2, b, x, by omega, hb, hx', (List.mem_singleton.mp hmem).symm⟩

lemma lineage_error {err : ModelError} (h : r.lineage e = .error err) :
    ∃ path, err = .cyclicInheritance path :=
  (chainFrom_error h).1

/-- The chain of an entity ends just when its bases never come to an identifier again. -/
theorem lineage_eq_ok_iff : (∃ chain, r.lineage e = .ok chain) ↔ ¬ r.Revisits e := by
  constructor
  · rintro ⟨chain, h⟩
    exact not_revisits_of_lineage h
  · intro hnot
    cases h : r.lineage e with
    | ok chain => exact ⟨chain, rfl⟩
    | error err =>
      obtain ⟨-, hrevisits | ⟨steps, x, hx, hmem⟩⟩ := chainFrom_error h
      · exact absurd hrevisits hnot
      · have hback : r.Revisits e :=
          ⟨0, steps + 1, e, x, by omega, rfl, hx, (List.mem_singleton.mp hmem).symm⟩
        exact absurd hback hnot

lemma lineage_eq_error_iff :
    (∃ path, r.lineage e = .error (.cyclicInheritance path)) ↔ r.Revisits e := by
  constructor
  · rintro ⟨path, h⟩
    by_contra hnot
    obtain ⟨chain, hchain⟩ := lineage_eq_ok_iff.mpr hnot
    rw [h] at hchain
    cases hchain
  · intro hrevisits
    cases h : r.lineage e with
    | ok chain => exact absurd hrevisits (not_revisits_of_lineage h)
    | error err =>
      obtain ⟨path, rfl⟩ := lineage_error h
      exact ⟨path, rfl⟩

end Registry

end EntityModel
