import EntityModel.Proofs.Outcome
import EntityModel.Proofs.References

/-!
# Growing registries

A registry that finds whatever a smaller one finds keeps every way up along bases, and with it what is
inherited on that way. Conversely, the smaller one answers alike about an entity once all the
ancestors that the entity has in the greater one are there.
-/

namespace EntityModel.Registry

variable {r r' : Registry} {e e' b x : Entity} {fragment : String} {steps : Nat}

/-- An entity inherits the tables of its base, and a fragment with them. -/
def InheritsFragment (r : Registry) (e : Entity) (fragment : String) : Prop :=
  e.inheritsBaseTables = true ∧ ∃ b ∈ r.base? e, r.Attaches b fragment

lemma attaches_iff : r.Attaches e fragment ↔
    (∃ ref ∈ e.fragments, ref.fragment = fragment) ∨ r.InheritsFragment e fragment := by
  unfold InheritsFragment
  cases hbase : r.base? e with
  | none =>
    rw [attaches_root hbase]
    simp
  | some b =>
    rw [attaches_base hbase]
    simp

lemma effectiveFragments_eq_ok_iff {attached : List FragmentRef} :
    r.effectiveFragments e = .ok attached ↔
      ∃ chain, r.lineage e = .ok chain ∧ attached = gatherFragments [] chain := by
  constructor
  · intro h
    obtain ⟨chain, hchain, hattached⟩ := bind_eq_ok_iff.mp h
    exact ⟨chain, hchain, (Except.ok.inj hattached).symm⟩
  · rintro ⟨chain, hchain, rfl⟩
    exact effectiveFragments_of_lineage hchain

/-- There are effective fragments just when the chain ends, and they are what is attached. -/
lemma exists_effectiveFragments_iff {P : (String → Prop) → Prop} :
    (∃ attached, r.effectiveFragments e = .ok attached ∧ P fun f => isAttached attached f = true) ↔
      ¬ r.Revisits e ∧ P (r.Attaches e) := by
  have hattaches {chain : List Entity} (hchain : r.lineage e = .ok chain) :
      (fun f => isAttached (gatherFragments [] chain) f = true) = r.Attaches e :=
    funext fun f => propext (isAttached_effectiveFragments hchain)
  constructor
  · rintro ⟨attached, heffective, hP⟩
    obtain ⟨chain, hchain, rfl⟩ := effectiveFragments_eq_ok_iff.mp heffective
    exact ⟨not_revisits_of_lineage hchain, hattaches hchain ▸ hP⟩
  · rintro ⟨hends, hP⟩
    obtain ⟨chain, hchain⟩ := lineage_eq_ok_iff.mpr hends
    refine ⟨_, effectiveFragments_of_lineage hchain, ?_⟩
    rwa [hattaches hchain]

lemma exists_ancestor?_of_le {steps steps' : Nat} (hle : steps ≤ steps')
    (hx : r.ancestor? e steps' = some x) : ∃ y, r.ancestor? e steps = some y := by
  induction hle generalizing x with
  | refl => exact ⟨x, hx⟩
  | step hle ih =>
    rw [ancestor?_succ] at hx
    obtain ⟨y, hy, -⟩ := Option.bind_eq_some_iff.mp hx
    exact ih hy

lemma mem_of_ancestor?_succ (hx : r.ancestor? e (steps + 1) = some x) : x ∈ r.entities := by
  rw [ancestor?_succ] at hx
  obtain ⟨y, -, hbase⟩ := Option.bind_eq_some_iff.mp hx
  exact mem_of_base? hbase

/-! ### The same way up -/

/-- From an entity on, two registries find the same bases. -/
def SameAbove (r r' : Registry) (e : Entity) : Prop :=
  ∀ steps, ∀ x ∈ r.ancestor? e steps, r'.base? x = r.base? x

namespace SameAbove

lemma ancestor? (h : r.SameAbove r' e) (steps : Nat) :
    r'.ancestor? e steps = r.ancestor? e steps := by
  induction steps with
  | zero => rfl
  | succ steps ih =>
    rw [ancestor?_succ, ancestor?_succ, ih]
    exact Option.bind_congr fun x hx => h steps x hx

lemma symm (h : r.SameAbove r' e) : r'.SameAbove r e := by
  intro steps x hx
  rw [h.ancestor?] at hx
  exact (h steps x hx).symm

lemma of_base (h : r.SameAbove r' e) (hbase : r.base? e = some b) : r.SameAbove r' b := by
  intro steps x hx
  exact h (steps + 1) x ((ancestor?_succ_of_base hbase steps).trans hx)

lemma revisits_iff (h : r.SameAbove r' e) : r'.Revisits e ↔ r.Revisits e := by
  unfold Revisits
  simp only [h.ancestor?]

lemma attaches_iff (h : r.SameAbove r' e) : r'.Attaches e fragment ↔ r.Attaches e fragment := by
  unfold Attaches
  simp only [h.ancestor?]

lemma inheritsFragment_iff (h : r.SameAbove r' e) :
    r'.InheritsFragment e fragment ↔ r.InheritsFragment e fragment := by
  unfold InheritsFragment
  rw [h 0 e rfl]
  refine and_congr_right fun _ => exists_congr fun b => and_congr_right fun hbase => ?_
  exact (h.of_base hbase).attaches_iff

end SameAbove

/-- Derivations are the same from an entity that both find, with the same way up. -/
lemma derivesFrom_congr {id : String} (hfound : r'.entity? id = r.entity? id)
    (habove : ∀ e ∈ r.entity? id, r.SameAbove r' e) : r'.derivesFrom id = r.derivesFrom id := by
  funext base
  unfold derivesFrom
  rw [hfound]
  cases he : r.entity? id with
  | none => rfl
  | some e =>
    dsimp only
    rw [lineage_congr (habove e he)]

/-! ### A registry within another one -/

/-- What a registry finds is found in another one as well. -/
def Within (r r' : Registry) : Prop := ∀ id, ∀ e ∈ r.entity? id, r'.entity? id = some e

/-- With distinct identifiers it is enough that the entities of one registry are in the other. -/
lemma within_of_subset (hdistinct : (r'.entities.map (·.id)).Nodup)
    (hsub : r.entities ⊆ r'.entities) : r.Within r' := by
  intro id e he
  obtain ⟨hmem, rfl⟩ := r.mem_of_entity? he
  exact entity?_of_distinct hdistinct (hsub hmem)

namespace Within

variable (h : r.Within r')

include h

lemma base? (hbase : r.base? e = some b) : r'.base? e = some b := by
  obtain ⟨id, hid, hb⟩ := Option.bind_eq_some_iff.mp hbase
  exact Option.bind_eq_some_iff.mpr ⟨id, hid, h id b hb⟩

lemma ancestor? (hx : r.ancestor? e steps = some x) : r'.ancestor? e steps = some x := by
  induction steps generalizing x with
  | zero => exact hx
  | succ steps ih =>
    rw [ancestor?_succ] at hx ⊢
    obtain ⟨y, hy, hbase⟩ := Option.bind_eq_some_iff.mp hx
    rw [ih hy, Option.bind_some, h.base? hbase]

lemma attaches (hattaches : r.Attaches e fragment) : r'.Attaches e fragment := by
  obtain ⟨steps, x, hx, href, hbefore⟩ := hattaches
  refine ⟨steps, x, h.ancestor? hx, href, fun before hlt y hy => ?_⟩
  obtain ⟨z, hz⟩ := exists_ancestor?_of_le (Nat.le_of_lt hlt) hx
  cases (h.ancestor? hz).symm.trans hy
  exact hbefore before hlt y hz

lemma descends {derived base : String} (hdescends : r.Descends derived base) :
    r'.Descends derived base := by
  obtain ⟨e, steps, x, hfound, hx, hid⟩ := hdescends
  exact ⟨e, steps, x, h derived e hfound, h.ancestor? hx, hid⟩

/-- The ways up from an entity are the same once its ancestors are there in the smaller registry. -/
lemma sameAbove (hthere : ∀ steps, ∀ x ∈ r'.ancestor? e (steps + 1), (r.entity? x.id).isSome) :
    r'.SameAbove r e := by
  intro steps x hx
  cases hbase : r'.base? x with
  | none =>
    cases hsmall : r.base? x with
    | none => rfl
    | some b => cases hbase.symm.trans (h.base? hsmall)
  | some b =>
    obtain ⟨hid, hfound⟩ := base?_eq_some hbase
    have hb : r'.ancestor? e (steps + 1) = some b := by
      rw [ancestor?_succ, hx, Option.bind_some, hbase]
    obtain ⟨b', hb'⟩ := Option.isSome_iff_exists.mp (hthere steps b hb)
    cases hfound.symm.trans (h b.id b' hb')
    unfold Registry.base?
    rw [hid, Option.bind_some, hb']

end Within

end EntityModel.Registry
