import EntityModel.Admission
import Mathlib.Data.List.Nodup

/-!
# Base chains

The chain of an entity is the entity before the chain of its base, which is how everything about
chains is proved.
-/

namespace EntityModel.Registry

variable {r : Registry} {e b x : Entity} {chain : List Entity}

/-- With distinct identifiers a look-up finds every entity. -/
lemma entity?_of_distinct (hdistinct : (r.entities.map (·.id)).Nodup) (he : e ∈ r.entities) :
    r.entity? e.id = some e := by
  obtain ⟨e', hfound⟩ := Option.isSome_iff_exists.mp (r.isSome_entity? he)
  obtain ⟨he', hid⟩ := r.mem_of_entity? hfound
  rw [hfound, List.inj_on_of_nodup_map hdistinct he' he hid]

lemma lineage_root (hbase : r.base? e = none) : r.lineage e = .ok [e] :=
  chainFrom_root hbase

lemma lineage_cases (h : r.lineage e = .ok chain) :
    (r.base? e = none ∧ chain = [e]) ∨
      ∃ b rest, r.base? e = some b ∧ r.lineage b = .ok rest ∧ chain = e :: rest := by
  cases hbase : r.base? e with
  | none =>
    rw [lineage_root hbase] at h
    cases h
    exact .inl ⟨rfl, rfl⟩
  | some b =>
    obtain ⟨rest, hrest, hchain⟩ := lineage_base h hbase
    exact .inr ⟨b, rest, rfl, hrest, hchain⟩

/-- The chain tells what the base of the entity is, and the rest of it is the chain of the base. -/
lemma lineage_rest (h : r.lineage e = .ok chain) :
    ∃ rest, chain = e :: rest ∧ r.base? e = rest.head? ∧
      ∀ b ∈ r.base? e, r.lineage b = .ok rest := by
  rcases lineage_cases h with ⟨hbase, rfl⟩ | ⟨b, rest, hbase, hrest, rfl⟩
  · exact ⟨[], rfl, hbase, fun b hb => by rw [hbase] at hb; cases hb⟩
  · refine ⟨rest, rfl, ?_, fun b' hb' => ?_⟩
    · rcases lineage_cases hrest with ⟨-, rfl⟩ | ⟨_, _, -, -, rfl⟩
      · exact hbase
      · exact hbase
    · cases hbase.symm.trans hb'
      exact hrest

lemma mem_lineage_self (h : r.lineage e = .ok chain) : e ∈ chain := by
  rcases lineage_cases h with ⟨-, rfl⟩ | ⟨b, rest, -, -, rfl⟩
  · exact List.mem_singleton_self e
  · exact List.mem_cons_self

/-- Only the last entity of a chain has no base to be found. -/
lemma base?_of_getLast? (h : r.lineage e = .ok chain) (hlast : chain.getLast? = some x) :
    r.base? x = none := by
  induction chain generalizing e with
  | nil => cases hlast
  | cons a chain ih =>
    rcases lineage_cases h with ⟨hbase, hchain⟩ | ⟨b, rest, -, hrest, hchain⟩
    · cases hchain
      cases hlast
      exact hbase
    · cases hchain
      obtain ⟨rest, rfl, -⟩ := lineage_rest hrest
      exact ih hrest hlast

/-- Every ancestor is registered, with the rest of the chain for its own. -/
lemma lineage_of_mem (hfound : r.entity? e.id = some e) (h : r.lineage e = .ok chain)
    (hx : x ∈ chain) :
    r.entity? x.id = some x ∧ ∃ rest, r.lineage x = .ok rest ∧ rest <:+ chain := by
  induction chain generalizing e with
  | nil => cases hx
  | cons a chain ih =>
    rcases lineage_cases h with ⟨-, he⟩ | ⟨b, rest, hbase, hrest, he⟩
    · cases he
      cases List.mem_singleton.mp hx
      exact ⟨hfound, _, h, List.suffix_refl _⟩
    · cases he
      rcases List.mem_cons.mp hx with rfl | hx
      · exact ⟨hfound, _, h, List.suffix_refl _⟩
      · obtain ⟨hentity, suffix, hlineage, hsuffix⟩ := ih (base?_eq_some hbase).2 hrest hx
        exact ⟨hentity, suffix, hlineage, hsuffix.trans (List.suffix_cons _ _)⟩

lemma derivesFrom_iff {derived base : String} (hfound : r.entity? derived = some e)
    (h : r.lineage e = .ok chain) :
    r.derivesFrom derived base = true ↔ base ∈ chain.map (·.id) := by
  unfold derivesFrom
  rw [hfound]
  simp [h]

lemma derivesFrom_eq_true {derived base : String} :
    r.derivesFrom derived base = true ↔ ∃ e chain, r.entity? derived = some e ∧
      r.lineage e = .ok chain ∧ base ∈ chain.map (·.id) := by
  constructor
  · intro h
    unfold derivesFrom at h
    split at h
    · cases h
    · next e hfound =>
      split at h
      · next chain hchain => exact ⟨e, chain, hfound, hchain, by simpa using h⟩
      · cases h
  · rintro ⟨e, chain, hfound, hchain, hmem⟩
    exact (derivesFrom_iff hfound hchain).mpr hmem

lemma derivesFrom_self {id : String} (hfound : r.entity? id = some e)
    (h : r.lineage e = .ok chain) : r.derivesFrom id id = true := by
  rw [derivesFrom_iff hfound h]
  exact List.mem_map.mpr ⟨e, mem_lineage_self h, (r.mem_of_entity? hfound).2⟩

lemma derivesFrom_root_iff {id target : String} (hfound : r.entity? id = some e)
    (hbase : r.base? e = none) : r.derivesFrom id target = true ↔ target = id := by
  rw [derivesFrom_iff hfound (lineage_root hbase), List.map_singleton, List.mem_singleton,
    (r.mem_of_entity? hfound).2]

lemma derivesFrom_base_iff {id target : String} (hfound : r.entity? id = some e)
    (h : r.lineage e = .ok chain) (hbase : r.base? e = some b) :
    r.derivesFrom id target = true ↔ target = id ∨ r.derivesFrom b.id target = true := by
  obtain ⟨rest, hrest, rfl⟩ := lineage_base h hbase
  rw [derivesFrom_iff (base?_eq_some hbase).2 hrest, derivesFrom_iff hfound h, List.map_cons,
    List.mem_cons, (r.mem_of_entity? hfound).2]

end EntityModel.Registry
