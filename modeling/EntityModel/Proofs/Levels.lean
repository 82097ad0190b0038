import EntityModel.Validation
import EntityModel.View
import Mathlib.Data.List.Induction
import Mathlib.Data.List.Nodup

/-!
# The levels of a chain

Fragments and properties are inherited level by level, up to the first entity that does not inherit
tables. What is gathered that way is, of all that those levels declare, the first of each identifier or
alias, the nearest level first.
-/

namespace EntityModel

namespace Registry

section Firsts

variable {α : Type} {key : α → String} {seen seen' : List String} {l l' : List α} {a : α}

lemma firsts_cons_seen (h : key a ∈ seen) : firsts key seen (a :: l) = firsts key seen l := by
  rw [firsts, if_pos (by simpa using h)]

lemma firsts_cons_new (h : key a ∉ seen) :
    firsts key seen (a :: l) = a :: firsts key (key a :: seen) l := by
  rw [firsts, if_neg (by simpa using h)]

lemma firsts_sublist : (firsts key seen l).Sublist l := by
  induction l generalizing seen with
  | nil => exact List.Sublist.refl []
  | cons a l ih =>
    by_cases h : key a ∈ seen
    · rw [firsts_cons_seen h]
      exact ih.cons a
    · rw [firsts_cons_new h]
      exact ih.cons_cons a

/-- Only what has been seen matters, not in which order. -/
lemma firsts_congr (h : ∀ k, k ∈ seen ↔ k ∈ seen') : firsts key seen l = firsts key seen' l := by
  induction l generalizing seen seen' with
  | nil => rfl
  | cons a l ih =>
    by_cases hseen : key a ∈ seen
    · rw [firsts_cons_seen hseen, firsts_cons_seen ((h _).mp hseen), ih h]
    · have hmore : ∀ k, k ∈ key a :: seen ↔ k ∈ key a :: seen' := by simp [h]
      rw [firsts_cons_new hseen, firsts_cons_new (mt (h _).mpr hseen), ih hmore]

lemma firsts_append : firsts key seen (l ++ l') =
    firsts key seen l ++ firsts key (l.map key ++ seen) l' := by
  induction l generalizing seen with
  | nil => rfl
  | cons a l ih =>
    rw [List.cons_append]
    by_cases hseen : key a ∈ seen
    · rw [firsts_cons_seen hseen, firsts_cons_seen hseen, ih]
      congr 1
      exact firsts_congr fun k => by
        simp only [List.map_cons, List.cons_append, List.mem_cons, List.mem_append]
        exact ⟨.inr, fun h => h.elim (fun hk => .inr (hk ▸ hseen)) id⟩
    · rw [firsts_cons_new hseen, firsts_cons_new hseen, ih, List.cons_append]
      congr 2
      exact firsts_congr fun k => by simp [or_left_comm]

/-- To have seen more is to leave out more. -/
lemma firsts_append_seen : firsts key (seen ++ seen') l =
    (firsts key seen' l).filter fun a => key a ∉ seen := by
  induction l generalizing seen' with
  | nil => rfl
  | cons a l ih =>
    have hmore : firsts key (key a :: (seen ++ seen')) l =
        (firsts key (key a :: seen') l).filter fun a => key a ∉ seen := by
      rw [← ih]
      exact firsts_congr fun k => by simp [or_left_comm]
    by_cases hseen' : key a ∈ seen'
    · rw [firsts_cons_seen hseen', firsts_cons_seen (List.mem_append_right _ hseen'), ih]
    · rw [firsts_cons_new hseen', List.filter_cons, ← hmore]
      by_cases hseen : key a ∈ seen
      · rw [firsts_cons_seen (List.mem_append_left _ hseen), if_neg (by simpa using hseen)]
        refine firsts_congr fun k => ?_
        rw [List.mem_cons]
        exact ⟨.inr, fun h => h.elim (fun hk => hk ▸ List.mem_append_left _ hseen) id⟩
      · rw [firsts_cons_new (by simp [hseen, hseen']), if_pos (by simpa using hseen)]

lemma firsts_eq_filter : firsts key seen l = (firsts key [] l).filter fun a => key a ∉ seen := by
  rw [← firsts_append_seen, List.append_nil]

/-- The firsts of two lists are those of the front one and, of the other's, those with another key. -/
lemma firsts_append_eq_filter : firsts key [] (l ++ l') =
    firsts key [] l ++ (firsts key [] l').filter fun a => key a ∉ l.map key := by
  rw [firsts_append, firsts_append_seen]

lemma nodup_firsts : ((firsts key seen l).map key).Nodup := by
  induction l generalizing seen with
  | nil => exact List.nodup_nil
  | cons a l ih =>
    by_cases h : key a ∈ seen
    · rw [firsts_cons_seen h]
      exact ih
    · rw [firsts_cons_new h, List.map_cons, List.nodup_cons]
      refine ⟨fun hmem => ?_, ih⟩
      obtain ⟨b, hb, hsame⟩ := List.mem_map.mp hmem
      rw [← List.singleton_append, firsts_append_seen, List.mem_filter] at hb
      simp [hsame] at hb

/-- The keys of the firsts are the keys that have not been seen. -/
lemma mem_map_firsts {k : String} :
    k ∈ (firsts key seen l).map key ↔ k ∈ l.map key ∧ k ∉ seen := by
  induction l generalizing seen with
  | nil => simp [firsts]
  | cons a l ih =>
    by_cases h : key a ∈ seen
    · rw [firsts_cons_seen h, ih, List.map_cons, List.mem_cons]
      refine and_congr_left fun hk => ?_
      exact ⟨.inr, fun hmem => hmem.resolve_left fun heq => hk (heq ▸ h)⟩
    · rw [firsts_cons_new h, List.map_cons, List.map_cons, List.mem_cons, List.mem_cons, ih]
      by_cases hk : k = key a
      · simp [hk, h]
      · simp [hk]

/-- The first of a key is found among the firsts. -/
lemma find?_firsts {k : String} (hk : k ∉ seen) :
    (firsts key seen l).find? (key · == k) = l.find? (key · == k) := by
  induction l generalizing seen with
  | nil => rfl
  | cons a l ih =>
    by_cases h : key a ∈ seen
    · have hne : key a ≠ k := fun heq => hk (heq ▸ h)
      rw [firsts_cons_seen h, ih hk, List.find?_cons_of_neg (by simpa using hne)]
    · rw [firsts_cons_new h]
      by_cases hsame : key a = k
      · rw [List.find?_cons_of_pos (by simpa using hsame),
          List.find?_cons_of_pos (by simpa using hsame)]
      · rw [List.find?_cons_of_neg (by simpa using hsame),
          List.find?_cons_of_neg (by simpa using hsame), ih (by simp [hk, Ne.symm hsame])]

lemma firsts_eq_self (h : (l.map key).Nodup) : firsts key [] l = l := by
  induction l using List.reverseRecOn with
  | nil => rfl
  | append_singleton l a ih =>
    rw [List.map_append, List.nodup_append'] at h
    obtain ⟨hl, -, hdisjoint⟩ := h
    have hnew : key a ∉ l.map key := List.disjoint_right.mp hdisjoint (by simp)
    rw [firsts_append, ih hl, firsts_cons_new (by simpa using hnew)]
    rfl

/-- A list without repeated keys goes before the firsts of another list as it is. -/
lemma firsts_behind (h : (l.map key).Nodup) :
    firsts key [] (l ++ l') = l ++ firsts key (l.map key) l' := by
  rw [firsts_append, firsts_eq_self h, List.append_nil]

/-- A loop that adds the copies of what has another key than all that is there adds the firsts. -/
lemma foldl_addNew (copy : α → α) (hcopy : ∀ a, key (copy a) = key a) (present l : List α) :
    l.foldl (fun acc a => if acc.any (key · == key a) then acc else acc ++ [copy a]) present =
      present ++ (firsts key (present.map key) l).map copy := by
  induction l generalizing present with
  | nil => exact (List.append_nil present).symm
  | cons a l ih =>
    have hpresent : present.any (key · == key a) = true ↔ key a ∈ present.map key := by simp
    rw [List.foldl_cons]
    by_cases h : key a ∈ present.map key
    · rw [if_pos (hpresent.mpr h), ih, firsts_cons_seen h]
    · have hseen : firsts key ((present ++ [copy a]).map key) l =
          firsts key (key a :: present.map key) l := by
        refine firsts_congr fun k => ?_
        rw [List.map_append, List.map_singleton, hcopy, List.mem_append, List.mem_singleton,
          List.mem_cons, or_comm]
      rw [if_neg (mt hpresent.mp h), ih, hseen, firsts_cons_new h, List.map_cons,
        List.append_assoc, List.singleton_append]

end Firsts

/-! ### Fragments, level by level -/

lemma isAttached_iff_mem {attached : List FragmentRef} {fragment : String} :
    isAttached attached fragment = true ↔ fragment ∈ attached.map (·.fragment) := by
  simp [isAttached]

lemma foldl_addMissing_eq (refs more : List FragmentRef) : more.foldl addMissing refs =
    refs ++ firsts (·.fragment) (refs.map (·.fragment)) more := by
  rw [← List.map_id (firsts _ _ _)]
  refine foldl_addNew id (fun ref => ?_) refs more
  rfl

/-- The entities of a chain from which its first one inherits tables, itself among them: all down to the
first that does not inherit. -/
def tableLevels (chain : List Entity) : List Entity :=
  chain.take (chain.findIdx (! ·.inheritsBaseTables) + 1)

variable {r : Registry} {e b : Entity} {chain rest : List Entity}

lemma tableLevels_nil : tableLevels [] = [] := rfl

lemma tableLevels_cons (e : Entity) (rest : List Entity) :
    tableLevels (e :: rest) = e :: if e.inheritsBaseTables then tableLevels rest else [] := by
  unfold tableLevels
  rw [List.findIdx_cons]
  cases e.inheritsBaseTables
  · simp
  · simp

/-- What the levels of a chain add to some fragments. -/
lemma gatherFragments_eq (refs : List FragmentRef) (chain : List Entity) :
    gatherFragments refs chain = refs ++ firsts (·.fragment) (refs.map (·.fragment))
      ((tableLevels chain).flatMap (·.fragments)) := by
  rw [← foldl_addMissing_eq]
  induction chain generalizing refs with
  | nil => rfl
  | cons e rest ih =>
    rw [gatherFragments, tableLevels_cons, List.flatMap_cons, List.foldl_append]
    split
    · exact ih _
    · rfl

/-- The effective fragments are the first of each identifier along the levels. -/
lemma effectiveFragments_eq (h : r.lineage e = .ok chain) : r.effectiveFragments e =
    .ok (firsts (·.fragment) [] ((tableLevels chain).flatMap (·.fragments))) := by
  rw [effectiveFragments, h]
  exact congrArg Except.ok (gatherFragments_eq [] chain)

end Registry

namespace EntityView

open Registry (firsts tableLevels)

variable {r : Registry} {e : Entity} {chain : List Entity}

/-- What the levels of a chain add to some properties of an owner. -/
lemma gatherProperties_eq (owner : String) (properties : List Property) (chain : List Entity) :
    gatherProperties owner properties chain =
      properties ++ (firsts (·.aliasName) (properties.map (·.aliasName))
        ((tableLevels chain).flatMap (·.properties))).map (·.ownedBy owner) := by
  have hloop : gatherProperties owner properties chain =
      ((tableLevels chain).flatMap (·.properties)).foldl
        (fun ps p => if ps.any (·.aliasName == p.aliasName) then ps else ps ++ [p.ownedBy owner])
        properties := by
    induction chain generalizing properties with
    | nil => rfl
    | cons e rest ih =>
      rw [gatherProperties, Registry.tableLevels_cons, List.flatMap_cons, List.foldl_append]
      split
      · exact ih _
      · rfl
  rw [hloop]
  refine Registry.foldl_addNew (·.ownedBy owner) (fun p => ?_) properties _
  rfl

/-- The complete properties of an entity are its own and, behind them, the first of each other alias
along the levels above. -/
lemma completeProperties_eq (h : r.lineage e = .ok (e :: chain)) :
    completeProperties ⟨r, e⟩ = .ok (e.properties ++
      (firsts (·.aliasName) (e.properties.map (·.aliasName))
        ((tableLevels (e :: chain)).tail.flatMap (·.properties))).map (·.ownedBy e.id)) := by
  unfold completeProperties
  rw [h, Registry.tableLevels_cons]
  cases hinherits : e.inheritsBaseTables
  · exact congrArg Except.ok (List.append_nil _).symm
  · exact congrArg Except.ok (gatherProperties_eq e.id e.properties chain)

end EntityView

end EntityModel
