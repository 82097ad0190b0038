import EntityModel.Proofs.Placement
import Mathlib.Data.Set.Card

/-!
# Bases are placed by depth

The depth of an entity in a list is the number of entities that it is derived from along bases within the
list. It has no bound where these bases lead into a circle. What each round of placing takes is what lies at
one depth, so that the whole is a stable sort, with the entities that wait for a circle at its end.
-/

namespace EntityModel.ModelSource

/-- A list is sorted by a key, and what has one key has kept its order. -/
structure IsStableSort {α : Type} (key : α → ℕ∞) (l sorted : List α) : Prop where
  perm : sorted.Perm l
  ordered : sorted.Pairwise fun a b => key a ≤ key b
  stable : ∀ n, sorted.filter (key · = n) = l.filter (key · = n)

/-- Bases within the list lead from the entity into a circle. -/
def Caught (entities : List Entity) (e : Entity) : Prop :=
  ∃ c, Relation.ReflTransGen (OwnBase entities) e c ∧ Relation.TransGen (OwnBase entities) c c

open Classical in
/-- The number of ancestors that an entity has inside the list, unless it is caught in a circle. -/
noncomputable def depth (entities : List Entity) (e : Entity) : ℕ∞ :=
  if Caught entities e then ⊤ else {a | Relation.TransGen (OwnBase entities) e a}.encard

section Sorting

variable {α : Type} {key : α → ℕ∞} {l rest sorted : List α} {p q : α → Bool} {n k : ℕ∞}

lemma filter_filter_of_imp (h : ∀ a ∈ l, q a = true → p a = true) :
    (l.filter p).filter q = l.filter q := by
  rw [List.filter_filter]
  refine List.filter_congr fun a ha => ?_
  cases hq : q a with
  | true => rw [h a ha hq, Bool.and_true]
  | false => rfl

lemma filter_filter_of_not (h : ∀ a ∈ l, q a = true → p a = false) : (l.filter p).filter q = [] := by
  refine List.filter_eq_nil_iff.mpr fun a ha hq => ?_
  obtain ⟨hmem, hpa⟩ := List.mem_filter.mp ha
  exact Bool.false_ne_true ((h a hmem hq).symm.trans hpa)

lemma isStableSort_of_const (h : ∀ a ∈ l, key a = k) : IsStableSort key l l :=
  ⟨.refl l, List.pairwise_of_forall_mem_list fun a ha b hb => by rw [h a ha, h b hb], fun _ => rfl⟩

/-- What has the least key goes before the rest. -/
lemma IsStableSort.prepend (h : IsStableSort key (l.filter (! p ·)) rest) (hleast : ∀ a ∈ l, k ≤ key a)
    (hp : ∀ a ∈ l, p a = true ↔ key a = k) : IsStableSort key l (l.filter p ++ rest) := by
  have hfirst : ∀ a ∈ l.filter p, key a = k :=
    fun a ha => (hp a (List.mem_filter.mp ha).1).mp (List.mem_filter.mp ha).2
  refine ⟨(h.perm.append_left _).trans (List.filter_append_perm p l), ?_, fun n => ?_⟩
  · refine List.pairwise_append.mpr ⟨(isStableSort_of_const hfirst).ordered, h.ordered, ?_⟩
    intro a ha b hb
    rw [hfirst a ha]
    exact hleast b (List.mem_filter.mp (h.perm.mem_iff.mp hb)).1
  · rw [List.filter_append, h.stable]
    by_cases hn : n = k
    · have hin : ∀ a ∈ l, decide (key a = n) = true → p a = true :=
        fun a ha hkey => (hp a ha).mpr ((of_decide_eq_true hkey).trans hn)
      rw [filter_filter_of_imp hin, filter_filter_of_not fun a ha hkey => by simp [hin a ha hkey],
        List.append_nil]
    · have hout : ∀ a ∈ l, decide (key a = n) = true → p a = false := fun a ha hkey =>
        Bool.eq_false_iff.mpr fun hpa => hn ((of_decide_eq_true hkey).symm.trans ((hp a ha).mp hpa))
      rw [filter_filter_of_not hout, filter_filter_of_imp fun a ha hkey => by simp [hout a ha hkey],
        List.nil_append]

/-- What has the greatest key comes last. -/
lemma IsStableSort.greatest_last (h : IsStableSort key l sorted) (hgreatest : ∀ a, key a ≤ n) :
    sorted = sorted.filter (key · ≠ n) ++ l.filter (key · = n) := by
  rw [← h.stable]
  have hordered := h.ordered
  clear h
  induction sorted with
  | nil => rfl
  | cons a rest ih =>
    obtain ⟨hfirst, hordered⟩ := List.pairwise_cons.mp hordered
    by_cases hkey : key a = n
    · -- nothing is left but what has this key
      have hall : ∀ b ∈ a :: rest, key b = n :=
        List.forall_mem_cons.mpr ⟨hkey, fun b hb => (hgreatest b).antisymm (hkey ▸ hfirst b hb)⟩
      have hnone : (a :: rest).filter (key · ≠ n) = [] :=
        List.filter_eq_nil_iff.mpr fun b hb => by simp [hall b hb]
      have hself : (a :: rest).filter (key · = n) = a :: rest :=
        List.filter_eq_self.mpr fun b hb => by simp [hall b hb]
      rw [hnone, hself, List.nil_append]
    · rw [List.filter_cons_of_pos (by simpa using hkey), List.filter_cons_of_neg (by simpa using hkey),
        List.cons_append, ← ih hordered]

end Sorting

variable {placed : List String} {waiting entities before after : List Entity} {e b d : Entity} {k : ℕ}

section Distinct

variable (hdistinct : (entities.map (·.id)).Nodup)

include hdistinct

lemma rightUnique_ownBase : Relator.RightUnique (OwnBase entities) := by
  rintro e b c ⟨hb, hbase⟩ ⟨hc, hbase'⟩
  have hid : b.id = c.id := Option.some.inj (hbase.symm.trans hbase')
  exact List.inj_on_of_nodup_map hdistinct hb hc hid

lemma caught_iff_of_ownBase (h : OwnBase entities e b) : Caught entities e ↔ Caught entities b := by
  constructor
  · rintro ⟨c, hreaches, hround⟩
    rcases hreaches.cases_head with rfl | ⟨d, hd, hreaches⟩
    · obtain ⟨d, hd, hback⟩ := Relation.TransGen.head'_iff.mp hround
      cases rightUnique_ownBase hdistinct h hd
      exact ⟨e, hback, hround⟩
    · cases rightUnique_ownBase hdistinct h hd
      exact ⟨c, hreaches, hround⟩
  · rintro ⟨c, hreaches, hround⟩
    exact ⟨c, .head h hreaches, hround⟩

/-- The ancestors of an entity are its base and the ancestors of that. -/
lemma ancestors_of_ownBase (h : OwnBase entities e b) :
    {a | Relation.TransGen (OwnBase entities) e a} =
      insert b {a | Relation.TransGen (OwnBase entities) b a} := by
  ext a
  rw [Set.mem_insert_iff, Set.mem_ofPred_eq, Set.mem_ofPred_eq, Relation.TransGen.head'_iff]
  constructor
  · rintro ⟨c, hc, hreaches⟩
    cases rightUnique_ownBase hdistinct h hc
    exact Relation.reflTransGen_iff_eq_or_transGen.mp hreaches
  · intro ha
    exact ⟨b, h, Relation.reflTransGen_iff_eq_or_transGen.mpr ha⟩

lemma depth_of_ownBase (h : OwnBase entities e b) : depth entities e = depth entities b + 1 := by
  unfold depth
  have hcaught := caught_iff_of_ownBase hdistinct h
  by_cases hb : Caught entities b
  · rw [if_pos hb, if_pos (hcaught.mpr hb), top_add]
  · have hnew : b ∉ {a | Relation.TransGen (OwnBase entities) b a} :=
      fun hround => hb ⟨b, .refl, hround⟩
    rw [if_neg hb, if_neg (mt hcaught.mp hb), ancestors_of_ownBase hdistinct h,
      Set.encard_insert_of_notMem hnew]

end Distinct

lemma depth_of_root (h : ∀ b, ¬ OwnBase entities e b) : depth entities e = 0 := by
  have hnone (a : Entity) : ¬ Relation.TransGen (OwnBase entities) e a := by
    intro ha
    obtain ⟨b, hb, -⟩ := Relation.TransGen.head'_iff.mp ha
    exact h b hb
  have hfree : ¬ Caught entities e := by
    rintro ⟨c, hreaches, hround⟩
    rcases Relation.reflTransGen_iff_eq_or_transGen.mp hreaches with rfl | ha
    · exact hnone _ hround
    · exact hnone c ha
  unfold depth
  rw [if_neg hfree, Set.encard_eq_zero, Set.eq_empty_iff_forall_notMem]
  exact hnone

/-- There are finitely many ancestors, all of them in the list. -/
lemma depth_eq_top_iff : depth entities e = ⊤ ↔ Caught entities e := by
  unfold depth
  split_ifs with hcaught
  · simp [hcaught]
  · have hsub : {a | Relation.TransGen (OwnBase entities) e a} ⊆ {a | a ∈ entities} := by
      intro a ha
      obtain ⟨d, -, hlast, -⟩ := Relation.TransGen.tail'_iff.mp ha
      exact hlast
    have hfinite : {a | Relation.TransGen (OwnBase entities) e a}.Finite :=
      entities.finite_toSet.subset hsub
    simp [hcaught, hfinite]

lemma isReady_iff_ownBase : isReady (entities.map (·.id)) placed e = true ↔
    ∀ b, OwnBase entities e b → b.id ∈ placed := by
  rw [isReady_iff]
  constructor
  · rintro h b ⟨hb, hbase⟩
    exact h b.id hbase (List.mem_map_of_mem hb)
  · intro h base hbase hdeclared
    obtain ⟨b, hb, rfl⟩ := List.mem_map.mp hdeclared
    exact h b ⟨hb, hbase⟩

/-- How far placing has come: what lies above a depth is placed, and all else is waiting. -/
structure AtDepth (entities : List Entity) (k : ℕ) (placed : List String) (waiting : List Entity) :
    Prop where
  placed_iff : ∀ b ∈ entities, b.id ∈ placed ↔ depth entities b < k
  waiting_eq : waiting = entities.filter (k ≤ depth entities ·)

lemma atDepth_zero (entities : List Entity) : AtDepth entities 0 [] entities :=
  ⟨by simp, by simp⟩

lemma AtDepth.mem_waiting_iff (h : AtDepth entities k placed waiting) :
    e ∈ waiting ↔ e ∈ entities ∧ k ≤ depth entities e := by
  rw [h.waiting_eq, List.mem_filter, decide_eq_true_iff]

section Rounds

variable (hdistinct : (entities.map (·.id)).Nodup)

include hdistinct

lemma depth_lt_of_ownBase (hfree : ¬ Caught entities e) (h : OwnBase entities e b) :
    depth entities b < depth entities e := by
  have hfinite : depth entities b ≠ ⊤ :=
    mt depth_eq_top_iff.mp (mt (caught_iff_of_ownBase hdistinct h).mpr hfree)
  rw [depth_of_ownBase hdistinct h]
  exact (ENat.lt_add_one_iff hfinite).mpr le_rfl

/-- An entity below a depth has one at that depth among its ancestors. -/
lemma exists_depth_eq {m : ℕ} (he : e ∈ entities) (h : depth entities e = (k + m : ℕ)) :
    ∃ b ∈ entities, depth entities b = k := by
  induction m generalizing e with
  | zero => exact ⟨e, he, h⟩
  | succ m ih =>
    by_cases hroot : ∃ b, OwnBase entities e b
    · obtain ⟨b, hb⟩ := hroot
      rw [depth_of_ownBase hdistinct hb, ← Nat.add_assoc, Nat.cast_succ] at h
      exact ih hb.1 (ENat.add_left_injective_of_ne_top ENat.one_ne_top h)
    · rw [depth_of_root (not_exists.mp hroot)] at h
      exact absurd (Nat.cast_eq_zero.mp h.symm) (by omega)

namespace AtDepth

variable (h : AtDepth entities k placed waiting)

include h

/-- Of the entities that wait, those are ready that lie at the depth that placing has come to. -/
lemma isReady_iff_depth (he : e ∈ waiting) :
    isReady (entities.map (·.id)) placed e = true ↔ depth entities e = k := by
  obtain ⟨-, hwaits⟩ := h.mem_waiting_iff.mp he
  rw [isReady_iff_ownBase]
  constructor
  · intro hready
    refine le_antisymm ?_ hwaits
    by_cases hroot : ∃ b, OwnBase entities e b
    · obtain ⟨b, hb⟩ := hroot
      rw [depth_of_ownBase hdistinct hb]
      exact Order.add_one_le_of_lt ((h.placed_iff b hb.1).mp (hready b hb))
    · rw [depth_of_root (not_exists.mp hroot)]
      exact zero_le
  · intro hdepth b hb
    have hfree : ¬ Caught entities e := fun hcaught =>
      ENat.natCast_ne_top k (hdepth.symm.trans (depth_eq_top_iff.mpr hcaught))
    exact (h.placed_iff b hb.1).mpr (hdepth ▸ depth_lt_of_ownBase hdistinct hfree hb)

lemma mem_nextRound_iff : e ∈ nextRound (entities.map (·.id)) placed waiting ↔
    e ∈ entities ∧ depth entities e = k := by
  rw [nextRound, List.mem_filter]
  constructor
  · rintro ⟨he, hready⟩
    exact ⟨(h.mem_waiting_iff.mp he).1, (h.isReady_iff_depth hdistinct he).mp hready⟩
  · rintro ⟨he, hdepth⟩
    have hwaits : e ∈ waiting := h.mem_waiting_iff.mpr ⟨he, hdepth.ge⟩
    exact ⟨hwaits, (h.isReady_iff_depth hdistinct hwaits).mpr hdepth⟩

/-- A round takes placing one depth further. -/
lemma next : AtDepth entities (k + 1)
    (placed ++ (nextRound (entities.map (·.id)) placed waiting).map (·.id))
    (laterRounds (entities.map (·.id)) placed waiting) := by
  refine ⟨fun b hb => ?_, ?_⟩
  · have hround : b.id ∈ (nextRound (entities.map (·.id)) placed waiting).map (·.id) ↔
        depth entities b = k := by
      constructor
      · intro hmem
        obtain ⟨x, hx, hid⟩ := List.mem_map.mp hmem
        obtain ⟨hx, hdepth⟩ := (h.mem_nextRound_iff hdistinct).mp hx
        rwa [← List.inj_on_of_nodup_map hdistinct hx hb hid]
      · exact fun hdepth => List.mem_map_of_mem ((h.mem_nextRound_iff hdistinct).mpr ⟨hb, hdepth⟩)
    rw [List.mem_append, h.placed_iff b hb, hround, ← le_iff_lt_or_eq, Nat.cast_succ,
      ENat.lt_add_one_iff (ENat.natCast_ne_top k)]
  · have hlater : laterRounds (entities.map (·.id)) placed waiting =
        waiting.filter (depth entities · ≠ k) :=
      List.filter_congr fun e he => by
        have hready := h.isReady_iff_depth hdistinct he
        by_cases hdepth : depth entities e = k <;> simp_all
    rw [hlater, h.waiting_eq, List.filter_filter]
    refine List.filter_congr fun e _ => ?_
    rw [← Bool.decide_and, decide_eq_decide, Nat.cast_succ,
      ENat.add_one_le_iff (ENat.natCast_ne_top k), lt_iff_le_and_ne, and_comm, ne_comm]

/-- When no round is left, what waits is caught. -/
lemma caught_of_stuck (hdone : nextRound (entities.map (·.id)) placed waiting = []) (he : e ∈ waiting) :
    Caught entities e := by
  obtain ⟨hmem, hwaits⟩ := h.mem_waiting_iff.mp he
  rw [← depth_eq_top_iff]
  by_contra hfinite
  obtain ⟨n, hn⟩ := ENat.ne_top_iff_exists.mp hfinite
  rw [← hn, Nat.cast_le] at hwaits
  obtain ⟨m, rfl⟩ := Nat.exists_eq_add_of_le hwaits
  obtain ⟨b, hb, hdepth⟩ := exists_depth_eq hdistinct hmem hn.symm
  have hround := (h.mem_nextRound_iff hdistinct).mpr ⟨hb, hdepth⟩
  rw [hdone] at hround
  exact List.not_mem_nil hround

end AtDepth

/-- From any depth on, rounds sort what waits. -/
lemma placeBases_isStableSort (h : AtDepth entities k placed waiting) :
    IsStableSort (depth entities) waiting (placeBases (entities.map (·.id)) placed waiting) := by
  induction placed, waiting using placeBases.induct (entities.map (·.id)) generalizing k with
  | case1 placed waiting done =>
    rw [placeBases, dif_pos done]
    exact isStableSort_of_const fun e he => depth_eq_top_iff.mpr (h.caught_of_stuck hdistinct done he)
  | case2 placed waiting done ih =>
    rw [placeBases, dif_neg done]
    exact (ih (h.next hdistinct)).prepend (fun e he => (h.mem_waiting_iff.mp he).2)
      fun e he => h.isReady_iff_depth hdistinct he

lemma basesFirst_isStableSort :
    IsStableSort (depth entities) entities (basesFirst entities) :=
  placeBases_isStableSort hdistinct (atDepth_zero entities)

end Rounds

open Classical in
/-- Putting bases first is a stable sort by depth. The entities that are caught in a circle come last, in
the order in which they are listed, and of the others each comes after its base, where that is listed. -/
theorem bases_are_placed_by_depth (hdistinct : (entities.map (·.id)).Nodup) :
    IsStableSort (depth entities) entities (basesFirst entities) ∧
    (∃ settled, (∀ e ∈ settled, ¬ Caught entities e) ∧
      basesFirst entities = settled ++ entities.filter (Caught entities ·)) ∧
    ∀ before e after, basesFirst entities = before ++ e :: after → ¬ Caught entities e →
      ∀ b, OwnBase entities e b → b ∈ before := by
  have hsort := basesFirst_isStableSort hdistinct
  refine ⟨hsort, ⟨(basesFirst entities).filter (depth entities · ≠ ⊤), fun e he => ?_, ?_⟩,
    fun before e after h hfree b hb => ?_⟩
  · simpa [depth_eq_top_iff] using (List.mem_filter.mp he).2
  · have hcaught : entities.filter (Caught entities ·) = entities.filter (depth entities · = ⊤) :=
      List.filter_congr fun e _ => decide_eq_decide.mpr depth_eq_top_iff.symm
    rw [hcaught]
    exact hsort.greatest_last fun _ => le_top
  · have hlt := depth_lt_of_ownBase hdistinct hfree hb
    have hordered := hsort.ordered
    have hmem : b ∈ basesFirst entities := mem_basesFirst.mpr hb.1
    rw [h] at hordered hmem
    obtain hbefore | rfl | hafter := by simpa using hmem
    · exact hbefore
    · exact absurd hlt (lt_irrefl _)
    · have hle := (List.pairwise_cons.mp (List.pairwise_append.mp hordered).2.1).1 b hafter
      exact absurd hlt hle.not_gt

namespace MixedBatch

def low : Entity := { Entity.ofName "Low" "Low" with base := some "Middle" }

def left : Entity := { Entity.ofName "Left" "Left" with base := some "Right" }

def middle : Entity := { Entity.ofName "Middle" "Middle" with base := some "Top" }

def right : Entity := { Entity.ofName "Right" "Right" with base := some "Left" }

def other : Entity := { Entity.ofName "Other" "Other" with base := some "Elsewhere" }

def top : Entity := Entity.ofName "Top" "Top"

/-- A chain of bases from its end on, two entities that are derived from each other, and one whose base is
not listed. -/
def batch : List Entity := [low, left, middle, right, other, top]

lemma nodup_ids : (batch.map (·.id)).Nodup := by decide

lemma depth_low : depth batch low = 2 := by
  have hmiddle : OwnBase batch low middle := ⟨by simp [batch], rfl⟩
  have htop : OwnBase batch middle top := ⟨by simp [batch], rfl⟩
  have hroot : ∀ b, ¬ OwnBase batch top b := by
    rintro b ⟨-, hbase⟩
    cases hbase
  rw [depth_of_ownBase nodup_ids hmiddle, depth_of_ownBase nodup_ids htop, depth_of_root hroot]
  rfl

lemma caught_left : Caught batch left := by
  have hright : OwnBase batch left right := ⟨by simp [batch], rfl⟩
  have hleft : OwnBase batch right left := ⟨by simp [batch], rfl⟩
  exact ⟨left, .refl, .tail (.single hright) hleft⟩

open Classical in
theorem bases_are_placed_by_depth_mixed :
    depth batch low = 2 ∧ Caught batch left ∧
      IsStableSort (depth batch) batch (basesFirst batch) ∧
      (∃ settled, basesFirst batch = settled ++ batch.filter (Caught batch ·)) ∧
      basesFirst batch = [other, top, middle] ++ low :: [left, right] ∧
      middle ∈ [other, top, middle] := by
  obtain ⟨hsort, ⟨settled, -, hlast⟩, hbehind⟩ := bases_are_placed_by_depth nodup_ids
  have hplaced : basesFirst batch = [other, top, middle] ++ low :: [left, right] := by cbv
  have hfree : ¬ Caught batch low := by
    rw [← depth_eq_top_iff, depth_low]
    exact ENat.natCast_ne_top 2
  exact ⟨depth_low, caught_left, hsort, ⟨settled, hlast⟩, hplaced,
    hbehind _ _ _ hplaced hfree middle ⟨by simp [batch], rfl⟩⟩

end MixedBatch

end EntityModel.ModelSource
