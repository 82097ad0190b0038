import Mathlib.Data.List.Induction

/-!
# Computations that may fail

Successful runs of checks and loops, read backwards: a chain of steps succeeds when each step does,
and a loop that checks its elements and collects them returns all of them.
-/

namespace EntityModel

variable {ε α β : Type}

lemma bind_eq_ok_iff {x : Except ε α} {f : α → Except ε β} {b : β} :
    (x >>= f) = .ok b ↔ ∃ a, x = .ok a ∧ f a = .ok b := by
  cases x with
  | error e => exact ⟨fun h => (nomatch h), fun ⟨_, h, _⟩ => (nomatch h)⟩
  | ok a => exact ⟨fun h => ⟨a, rfl, h⟩, fun ⟨_, h, hf⟩ => by cases h; exact hf⟩

lemma exists_eq_ok {x : Except ε α} (h : x.toOption.isSome) : ∃ a, x = .ok a := by
  cases x with
  | error err => cases h
  | ok a => exact ⟨a, rfl⟩

/-- A computation that succeeds, found by what its result shows. -/
lemma exists_ok_of_map {x : Except ε α} {f : α → β} {b : β} (h : x.toOption.map f = some b) :
    ∃ a, x = .ok a ∧ f a = b := by
  cases x with
  | error err => cases h
  | ok a => exact ⟨a, rfl, Option.some.inj h⟩

lemma foldlM_keeps {P : β → Prop} {f : β → α → Except ε β} {l : List α} {b b' : β}
    (hstep : ∀ b a b', a ∈ l → P b → f b a = .ok b' → P b') (hb : P b)
    (h : l.foldlM f b = .ok b') : P b' := by
  induction l generalizing b with
  | nil =>
    cases h
    exact hb
  | cons a l ih =>
    rw [List.foldlM_cons, bind_eq_ok_iff] at h
    obtain ⟨c, hc, h⟩ := h
    exact ih (fun b x b' hx => hstep b x b' (List.mem_cons_of_mem _ hx))
      (hstep b a c List.mem_cons_self hb hc) h

/-- Runs whose first steps look alike, seen through `f`, look alike when the rest of them does. -/
lemma map_bind_congr {γ δ : Type} {x y : Except ε α} {f : α → γ} {g : β → δ}
    {next next' : α → Except ε β} (hfirst : x.map f = y.map f)
    (hnext : ∀ a b, x = .ok a → y = .ok b → f a = f b → (next a).map g = (next' b).map g) :
    (x >>= next).map g = (y >>= next').map g := by
  cases x with
  | error err =>
    cases y with
    | error err' =>
      cases hfirst
      rfl
    | ok b => cases hfirst
  | ok a =>
    cases y with
    | error err => cases hfirst
    | ok b => exact hnext a b rfl rfl (Except.ok.inj hfirst)

/-- The errors with which a computation may fail are of a kind. -/
def FailsWith (P : ε → Prop) (x : Except ε α) : Prop := ∀ err, x = .error err → P err

section FailsWith

variable {P : ε → Prop}

lemma failsWith_ok (a : α) : FailsWith P (.ok a) := fun _ h => (nomatch h)

lemma failsWith_error {err : ε} (h : P err) : FailsWith P (.error err : Except ε α) := by
  intro err' heq
  cases heq
  exact h

lemma FailsWith.mono {Q : ε → Prop} {x : Except ε α} (hx : FailsWith P x)
    (h : ∀ err, P err → Q err) : FailsWith Q x :=
  fun err herr => h err (hx err herr)

lemma FailsWith.bind {x : Except ε α} {f : α → Except ε β} (hx : FailsWith P x)
    (hf : ∀ a, FailsWith P (f a)) : FailsWith P (x >>= f) := by
  cases x with
  | error err =>
    intro err' h
    cases h
    exact hx err rfl
  | ok a => exact hf a

lemma failsWith_foldlM {f : β → α → Except ε β} (h : ∀ b a, FailsWith P (f b a)) (l : List α)
    (b : β) : FailsWith P (l.foldlM f b) := by
  induction l generalizing b with
  | nil => exact failsWith_ok b
  | cons a l ih =>
    rw [List.foldlM_cons]
    exact (h b a).bind ih

end FailsWith

section Lookup

variable {γ : Type} {f : α → γ} {g : β → γ} {a : Option α} {b : Option β}

lemma exists_of_map_eq_map (h : a.map f = b.map g) {x : α} (hx : a = some x) :
    ∃ y, b = some y ∧ f x = g y := by
  rw [hx, Option.map_some, eq_comm, Option.map_eq_some_iff] at h
  obtain ⟨y, hy, hsame⟩ := h
  exact ⟨y, hy, hsame.symm⟩

lemma eq_none_of_map_eq_map (h : a.map f = b.map g) (hnone : a = none) : b = none := by
  rwa [hnone, Option.map_none, eq_comm, Option.map_eq_none_iff] at h

end Lookup

lemma mapM_succeeds_iff {f : α → Except ε β} {l : List α} :
    (∃ bs, l.mapM f = .ok bs) ↔ ∀ a ∈ l, ∃ b, f a = .ok b := by
  induction l with
  | nil => exact ⟨fun _ a ha => absurd ha List.not_mem_nil, fun _ => ⟨[], rfl⟩⟩
  | cons a l ih =>
    rw [List.forall_mem_cons, ← ih]
    constructor
    · rintro ⟨bs, h⟩
      rw [List.mapM_cons, bind_eq_ok_iff] at h
      obtain ⟨b, hb, h⟩ := h
      obtain ⟨bs, hbs, -⟩ := bind_eq_ok_iff.mp h
      exact ⟨⟨b, hb⟩, bs, hbs⟩
    · rintro ⟨⟨b, hb⟩, bs, hbs⟩
      refine ⟨b :: bs, ?_⟩
      rw [List.mapM_cons, hb, hbs]
      rfl

/-- A loop over steps that fail alike where a condition does not hold. -/
lemma mapM_eq_ite {f : α → Except ε β} {g : α → β} {p : α → Prop} [DecidablePred p] {err : ε}
    {l : List α} (h : ∀ a ∈ l, f a = if p a then .ok (g a) else .error err) :
    l.mapM f = if ∀ a ∈ l, p a then .ok (l.map g) else .error err := by
  induction l with
  | nil => rfl
  | cons a l ih =>
    rw [List.mapM_cons, h a List.mem_cons_self, ih fun b hb => h b (List.mem_cons_of_mem _ hb)]
    by_cases ha : p a
    · by_cases hl : ∀ b ∈ l, p b
      · rw [if_pos ha, if_pos hl, if_pos (List.forall_mem_cons.mpr ⟨ha, hl⟩)]
        rfl
      · rw [if_pos ha, if_neg hl, if_neg fun hall => hl (List.forall_mem_cons.mp hall).2]
        rfl
    · rw [if_neg ha, if_neg fun hall => ha (List.forall_mem_cons.mp hall).1]
      rfl

/-- The places of a list with one more element are those of the list and the last one. -/
lemma forall_split_concat {P : List α → α → Prop} {l : List α} {a : α} :
    (∀ before b after, l ++ [a] = before ++ b :: after → P before b) ↔
      (∀ before b after, l = before ++ b :: after → P before b) ∧ P l a := by
  constructor
  · intro h
    exact ⟨fun before b after he => h before b (after ++ [a]) (by simp [he]), h l a [] rfl⟩
  · rintro ⟨hl, ha⟩ before b after he
    rcases List.eq_nil_or_concat after with rfl | ⟨after, c, rfl⟩
    · obtain ⟨rfl, hb⟩ := List.append_inj' he rfl
      rwa [← List.singleton_inj.mp hb]
    · rw [List.concat_eq_append, ← List.cons_append, ← List.append_assoc] at he
      exact hl before b after (List.append_inj' he rfl).1

lemma forall_split_map {f : α → β} {P : List β → β → Prop} {l : List α} :
    (∀ before b after, l.map f = before ++ b :: after → P before b) ↔
      ∀ before a after, l = before ++ a :: after → P (before.map f) (f a) := by
  constructor
  · rintro h before a after rfl
    exact h _ _ (after.map f) (by simp)
  · intro h before b after he
    obtain ⟨before, rest, rfl, rfl, hrest⟩ := List.map_eq_append_iff.mp he
    obtain ⟨a, after, rfl, rfl, -⟩ := List.map_eq_cons_iff.mp hrest
    exact h before a after rfl

/-- A loop that checks every element against what has been collected, and collects it. -/
lemma foldlM_collect_iff (check : List β → α → Except ε Unit) (g : α → β) (l : List α)
    (collected : List β) :
    l.foldlM (fun acc a => check acc a >>= fun _ => .ok (acc ++ [g a])) [] = .ok collected ↔
      collected = l.map g ∧ ∀ before a after, l = before ++ a :: after →
        check (before.map g) a = .ok () := by
  induction l using List.reverseRecOn generalizing collected with
  | nil =>
    constructor
    · intro h
      cases h
      exact ⟨rfl, fun before a after h => absurd h (by simp)⟩
    · rintro ⟨rfl, -⟩
      rfl
  | append_singleton l a ih =>
    simp only [List.foldlM_append, List.foldlM_cons, List.foldlM_nil, bind_eq_ok_iff, ih,
      forall_split_concat]
    constructor
    · rintro ⟨_, ⟨rfl, hall⟩, _, ⟨⟨⟩, hcheck, hpush⟩, h⟩
      cases hpush
      cases h
      exact ⟨by simp, hall, hcheck⟩
    · rintro ⟨rfl, hall, hcheck⟩
      exact ⟨_, ⟨rfl, hall⟩, _, ⟨(), hcheck, rfl⟩, by simp [pure, Except.pure]⟩

lemma nodup_map_iff_split {γ : Type} {key : α → γ} {l : List α} :
    (l.map key).Nodup ↔ ∀ before a after, l = before ++ a :: after →
      ∀ b ∈ before, key b ≠ key a := by
  induction l using List.reverseRecOn with
  | nil => simp
  | append_singleton l a ih =>
    rw [forall_split_concat, ← ih, List.map_append, List.nodup_append]
    simp

end EntityModel
