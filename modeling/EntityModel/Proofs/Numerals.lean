import EntityModel.Json.Printer
import EntityModel.Json.Token
import Mathlib.Data.List.TakeWhile

/-!
# Numbers that are written are read

The digits of a number below `UInt64.size` make one token, which stands for that number. It is read as a
whole number, since its double is far below the largest one.
-/

namespace EntityModel.Json

lemma digitValue_digitChar : ∀ d < 10, digitValue d.digitChar = d := by decide

lemma isDigit_digitChar : ∀ d < 10, d.digitChar.isDigit = true := by decide

lemma digitChar_ne_zero : ∀ d < 10, d ≠ 0 → d.digitChar ≠ '0' := by decide

lemma ne_of_isDigit {c d : Char} (hc : c.isDigit = true) (hd : d.isDigit = false) : c ≠ d := by
  rintro rfl
  rw [hc] at hd
  cases hd

lemma digits_of_lt {n : Nat} (h : n < 10) : digits n = [n.digitChar] := by
  rw [digits, if_pos h]

lemma digits_of_ge {n : Nat} (h : ¬ n < 10) : digits n = digits (n / 10) ++ [(n % 10).digitChar] := by
  rw [digits, if_neg h]

lemma isDigit_of_mem_digits (n : Nat) : ∀ c ∈ digits n, c.isDigit = true := by
  induction n using digits.induct with
  | case1 n h =>
    rw [digits_of_lt h]
    intro c hc
    rw [List.mem_singleton.mp hc]
    exact isDigit_digitChar n h
  | case2 n h ih =>
    rw [digits_of_ge h]
    intro c hc
    rcases List.mem_append.mp hc with hc | hc
    · exact ih c hc
    · rw [List.mem_singleton.mp hc]
      exact isDigit_digitChar _ (Nat.mod_lt _ (by decide))

lemma digits_ne_nil (n : Nat) : digits n ≠ [] := by
  rw [digits]
  split <;> simp

/-- What the digits of a number say is the number. -/
theorem natOfDigits_digits (n : Nat) : natOfDigits (digits n) = n := by
  induction n using digits.induct with
  | case1 n h =>
    rw [digits_of_lt h]
    simpa [natOfDigits] using digitValue_digitChar n h
  | case2 n h ih =>
    have hlast := digitValue_digitChar (n % 10) (Nat.mod_lt _ (by decide))
    unfold natOfDigits at ih ⊢
    rw [digits_of_ge h, List.foldl_append, ih, List.foldl_cons, List.foldl_nil, hlast]
    omega

/-! ### The grammar of numbers -/

lemma next_whole {c : Char} (hc : c.isDigit = true) : NumberPart.next .whole c = .whole := by
  simp [NumberPart.next, hc]

/-- The digits of a number are a number in the grammar: no zero stands in front of others. -/
theorem ofChars_digits (n : Nat) :
    NumberPart.ofChars (digits n) = if n = 0 then .zero else .whole := by
  induction n using digits.induct with
  | case1 n h =>
    rw [digits_of_lt h]
    have hdigit := isDigit_digitChar n h
    change NumberPart.next .start n.digitChar = _
    have hsign : n.digitChar ≠ '-' := ne_of_isDigit hdigit (by decide)
    by_cases hn : n = 0
    · subst hn
      rfl
    · have hlead := digitChar_ne_zero n h hn
      simp [NumberPart.next, NumberPart.next.lead, hn, hsign, hdigit, hlead]
  | case2 n h ih =>
    have hn : n ≠ 0 := by omega
    have hhigh : n / 10 ≠ 0 := by omega
    rw [if_neg hhigh] at ih
    unfold NumberPart.ofChars at ih ⊢
    rw [digits_of_ge h, List.foldl_append, ih, if_neg hn]
    exact next_whole (isDigit_digitChar _ (Nat.mod_lt _ (by decide)))

/-! ### The value of a number -/

lemma roundSignificant_le (n : Nat) : roundSignificant n ≤ 2 * n := by
  by_cases hn : n = 0
  · subst hn
    decide
  have hunit : Nat.pow 2 (n.log2 - 52) ≤ n :=
    (Nat.pow_le_pow_right (by decide) (Nat.sub_le _ _)).trans (Nat.log2_self_le hn)
  unfold roundSignificant
  dsimp only
  generalize Nat.pow 2 (n.log2 - 52) = unit at hunit
  have hdown := Nat.div_mul_le_self n unit
  split
  · rw [Nat.add_mul]
    omega
  · omega

lemma le_foldl_digits (n : Nat) (word : List Char) :
    n ≤ word.foldl (fun n c => 10 * n + digitValue c) n := by
  induction word generalizing n with
  | nil => exact Nat.le_refl n
  | cons c word ih => exact Nat.le_trans (by omega) (ih (10 * n + digitValue c))

lemma takeDigits_eq {n : Nat} {word : List Char}
    (h : word.foldl (fun n c => 10 * n + digitValue c) n < UInt64.size) :
    takeDigits n word = (word.foldl (fun n c => 10 * n + digitValue c) n, []) := by
  induction word generalizing n with
  | nil => rfl
  | cons c word ih =>
    have hfirst : 10 * n + digitValue c < UInt64.size := (le_foldl_digits _ word).trans_lt h
    rw [takeDigits, if_pos hfirst, List.foldl_cons]
    exact ih h

lemma exceedsDoubles_of_lt {n : Nat} (h : n < UInt64.size) : exceedsDoubles n 0 = false := by
  have hround := roundSignificant_le n
  have hone : roundSignificant 1 = 1 := by decide
  have hlimit : 2 * UInt64.size < doubleLimit := by decide +kernel
  have hbelow : roundSignificant n * roundSignificant 1 < doubleLimit := by
    rw [hone]
    omega
  simp [exceedsDoubles, hbelow]

lemma intOfChars_of_isDigit {word : List Char} (hdigit : ∀ c ∈ word, c.isDigit = true) :
    intOfChars word = natOfDigits word := by
  unfold intOfChars
  split
  · exact absurd (hdigit '-' List.mem_cons_self) (by decide)
  · exact absurd (hdigit '+' List.mem_cons_self) (by decide)
  · rfl

/-- The digits of a number below `UInt64.size` stand for the number. -/
theorem ofNumber_digits {n : Nat} (h : n < UInt64.size) : ofNumber (digits n) = .int n := by
  have hdigit := isDigit_of_mem_digits n
  have hmark : ∀ c ∈ digits n, (!(decide (c = 'e') || decide (c = 'E'))) = true := by
    intro c hc
    have he : c ≠ 'e' := ne_of_isDigit (hdigit c hc) (by decide)
    have hE : c ≠ 'E' := ne_of_isDigit (hdigit c hc) (by decide)
    simp [he, hE]
  have hpoint : ∀ c ∈ digits n, decide (c ≠ '.') = true := fun c hc =>
    decide_eq_true (ne_of_isDigit (hdigit c hc) (by decide))
  have hall : (digits n).all (fun c => c.isDigit || decide (c = '-')) = true :=
    List.all_eq_true.mpr fun c hc => by rw [hdigit c hc, Bool.true_or]
  have hminus : digits n ≠ ['-', '0'] := by
    intro heq
    exact absurd (hdigit '-' (by rw [heq]; exact List.mem_cons_self)) (by decide)
  have htake : takeDigits 0 (digits n) = (n, []) := by
    have hvalue := natOfDigits_digits n
    unfold natOfDigits at hvalue
    rw [takeDigits_eq (by rw [hvalue]; exact h), hvalue]
  have hscaled : scaledDigits (digits n) [] 0 = (n, 0) := by
    unfold scaledDigits
    rw [htake]
    rfl
  have hempty : intOfChars ([] : List Char) = 0 := rfl
  unfold ofNumber
  simp only [List.takeWhile_eq_self_iff.mpr hmark, List.dropWhile_eq_nil_iff.mpr hmark,
    List.takeWhile_eq_self_iff.mpr hpoint, List.dropWhile_eq_nil_iff.mpr hpoint, List.drop_nil,
    List.filter_eq_self.mpr hdigit, hempty, hscaled, exceedsDoubles_of_lt h, hall]
  rw [intOfChars_of_isDigit hdigit, natOfDigits_digits]
  simp [hminus]

/-! ### Numbers as tokens -/

lemma isWordChar_of_isDigit {c : Char} (hc : c.isDigit = true) : LexState.isWordChar c = true := by
  simp [LexState.isWordChar, Char.isAlphanum, hc]

lemma wordToken_digits {n : Nat} (h : n < UInt64.size) : wordToken (digits n) = .scalar (.int n) := by
  have hne {word : String} {c : Char} (hmem : c ∈ word.toList) (hc : c.isDigit = false) :
      digits n ≠ word.toList := by
    intro heq
    have hdigit := isDigit_of_mem_digits n c (heq ▸ hmem)
    rw [hc] at hdigit
    cases hdigit
  unfold wordToken
  rw [if_neg (hne (c := 'n') (by decide) (by decide)),
    if_neg (hne (c := 't') (by decide) (by decide)),
    if_neg (hne (c := 'f') (by decide) (by decide)), ofChars_digits, ofNumber_digits h]
  by_cases hn : n = 0
  · rw [if_pos hn]
  · rw [if_neg hn]

lemma lastWordToken_digits {n : Nat} (h : n < UInt64.size) :
    lastWordToken (digits n) = .scalar (.int n) := by
  unfold lastWordToken
  rw [ofChars_digits, wordToken_digits h]
  by_cases hn : n = 0
  · rw [if_pos hn]
  · rw [if_neg hn]

end EntityModel.Json
