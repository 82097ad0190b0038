import EntityModel.TypeReference
import Mathlib.Data.String.Basic
import Mathlib.Tactic.MkIffOfInductiveProp

/-!
# Names of nullable types

A pattern says which names are nullable and what they wrap. Its alternatives overlap as texts, and what
is wrapped may be of one of their forms again; but how a name begins and ends tells the alternative,
and with it the name within. So a name is classified by the forms that it may have, and what has been
wrapped is got back.
-/

namespace EntityModel.NativeName

/-! ### Patterns -/

/-- A pattern of texts. A group captures what it matches. -/
inductive Pattern where
  | text (s : String)
  /-- One admitted character or more. -/
  | many (admits : Char → Bool)
  | group (p : Pattern)
  | sequence (p q : Pattern)
  | either (p q : Pattern)
  | optional (p : Pattern)

/-- A pattern may match a text as a whole so that its groups capture some texts, in their order. -/
def Pattern.Matches : Pattern → List Char → List (List Char) → Prop
  | text s, name, captured => name = s.toList ∧ captured = []
  | many admits, name, captured => name ≠ [] ∧ (∀ c ∈ name, admits c = true) ∧ captured = []
  | group p, name, captured => ∃ within, p.Matches name within ∧ captured = name :: within
  | sequence p q, name, captured => ∃ first second captured₁ captured₂,
      p.Matches first captured₁ ∧ q.Matches second captured₂ ∧ name = first ++ second ∧
        captured = captured₁ ++ captured₂
  | either p q, name, captured => p.Matches name captured ∨ q.Matches name captured
  | optional p, name, captured => (name = [] ∧ captured = []) ∨ p.Matches name captured

def notLineFeed (c : Char) : Bool := c ≠ '\n'

/-- Neither a question mark nor a bracket. -/
def isPlain (c : Char) : Bool := c ≠ '?' && c ≠ '<' && c ≠ '>'

/-- The names of nullable types: `Nullable<T>`, also with `System.` before it, `Option<T>` and `T?`. -/
def nullable : Pattern :=
  .either
    (.sequence (.optional (.text "System."))
      (.sequence (.text "Nullable<") (.sequence (.group (.many notLineFeed)) (.text ">"))))
    (.either (.sequence (.text "Option<") (.sequence (.group (.many notLineFeed)) (.text ">")))
      (.sequence (.group (.many isPlain)) (.text "?")))

/-! ### The grammar of wrappers -/

/-- A name wraps another one that is not empty: in brackets when that is on one line, or before a
question mark when it has no question mark and no bracket itself. -/
@[mk_iff]
inductive Wraps (inner : String) : String → Prop
  | bracketed {opening : String}
      (hopening : opening = "Nullable<" ∨ opening = "System.Nullable<" ∨ opening = "Option<")
      (hinner : inner ≠ "") (hline : '\n' ∉ inner.toList) : Wraps inner (opening ++ inner ++ ">")
  | questioned (hinner : inner ≠ "")
      (hplain : ∀ c ∈ inner.toList, c ≠ '?' ∧ c ≠ '<' ∧ c ≠ '>') : Wraps inner (inner ++ "?")

variable {name inner inner' opening opening' rest rest' : String} {chars before within : List Char}

lemma getLast?_and_dropLast_iff {c : Char} :
    chars.getLast? = some c ∧ chars.dropLast = within ↔ chars = within ++ [c] := by
  constructor
  · rintro ⟨hlast, rfl⟩
    obtain ⟨rest, rfl⟩ := List.getLast?_eq_some_iff.mp hlast
    rw [List.dropLast_concat]
  · rintro rfl
    exact ⟨List.getLast?_concat, List.dropLast_concat⟩

/-- What stands before a last character, if it is something and admitted. -/
lemma before_last_eq_some_iff {c : Char} {p : List Char → Prop} [DecidablePred p] :
    (if chars.getLast? = some c ∧ chars.dropLast ≠ [] ∧ p chars.dropLast then some chars.dropLast
      else none) = some within ↔ chars = within ++ [c] ∧ within ≠ [] ∧ p within := by
  rw [← getLast?_and_dropLast_iff]
  split
  · next h =>
    rw [Option.some.injEq]
    exact ⟨fun hwithin => ⟨⟨h.1, hwithin⟩, hwithin ▸ h.2⟩, fun hwithin => hwithin.1.2⟩
  · next h =>
    refine ⟨nofun, fun ⟨⟨hlast, hwithin⟩, hadmitted⟩ => absurd ⟨hlast, ?_⟩ h⟩
    rwa [hwithin]

lemma bracketed?_eq_some_iff : bracketed? before chars = some within ↔
    chars = before ++ within ++ ['>'] ∧ within ≠ [] ∧ '\n' ∉ within := by
  unfold bracketed?
  by_cases hbefore : before <+: chars
  · obtain ⟨rest, rfl⟩ := hbefore
    rw [if_pos (List.isPrefixOf_iff_prefix.mpr (List.prefix_append before rest)),
      List.append_assoc, List.append_cancel_left_eq]
    dsimp only
    rw [List.drop_left]
    exact before_last_eq_some_iff (p := fun inner => '\n' ∉ inner)
  · rw [if_neg (mt List.isPrefixOf_iff_prefix.mp hbefore)]
    refine ⟨nofun, fun ⟨hchars, _⟩ => absurd ?_ hbefore⟩
    rw [hchars, List.append_assoc]
    exact List.prefix_append _ _

lemma questioned?_eq_some_iff : questioned? chars = some within ↔
    chars = within ++ ['?'] ∧ within ≠ [] ∧ ∀ c ∈ within, isPlain c = true := by
  simp only [← List.all_eq_true]
  exact before_last_eq_some_iff (p := fun inner => inner.all isPlain = true)

lemma mem_openings : opening ∈ openings ↔
    opening = "Nullable<" ∨ opening = "System.Nullable<" ∨ opening = "Option<" := by
  simp only [openings, List.mem_cons, List.not_mem_nil, or_false]
  tauto

/-- The first character tells the openings from each other. -/
lemma opening_unique (hopening : opening ∈ openings) (hopening' : opening' ∈ openings)
    (hname : opening ++ rest = opening' ++ rest') : opening = opening' := by
  have hfirst := congrArg (·.toList.head?) hname
  rcases mem_openings.mp hopening with rfl | rfl | rfl <;>
    rcases mem_openings.mp hopening' with rfl | rfl | rfl <;>
    first | rfl | simp at hfirst

/-- The last character tells brackets from a question mark. -/
lemma bracket_ne_question : rest ++ ">" ≠ rest' ++ "?" := by
  intro hname
  have hlast := congrArg (·.toList.getLast?) hname
  simp at hlast

theorem Wraps.unique (h : Wraps inner name) (h' : Wraps inner' name) : inner = inner' := by
  rw [wraps_iff] at h h'
  rcases h with ⟨opening, hopening, -, -, rfl⟩ | ⟨-, -, rfl⟩
  · rcases h' with ⟨opening', hopening', -, -, hname⟩ | ⟨-, -, hname⟩
    · rw [String.append_assoc, String.append_assoc] at hname
      obtain rfl := opening_unique (mem_openings.mpr hopening) (mem_openings.mpr hopening') hname
      simpa using hname
    · exact absurd hname bracket_ne_question
  · rcases h' with ⟨opening', -, -, -, hname⟩ | ⟨-, -, hname⟩
    · exact absurd hname.symm bracket_ne_question
    · simpa using hname

/-! ### Classification -/

lemma bracketed?_toList_eq_some_iff : bracketed? opening.toList name.toList = some inner.toList ↔
    name = opening ++ inner ++ ">" ∧ inner ≠ "" ∧ '\n' ∉ inner.toList := by
  rw [bracketed?_eq_some_iff, ← String.toList_inj]
  simp

lemma questioned?_toList_eq_some_iff : questioned? name.toList = some inner.toList ↔
    name = inner ++ "?" ∧ inner ≠ "" ∧ ∀ c ∈ inner.toList, c ≠ '?' ∧ c ≠ '<' ∧ c ≠ '>' := by
  rw [questioned?_eq_some_iff, ← String.toList_inj]
  simp [isPlain, and_assoc]

lemma wraps_iff_exists : Wraps inner name ↔
    (∃ opening ∈ openings, bracketed? opening.toList name.toList = some inner.toList) ∨
      questioned? name.toList = some inner.toList := by
  simp only [wraps_iff, bracketed?_toList_eq_some_iff, questioned?_toList_eq_some_iff, mem_openings]
  refine or_congr (exists_congr fun opening => ?_) ?_ <;> tauto

lemma Wraps.of_wrapped? (h : wrapped? name = some inner) : Wraps inner name := by
  obtain ⟨within, hwithin, rfl⟩ := Option.map_eq_some_iff.mp h
  rw [wraps_iff_exists, String.toList_ofList]
  rcases Option.or_eq_some_iff.mp hwithin with hopenings | ⟨-, hquestioned⟩
  · exact .inl (List.exists_of_findSome?_eq_some hopenings)
  · exact .inr hquestioned

lemma Wraps.wrapped?_ne_none (h : Wraps inner name) : wrapped? name ≠ none := by
  intro hnone
  obtain ⟨hopenings, hquestioned⟩ := Option.or_eq_none_iff.mp (Option.map_eq_none_iff.mp hnone)
  rcases wraps_iff_exists.mp h with ⟨opening, hopening, hinner⟩ | hinner
  · exact Option.some_ne_none _ (hinner.symm.trans (List.findSome?_eq_none_iff.mp hopenings _ hopening))
  · exact Option.some_ne_none _ (hinner.symm.trans hquestioned)

/-- What is found to be wrapped is so, and what is wrapped is found: there is only one such text. -/
theorem wrapped?_eq_some_iff : wrapped? name = some inner ↔ Wraps inner name := by
  refine ⟨.of_wrapped?, fun h => ?_⟩
  obtain ⟨found, hfound⟩ := Option.ne_none_iff_exists'.mp h.wrapped?_ne_none
  rw [hfound, (Wraps.of_wrapped? hfound).unique h]

/-! ### The pattern matches the grammar -/

section Matching

variable {p : Pattern} {admits : Char → Bool} {s : String} {captured : List (List Char)}

lemma Pattern.matches_either {q : Pattern} :
    (either p q).Matches chars captured ↔ p.Matches chars captured ∨ q.Matches chars captured :=
  Iff.rfl

lemma Pattern.matches_text_sequence : (sequence (text s) p).Matches chars captured ↔
    ∃ rest, chars = s.toList ++ rest ∧ p.Matches rest captured := by
  constructor
  · rintro ⟨_, rest, _, _, ⟨rfl, rfl⟩, hrest, hchars, hcaptured⟩
    exact ⟨rest, hchars, hcaptured ▸ hrest⟩
  · rintro ⟨rest, hchars, hrest⟩
    exact ⟨_, rest, _, _, ⟨rfl, rfl⟩, hrest, hchars, rfl⟩

lemma Pattern.matches_text_text_sequence {t : String} :
    (sequence (text s) (sequence (text t) p)).Matches chars captured ↔
      (sequence (text (s ++ t)) p).Matches chars captured := by
  simp only [matches_text_sequence, String.toList_append, List.append_assoc]
  constructor
  · rintro ⟨_, rfl, rest, rfl, hrest⟩
    exact ⟨rest, rfl, hrest⟩
  · rintro ⟨rest, rfl, hrest⟩
    exact ⟨_, rfl, rest, rfl, hrest⟩

lemma Pattern.matches_optional_sequence : (sequence (optional (text s)) p).Matches chars captured ↔
    p.Matches chars captured ∨ (sequence (text s) p).Matches chars captured := by
  constructor
  · rintro ⟨_, rest, _, _, ⟨rfl, rfl⟩ | hfirst, hrest, rfl, rfl⟩
    · exact .inl hrest
    · exact .inr ⟨_, rest, _, _, hfirst, hrest, rfl, rfl⟩
  · rintro (hrest | ⟨_, rest, _, _, hfirst, hrest, hchars, hcaptured⟩)
    · exact ⟨[], chars, [], captured, .inl ⟨rfl, rfl⟩, hrest, rfl, rfl⟩
    · exact ⟨_, rest, _, _, .inr hfirst, hrest, hchars, hcaptured⟩

lemma Pattern.matches_group_text : (sequence (group (many admits)) (text s)).Matches chars captured ↔
    ∃ inner : String, chars = inner.toList ++ s.toList ∧ inner ≠ "" ∧
      (∀ c ∈ inner.toList, admits c = true) ∧ captured = [inner.toList] := by
  constructor
  · rintro ⟨within, _, _, _, ⟨_, ⟨hne, hadmits, rfl⟩, rfl⟩, ⟨rfl, rfl⟩, rfl, rfl⟩
    refine ⟨String.ofList within, ?_⟩
    rw [String.toList_ofList, ne_eq, String.ofList_eq_empty_iff]
    exact ⟨rfl, hne, hadmits, rfl⟩
  · rintro ⟨inner, hchars, hne, hadmits, hcaptured⟩
    have hne := mt String.toList_eq_nil_iff.mp hne
    exact ⟨inner.toList, _, _, _, ⟨_, ⟨hne, hadmits, rfl⟩, rfl⟩, ⟨rfl, rfl⟩, hchars, hcaptured⟩

lemma matches_bracketed_iff :
    (Pattern.sequence (.text s) (.sequence (.group (.many notLineFeed)) (.text ">"))).Matches
        name.toList captured ↔
      ∃ inner, (name = s ++ inner ++ ">" ∧ inner ≠ "" ∧ '\n' ∉ inner.toList) ∧
        captured = [inner.toList] := by
  have hline : ∀ inner : String,
      (∀ c ∈ inner.toList, notLineFeed c = true) ↔ '\n' ∉ inner.toList := by
    intro inner
    simp only [notLineFeed, decide_eq_true_eq, ne_eq]
    exact ⟨fun h hmem => h _ hmem rfl, fun h c hmem hc => h (hc ▸ hmem)⟩
  rw [Pattern.matches_text_sequence]
  constructor
  · rintro ⟨_, hname, hrest⟩
    obtain ⟨inner, rfl, hne, hinner, hcaptured⟩ := Pattern.matches_group_text.mp hrest
    refine ⟨inner, ⟨?_, hne, (hline inner).mp hinner⟩, hcaptured⟩
    rw [← String.toList_inj, hname, String.toList_append, String.toList_append, List.append_assoc]
  · rintro ⟨inner, ⟨rfl, hne, hinner⟩, hcaptured⟩
    rw [String.append_assoc]
    refine ⟨_, String.toList_append, Pattern.matches_group_text.mpr ?_⟩
    exact ⟨inner, String.toList_append, hne, (hline inner).mpr hinner, hcaptured⟩

lemma matches_questioned_iff :
    (Pattern.sequence (.group (.many isPlain)) (.text "?")).Matches name.toList captured ↔
      ∃ inner, (name = inner ++ "?" ∧ inner ≠ "" ∧
        ∀ c ∈ inner.toList, c ≠ '?' ∧ c ≠ '<' ∧ c ≠ '>') ∧ captured = [inner.toList] := by
  simp only [Pattern.matches_group_text, ← String.toList_append, String.toList_inj, isPlain,
    Bool.and_eq_true, decide_eq_true_eq, and_assoc]

/-- A name matches the pattern when it wraps another one, which is what is captured. -/
theorem nullable_matches_iff :
    nullable.Matches name.toList captured ↔ ∃ inner, Wraps inner name ∧ captured = [inner.toList] := by
  have hsystem : "System." ++ "Nullable<" = "System.Nullable<" := rfl
  rw [nullable, Pattern.matches_either, Pattern.matches_either, Pattern.matches_optional_sequence,
    Pattern.matches_text_text_sequence, hsystem]
  simp only [matches_bracketed_iff, matches_questioned_iff, ← exists_or, ← or_and_right]
  refine exists_congr fun inner => and_congr_left' ?_
  rw [wraps_iff_exists]
  simp only [mem_openings, bracketed?_toList_eq_some_iff, questioned?_toList_eq_some_iff]
  simp only [or_and_right, exists_or, exists_eq_left, or_assoc]

end Matching

end EntityModel.NativeName

namespace EntityModel.NativeType

open NativeName

lemma shape_ofName_eq_nullable_iff {name : String} :
    (ofName name).shape = .nullable ↔ (ofName name).underlying?.isSome = true := by
  have hshape : (ofName name).shape = if (wrapped? name).isSome then .nullable
      else if name ∈ valueTypes then .value else .reference := rfl
  rw [hshape]
  by_cases hwrapped : (wrapped? name).isSome = true
  · exact iff_of_true (if_pos hwrapped) hwrapped
  · rw [if_neg hwrapped]
    refine iff_of_false ?_ hwrapped
    split <;> nofun

/-- A name is one of a nullable type just when it wraps another name. There is only one such name,
which is what unwrapping gives, and which is all that the pattern can capture. -/
theorem unwrapping_undoes_wrapping (name : String) :
    ((ofName name).shape = .nullable ↔ (ofName name).underlying?.isSome = true) ∧
    ((ofName name).underlying?.isSome = true ↔ ∃ inner, Wraps inner name) ∧
    (∀ inner, Wraps inner name →
      (ofName name).underlying? = some inner ∧ ∀ other, Wraps other name → other = inner) ∧
    ∀ captured, nullable.Matches name.toList captured ↔
      ∃ inner, (ofName name).underlying? = some inner ∧ captured = [inner.toList] := by
  have hunderlying : ∀ inner, (ofName name).underlying? = some inner ↔ Wraps inner name :=
    fun _ => wrapped?_eq_some_iff
  refine ⟨shape_ofName_eq_nullable_iff, ?_, fun inner h => ?_, fun captured => ?_⟩
  · rw [Option.isSome_iff_exists]
    exact exists_congr hunderlying
  · exact ⟨(hunderlying inner).mpr h, fun other hother => hother.unique h⟩
  · simp only [hunderlying]
    exact nullable_matches_iff

example : (ofName "Nullable<Option<int?>>").underlying? = some "Option<int?>" := by decide +kernel

end EntityModel.NativeType
