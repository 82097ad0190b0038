import EntityModel.Json.Reader
import EntityModel.Proofs.Numerals

/-!
# What is written is read

The compact text of a value is read as that value, provided that its numbers are whole ones below
`UInt64.size`. The reader is a machine on tokens, so for every value there is one statement on how
the machine passes over its text: it ends up behind the value with everything else as it was.
-/

namespace EntityModel.Json

/-- Values that are readable throughout and whose numbers are whole ones of 64 bits. -/
inductive Plain : Json → Prop where
  | null : Plain .null
  | bool (b : Bool) : Plain (.bool b)
  | nat {n : Nat} (h : n < UInt64.size) : Plain (.int n)
  | str (s : String) : Plain (.str s)
  | arr {items : List Json} (h : ∀ json ∈ items, Plain json) : Plain (.arr items)
  | obj {members : List (String × Json)} (h : ∀ e ∈ members, Plain e.2) : Plain (.obj members)

/-! ### Tokens -/

/-- What may stand behind a value in a compact text. -/
def Delimited (rest : List Char) : Prop := ∀ c ∈ rest.head?, c = ',' ∨ c = ']' ∨ c = '}'

lemma delimited_nil : Delimited [] := fun _ h => (nomatch h)

lemma delimited_cons {c : Char} {rest : List Char} (h : c = ',' ∨ c = ']' ∨ c = '}') :
    Delimited (c :: rest) := by
  intro d hd
  cases hd
  exact h

open LexState in
lemma first_of_isWordChar {c : Char} (h : isWordChar c = true) :
    first c = ([], some (word [c])) := by
  have hblank : isBlank c = false := by
    by_contra hblank
    simp only [isBlank, Bool.not_eq_false, Bool.or_eq_true, decide_eq_true_eq] at hblank
    obtain ((rfl | rfl) | rfl) | rfl := hblank <;> exact absurd h (by decide)
  unfold first
  split
  all_goals try exact absurd h (by decide)
  rw [hblank, h]
  rfl

lemma lex_word_append {more : List Char} (hmore : ∀ c ∈ more, LexState.isWordChar c = true)
    (read rest : List Char) :
    lex (.word read) (more ++ rest) = lex (.word (more.reverse ++ read)) rest := by
  induction more generalizing read with
  | nil => rfl
  | cons c more ih =>
    rw [List.cons_append, lex, LexState.next, if_pos (hmore c List.mem_cons_self)]
    dsimp only
    rw [List.nil_append, ih fun d hd => hmore d (List.mem_cons_of_mem _ hd), List.reverse_cons,
      List.append_assoc, List.singleton_append]

/-- A word is one token, also when the text ends behind it. -/
lemma lex_word {word rest : List Char} {value : Json} (hne : word ≠ [])
    (hword : ∀ c ∈ word, LexState.isWordChar c = true) (hrest : Delimited rest)
    (htoken : wordToken word = .scalar value) (hlast : lastWordToken word = .scalar value) :
    lex .between (word ++ rest) = .scalar value :: lex .between rest := by
  have hread : lex .between (word ++ rest) = lex (.word word.reverse) rest := by
    cases word with
    | nil => exact absurd rfl hne
    | cons c more =>
      rw [List.cons_append, lex, LexState.next, first_of_isWordChar (hword c List.mem_cons_self)]
      dsimp only
      rw [List.nil_append, lex_word_append fun d hd => hword d (List.mem_cons_of_mem _ hd),
        List.reverse_cons]
  rw [hread]
  cases rest with
  | nil =>
    rw [lex, LexState.finish, List.reverse_reverse, hlast]
    rfl
  | cons c rest =>
    obtain rfl | rfl | rfl := hrest c rfl
    all_goals
      change wordToken word.reverse.reverse :: _ = _
      rw [List.reverse_reverse, htoken]
      rfl

lemma lex_null {rest : List Char} (hrest : Delimited rest) :
    lex .between ("null".toList ++ rest) = .scalar .null :: lex .between rest :=
  lex_word (by decide) (List.all_eq_true.mp rfl) hrest rfl rfl

lemma lex_bool (b : Bool) {rest : List Char} (hrest : Delimited rest) :
    lex .between (scalarText (.bool b) ++ rest) = .scalar (.bool b) :: lex .between rest := by
  cases b with
  | false => exact lex_word (by decide) (List.all_eq_true.mp rfl) hrest rfl rfl
  | true => exact lex_word (by decide) (List.all_eq_true.mp rfl) hrest rfl rfl

lemma lex_digits {n : Nat} (h : n < UInt64.size) {rest : List Char} (hrest : Delimited rest) :
    lex .between (digits n ++ rest) = .scalar (.int n) :: lex .between rest :=
  lex_word (digits_ne_nil n) (fun c hc => isWordChar_of_isDigit (isDigit_of_mem_digits n c hc)) hrest
    (wordToken_digits h) (lastWordToken_digits h)

/-! ### Quoted texts -/

lemma hexDigit?_digitChar : ∀ d < 16, LexState.hexDigit? d.digitChar = some d := by decide

/-- A control character that is written by its number. -/
lemma lex_control {c : Char} (hc : c.toNat < 0x20) (read : List TextUnit) (rest : List Char) :
    lex (.quoted read) (['\\', 'u', '0', '0', (c.toNat / 16).digitChar, (c.toNat % 16).digitChar] ++
      rest) = lex (.quoted (.scalar c :: read)) rest := by
  have hhigh := hexDigit?_digitChar (c.toNat / 16) (by omega)
  have hlow := hexDigit?_digitChar (c.toNat % 16) (by omega)
  have hcode : TextUnit.ofCode (16 * (16 * 0 + c.toNat / 16) + c.toNat % 16) = .scalar c := by
    have hnat : 16 * (16 * 0 + c.toNat / 16) + c.toNat % 16 = c.toNat := by omega
    have hhalf : (TextUnit.isHighCode c.toNat || TextUnit.isLowCode c.toNat) = false := by
      simp only [TextUnit.isHighCode, TextUnit.isLowCode, Bool.or_eq_false_iff,
        Bool.and_eq_false_iff, decide_eq_false_iff_not]
      omega
    rw [hnat, TextUnit.ofCode, hhalf, Char.ofNat_toNat]
    rfl
  change lex (.hex read 2 0) ((c.toNat / 16).digitChar :: (c.toNat % 16).digitChar :: rest) = _
  rw [lex, LexState.next, hhigh]
  dsimp only
  rw [if_neg (by decide)]
  dsimp only
  rw [List.nil_append, lex, LexState.next, hlow]
  dsimp only
  rw [if_pos (by decide), hcode]
  rfl

lemma lex_escapeChar (c : Char) (read : List TextUnit) (rest : List Char) :
    lex (.quoted read) (escapeChar c ++ rest) = lex (.quoted (.scalar c :: read)) rest := by
  unfold escapeChar
  split
  all_goals try rfl
  split
  · next hcontrol => exact lex_control hcontrol read rest
  · next hquote hbackslash _ _ _ _ _ hcontrol =>
    rw [List.singleton_append, lex, LexState.next, if_neg hquote, if_neg hbackslash,
      if_neg hcontrol]
    rfl

lemma lex_flatMap_escapeChar (chars : List Char) (read : List TextUnit) (rest : List Char) :
    lex (.quoted read) (chars.flatMap escapeChar ++ rest) =
      lex (.quoted ((chars.map .scalar).reverse ++ read)) rest := by
  induction chars generalizing read with
  | nil => rfl
  | cons c chars ih =>
    rw [List.flatMap_cons, List.append_assoc, lex_escapeChar, ih, List.map_cons, List.reverse_cons,
      List.append_assoc, List.singleton_append]

lemma chars?_scalars (chars : List Char) : TextUnit.chars? (chars.map .scalar) = some chars := by
  induction chars with
  | nil => rfl
  | cons c chars ih =>
    rw [List.map_cons, TextUnit.chars?, ih]
    rfl

lemma lex_quote (s : String) (rest : List Char) :
    lex .between (quote s ++ rest) = .text (some s) :: lex .between rest := by
  have htoken : LexState.textToken ((s.toList.map .scalar).reverse ++ []) = .text (some s) := by
    rw [LexState.textToken, List.append_nil, List.reverse_reverse, chars?_scalars, Option.map_some,
      String.ofList_toList]
  unfold quote
  rw [List.cons_append, List.cons_append, List.append_assoc]
  change lex (.quoted []) (s.toList.flatMap escapeChar ++ '"' :: rest) = _
  rw [lex_flatMap_escapeChar]
  change LexState.textToken _ :: lex .between rest = _
  rw [htoken]

/-! ### Values -/

/-- A value may begin. -/
def StartsValue (start : Expectation) : Prop := start = .value ∨ start = .firstItem

lemma ofTokens_start {start : Expectation} (hstart : StartsValue start) {stack : List OpenValue}
    {token : Token} {after : ReadState} (h : startValue token stack = .ok after)
    (tokens : List Token) : ofTokens (start, stack) (token :: tokens) = ofTokens after tokens := by
  have hadvance : advance (start, stack) token = startValue token stack := by
    obtain rfl | rfl := hstart
    · rfl
    · rw [advance]
      rintro _ rfl _
      cases h
  rw [ofTokens, hadvance, h]

/-- The machine passes over the text of a value. -/
def PassesOver (json : Json) : Prop :=
  ∀ (start : Expectation) (stack : List OpenValue) (rest : List Char), StartsValue start →
    Delimited rest → ofTokens (start, stack) (lex .between (json.compactChars ++ rest)) =
      ofTokens (.after json, stack) (lex .between rest)

lemma passesOver_scalar {json : Json} (h : ∀ rest, Delimited rest →
    lex .between (json.compactChars ++ rest) = .scalar json :: lex .between rest) :
    json.PassesOver := by
  intro start stack rest hstart hrest
  rw [h rest hrest]
  exact ofTokens_start hstart rfl _

lemma ofTokens_items {items : List Json} (hitems : ∀ json ∈ items, json.PassesOver)
    (hne : items ≠ []) {start : Expectation} (hstart : StartsValue start) (read : List Json)
    (stack : List OpenValue) (rest : List Char) :
    ofTokens (start, .items read :: stack) (lex .between (compactItems items ++ ']' :: rest)) =
      ofTokens (.after (.arr (read.reverse ++ items)), stack) (lex .between rest) := by
  induction items generalizing start read with
  | nil => exact absurd rfl hne
  | cons json tail ih =>
    have hjson := hitems json List.mem_cons_self
    rw [compactItems, List.append_assoc]
    by_cases htail : tail = []
    · subst htail
      have hreverse : (json :: read).reverse = read.reverse ++ [json] := List.reverse_cons
      rw [← hreverse]
      exact hjson start _ _ hstart (delimited_cons (.inr (.inl rfl)))
    · have htail' := ih (fun j hj => hitems j (List.mem_cons_of_mem _ hj)) htail (.inl rfl)
        (json :: read)
      rw [List.reverse_cons, List.append_assoc, List.singleton_append] at htail'
      rw [if_neg (by simpa using htail), List.cons_append,
        hjson start _ _ hstart (delimited_cons (.inl rfl)), ← htail']
      rfl

lemma ofTokens_members {members : List (String × Json)}
    (hmembers : ∀ e ∈ members, e.2.PassesOver) (hne : members ≠ []) {start : Expectation}
    (read : List (Option String × Json)) (hstart : start = .firstName read ∨ start = .name read)
    (stack : List OpenValue) (rest : List Char) :
    ofTokens (start, stack) (lex .between (compactMembers members ++ '}' :: rest)) =
      ofTokens (.after (ofMembers ((members.map fun e => (some e.1, e.2)).reverse ++ read)), stack)
        (lex .between rest) := by
  induction members generalizing start read with
  | nil => exact absurd rfl hne
  | cons e tail ih =>
    obtain ⟨name, json⟩ := e
    have hjson := hmembers (name, json) List.mem_cons_self
    have hname (tokens : List Token) :
        ofTokens (start, stack) (.text (some name) :: .colon :: tokens) =
          ofTokens (.value, .members read (some name) :: stack) tokens := by
      obtain rfl | rfl := hstart
      · rfl
      · rfl
    rw [compactMembers, List.append_assoc, List.append_assoc, lex_quote, List.cons_append]
    change ofTokens (start, stack) (.text (some name) :: .colon :: lex .between _) = _
    rw [hname, List.map_cons, List.reverse_cons, List.append_assoc, List.singleton_append]
    by_cases htail : tail = []
    · subst htail
      exact hjson .value _ _ (.inl rfl) (delimited_cons (.inr (.inr rfl)))
    · have htail' := ih (fun e he => hmembers e (List.mem_cons_of_mem _ he)) htail
        ((some name, json) :: read) (.inr rfl)
      rw [if_neg (by simpa using htail), List.cons_append,
        hjson .value _ _ (.inl rfl) (delimited_cons (.inl rfl)), ← htail']
      rfl

lemma ofMembers_named (members : List (String × Json)) :
    ofMembers (members.map fun e => (some e.1, e.2)).reverse = .obj members := by
  have hnamed : (members.map fun e => (some e.1, e.2)).mapM
      (fun e : Option String × Json => e.1.map fun name => (name, e.2)) = some members := by
    induction members with
    | nil => rfl
    | cons e members ih =>
      rw [List.map_cons, List.mapM_cons, ih]
      rfl
  rw [ofMembers, List.reverse_reverse, hnamed]

/-- The machine passes over every plain value. -/
theorem Plain.passesOver {json : Json} (h : json.Plain) : json.PassesOver := by
  induction h with
  | null => exact passesOver_scalar fun rest hrest => lex_null hrest
  | bool b => exact passesOver_scalar fun rest hrest => lex_bool b hrest
  | nat hn => exact passesOver_scalar fun rest hrest => lex_digits hn hrest
  | str s =>
    intro start stack rest hstart hrest
    change ofTokens (start, stack) (lex .between (quote s ++ rest)) = _
    rw [lex_quote]
    exact ofTokens_start hstart rfl _
  | @arr items h ih =>
    intro start stack rest hstart hrest
    rw [compactChars, List.cons_append, List.cons_append, List.append_assoc, List.singleton_append]
    change ofTokens (start, stack) (.openArray :: lex .between _) = _
    rw [ofTokens_start hstart rfl]
    by_cases hitems : items = []
    · subst hitems
      rfl
    · exact ofTokens_items ih hitems (.inr rfl) [] stack rest
  | @obj members h ih =>
    intro start stack rest hstart hrest
    rw [compactChars, List.cons_append, List.cons_append, List.append_assoc, List.singleton_append]
    change ofTokens (start, stack) (.openObject :: lex .between _) = _
    rw [ofTokens_start hstart rfl]
    by_cases hmembers : members = []
    · subst hmembers
      rfl
    · have hread := ofTokens_members ih hmembers [] (.inl rfl) stack rest
      rw [List.append_nil, ofMembers_named] at hread
      exact hread

/-- The compact text of a plain value is read as that value. -/
theorem parse_compact {json : Json} (h : json.Plain) : parse json.compact = .ok json := by
  have hread := h.passesOver .value [] [] (.inl rfl) delimited_nil
  rw [List.append_nil] at hread
  rw [parse, tokens, compact, String.toList_ofList, hread]
  rfl

/-- A plain value has a text of its own. -/
lemma Plain.compact_inj {json json' : Json} (h : json.Plain) (h' : json'.Plain) :
    json.compact = json'.compact ↔ json = json' := by
  refine ⟨fun hsame => ?_, fun hsame => hsame ▸ rfl⟩
  have hread := parse_compact h
  rw [hsame, parse_compact h'] at hread
  exact (Except.ok.inj hread).symm

end EntityModel.Json
