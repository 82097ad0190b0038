import EntityModel.Json.Number

/-!
# JSON tokens

A text is cut into tokens by a machine that takes one character at a time, so the tokens of a text
are defined by recursion on the text itself. What is no token ends the list: `junk` where a
character is out of place, `cutText`, `cutNumber` and `cutWord` where the text ends inside a token.
-/

namespace EntityModel.Json

inductive Token where
  | openArray
  | closeArray
  | openObject
  | closeObject
  | comma
  | colon
  /-- A quoted text; `none` when it holds half of a surrogate pair. -/
  | text (value : Option String)
  | scalar (value : Json)
  /-- The text ends inside quotes; `spoilt` when what is there holds half of a surrogate pair that
  no more characters could complete. -/
  | cutText (spoilt : Bool)
  | cutNumber
  | cutWord
  | junk

/-- What stands for one element of a quoted text: a character, or half of a surrogate pair. -/
inductive TextUnit where
  | scalar (c : Char)
  | half (code : Nat)

namespace TextUnit

def isHighCode (code : Nat) : Bool := 0xD800 ≤ code && code < 0xDC00

def isLowCode (code : Nat) : Bool := 0xDC00 ≤ code && code < 0xE000

def ofCode (code : Nat) : TextUnit :=
  if isHighCode code || isLowCode code then .half code else .scalar (Char.ofNat code)

/-- The characters of a text, if each high half is followed by a low one and no low one stands
alone. -/
def chars? : List TextUnit → Option (List Char)
  | [] => some []
  | .scalar c :: rest => (chars? rest).map (c :: ·)
  | .half high :: .half low :: rest =>
    if isHighCode high && isLowCode low then
      (chars? rest).map (Char.ofNat (0x10000 + (high - 0xD800) * 0x400 + (low - 0xDC00)) :: ·)
    else none
  | .half _ :: _ => none

/-- Whether a text is wrong however it goes on. -/
def isSpoilt : List TextUnit → Bool
  | [] => false
  | [.half code] => !isHighCode code
  | .scalar _ :: rest => isSpoilt rest
  | .half high :: .half low :: rest => !(isHighCode high && isLowCode low) || isSpoilt rest
  | .half _ :: _ => true

end TextUnit

def wordToken (word : List Char) : Token :=
  if word = "null".toList then .scalar .null
  else if word = "true".toList then .scalar (.bool true)
  else if word = "false".toList then .scalar (.bool false)
  else
    match NumberPart.ofChars word with
    | .zero | .whole | .fraction | .exponent => .scalar (ofNumber word)
    | _ => .junk

/-- The token of a run with which the text ends: one that more characters could complete is cut. -/
def lastWordToken (word : List Char) : Token :=
  match NumberPart.ofChars word with
  | .minus | .point | .exponentMark | .exponentSign => .cutNumber
  | _ =>
    match wordToken word with
    | .junk =>
      if ["null", "true", "false"].any fun w => word.isPrefixOf w.toList then .cutWord else .junk
    | token => token

/-- What the machine is in the middle of; what it has read stands in reverse. -/
inductive LexState where
  | between
  | word (read : List Char)
  | quoted (read : List TextUnit)
  | escape (read : List TextUnit)
  | hex (read : List TextUnit) (places : Nat) (code : Nat)
  /-- Among the bytes of a character's number, one of which is no digit. -/
  | wrongHex (read : List TextUnit) (places : Nat)

namespace LexState

def isBlank (c : Char) : Bool := c = ' ' || c = '\n' || c = '\t' || c = '\r'

def isWordChar (c : Char) : Bool := c.isAlphanum || c = '+' || c = '-' || c = '.'

/-- The first character of a token; without a state after it nothing more is read. -/
def first (c : Char) : List Token × Option LexState :=
  match c with
  | '[' => ([.openArray], some between)
  | ']' => ([.closeArray], some between)
  | '{' => ([.openObject], some between)
  | '}' => ([.closeObject], some between)
  | ',' => ([.comma], some between)
  | ':' => ([.colon], some between)
  | '"' => ([], some (quoted []))
  | c =>
    if isBlank c then ([], some between)
    else if isWordChar c then ([], some (word [c]))
    else ([.junk], none)

def escaped? (c : Char) : Option Char :=
  match c with
  | '"' => some '"'
  | '\\' => some '\\'
  | '/' => some '/'
  | 'b' => some '\x08'
  | 'f' => some '\x0c'
  | 'n' => some '\n'
  | 'r' => some '\r'
  | 't' => some '\t'
  | _ => none

def hexDigit? (c : Char) : Option Nat :=
  if c.isDigit then some (c.toNat - '0'.toNat)
  else if 'a' ≤ c && c ≤ 'f' then some (c.toNat - 'a'.toNat + 10)
  else if 'A' ≤ c && c ≤ 'F' then some (c.toNat - 'A'.toNat + 10)
  else none

/-- Passes over a character among the bytes of a number that is wrong already. The number is refused
once all of its bytes are there, so a text that ends before that is cut. -/
def skipHex (read : List TextUnit) (places : Nat) (c : Char) : List Token × Option LexState :=
  if places ≤ c.utf8Size then ([.junk], none) else ([], some (wrongHex read (places - c.utf8Size)))

def textToken (read : List TextUnit) : Token :=
  .text ((TextUnit.chars? read.reverse).map String.ofList)

def next (state : LexState) (c : Char) : List Token × Option LexState :=
  match state with
  | between => first c
  | word read =>
    if isWordChar c then ([], some (word (c :: read)))
    else
      let (tokens, after) := first c
      (wordToken read.reverse :: tokens, after)
  | quoted read =>
    if c = '"' then ([textToken read], some between)
    else if c = '\\' then ([], some (escape read))
    else if c.toNat < 0x20 then ([.junk], none)
    else ([], some (quoted (.scalar c :: read)))
  | escape read =>
    if c = 'u' then ([], some (hex read 4 0))
    else
      match escaped? c with
      | some e => ([], some (quoted (.scalar e :: read)))
      | none => ([.junk], none)
  | hex read places code =>
    match hexDigit? c with
    | none => skipHex read places c
    | some d =>
      let code := 16 * code + d
      if places ≤ 1 then ([], some (quoted (TextUnit.ofCode code :: read)))
      else ([], some (hex read (places - 1) code))
  | wrongHex read places => skipHex read places c

def finish : LexState → List Token
  | between => []
  | word read => [lastWordToken read.reverse]
  | quoted read | escape read | hex read .. | wrongHex read _ =>
    [.cutText (TextUnit.isSpoilt read.reverse)]

end LexState

def lex (state : LexState) : List Char → List Token
  | [] => state.finish
  | c :: rest =>
    match state.next c with
    | (tokens, some after) => tokens ++ lex after rest
    | (tokens, none) => tokens

def tokens (text : List Char) : List Token := lex .between text

end EntityModel.Json
