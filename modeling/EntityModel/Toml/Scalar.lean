import EntityModel.Json.Token

/-!
# TOML scalars

The words that stand without quotes in a TOML document: switches, numbers, dates and times. What a
number is does not matter beyond its being one; a date is told apart from every other value.
-/

namespace EntityModel.Toml

/-- Digits in which single underscores may stand between two of them. -/
def isDigitRun (isDigit : Char → Bool) : List Char → Bool
  | [] => false
  | [c] => isDigit c
  | c :: '_' :: rest => isDigit c && isDigitRun isDigit rest
  | c :: rest => isDigit c && isDigitRun isDigit rest

def isHexDigit (c : Char) : Bool := (Json.LexState.hexDigit? c).isSome

def isOctalDigit (c : Char) : Bool := '0' ≤ c && c ≤ '7'

def isBinaryDigit (c : Char) : Bool := c = '0' || c = '1'

def boundedInt (n : Int) : Option Json :=
  if -Int.ofNat (Nat.pow 2 127) ≤ n ∧ n < Int.ofNat (Nat.pow 2 128) then some (.int n) else none

def unsigned (word : List Char) : List Char :=
  match word with
  | '+' :: rest => rest
  | '-' :: rest => rest
  | _ => word

def isDecimalRun (word : List Char) : Bool :=
  isDigitRun Char.isDigit word && (word.length == 1 || word.head? != some '0')

def natOfBase (base : Nat) (word : List Char) : Nat :=
  word.foldl (fun n c => base * n + (Json.LexState.hexDigit? c).getD 0) 0

def ofBase (base : Nat) (isDigit : Char → Bool) (word : List Char) : Option Json :=
  if isDigitRun isDigit word then boundedInt (natOfBase base (word.filter (· ≠ '_'))) else none

def integer? (word : List Char) : Option Json :=
  match word with
  | '0' :: 'x' :: rest => ofBase 16 isHexDigit rest
  | '0' :: 'o' :: rest => ofBase 8 isOctalDigit rest
  | '0' :: 'b' :: rest => ofBase 2 isBinaryDigit rest
  | _ =>
    if isDecimalRun (unsigned word) then
      let n := Json.natOfDigits ((unsigned word).filter (· ≠ '_'))
      boundedInt (if word.head? = some '-' then -(n : Int) else n)
    else none

def isExponent (word : List Char) : Bool := isDigitRun Char.isDigit (unsigned word)

/-- Whether a number, given by its digits and a power of ten, is rounded to no double. -/
def exceedsDoubles (digits : List Char) (power : Int) : Bool :=
  let significant := digits.dropWhile (· = '0')
  let places : Int := significant.length + power
  if significant.isEmpty || places < 300 then false
  else if places > 400 then true
  else if 0 ≤ power then Json.doubleLimit ≤ Json.natOfDigits significant * Nat.pow 10 power.toNat
  else Json.doubleLimit * Nat.pow 10 (-power).toNat ≤ Json.natOfDigits significant

/-- A number with a fraction, an exponent or both, or one of the two that are no number. -/
def float? (word : List Char) : Option Json :=
  let body := unsigned word
  if body = "inf".toList ∨ body = "nan".toList then some (.decimal (String.ofList word))
  else
    let isMark := fun c => c = 'e' || c = 'E'
    let mantissa := body.takeWhile (! isMark ·)
    let power := body.dropWhile (! isMark ·)
    let whole := mantissa.takeWhile (· ≠ '.')
    let fraction := mantissa.dropWhile (· ≠ '.')
    let exponent := Json.intOfChars ((power.drop 1).filter (· ≠ '_'))
    let places := (fraction.filter Char.isDigit).length
    if isDecimalRun whole && (fraction.isEmpty || isDigitRun Char.isDigit (fraction.drop 1)) &&
        (power.isEmpty || isExponent (power.drop 1)) && !(fraction.isEmpty && power.isEmpty) &&
        !exceedsDoubles (mantissa.filter Char.isDigit) (exponent - places) then
      some (.decimal (String.ofList word))
    else none

/-- Exactly `places` digits, as a number. -/
def number? (places : Nat) (word : List Char) : Option Nat :=
  if word.length = places ∧ word.all Char.isDigit then some (Json.natOfDigits word) else none

def daysOfMonth (year month : Nat) : Nat :=
  if month = 2 then
    if year % 4 = 0 ∧ (year % 100 ≠ 0 ∨ year % 400 = 0) then 29 else 28
  else if month ∈ [4, 6, 9, 11] then 30
  else 31

/-- A day as `YYYY-MM-DD`. -/
def isDate (word : List Char) : Bool :=
  match number? 4 (word.take 4), number? 2 ((word.drop 5).take 2), number? 2 (word.drop 8) with
  | some year, some month, some day =>
    word[4]? = some '-' && word[7]? = some '-' && 1 ≤ month && month ≤ 12 && 1 ≤ day &&
      day ≤ daysOfMonth year month
  | _, _, _ => false

/-- Hours and minutes as `HH:MM`. -/
def isHourMinute (word : List Char) : Bool :=
  match number? 2 (word.take 2), number? 2 (word.drop 3) with
  | some hour, some minute => word[2]? = some ':' && hour ≤ 23 && minute ≤ 59
  | _, _ => false

/-- A time of day as `HH:MM` or `HH:MM:SS`, with a fraction of the second if wanted. -/
def isTime (word : List Char) : Bool :=
  isHourMinute (word.take 5) &&
    match word.drop 5 with
    | [] => true
    | ':' :: rest =>
      (number? 2 (rest.take 2)).any (· ≤ 60) &&
        match rest.drop 2 with
        | [] => true
        | '.' :: fraction => !fraction.isEmpty && fraction.all Char.isDigit
        | _ => false
    | _ => false

/-- A time of day, with its offset from universal time if wanted. -/
def isOffsetTime (word : List Char) : Bool :=
  match word.reverse with
  | 'Z' :: rest => isTime rest.reverse
  | 'z' :: rest => isTime rest.reverse
  | _ =>
    let size := word.length - 6
    let offset := word.drop size
    isTime word ||
      (isTime (word.take size) && (offset.head? = some '+' || offset.head? = some '-') &&
        isHourMinute (offset.drop 1))

def isDateTime (word : List Char) : Bool :=
  isDate word || isTime word ||
    (isDate (word.take 10) && (word[10]?.any fun c => c = 'T' || c = 't' || c = ' ') &&
      isOffsetTime (word.drop 11))

/-- A date is an object of its own kind, whose one member no record declares. -/
def dateJson (word : List Char) : Json := .obj [("date-time", .str (String.ofList word))]

def scalar? (word : List Char) : Option Json :=
  if word = "true".toList then some (.bool true)
  else if word = "false".toList then some (.bool false)
  else if isDateTime word then some (dateJson word)
  else (integer? word).or (float? word)

end EntityModel.Toml
