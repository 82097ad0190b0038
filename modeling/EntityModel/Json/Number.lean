import EntityModel.Json.Value

/-!
# JSON numbers

The grammar of a number, one character at a time, and its value. A number that is no whole number of
64 bits stands for a double. The double is found in two steps that round: as many leading digits as
fit into 64 bits, times the power of ten that is left. Where the product is beyond the doubles, the
number stands for nothing.
-/

namespace EntityModel.Json

/-- The part of a number that has been read. -/
inductive NumberPart where
  | start
  | minus
  | zero
  | whole
  | point
  | fraction
  | exponentMark
  | exponentSign
  | exponent
  | wrong
  deriving DecidableEq

namespace NumberPart

def next (part : NumberPart) (c : Char) : NumberPart :=
  match part with
  | start => if c = '-' then minus else lead c
  | minus => lead c
  | zero => afterWhole c
  | whole => if c.isDigit then whole else afterWhole c
  | point => if c.isDigit then fraction else wrong
  | fraction => if c.isDigit then fraction else afterFraction c
  | exponentMark =>
    if c.isDigit then exponent else if c = '+' || c = '-' then exponentSign else wrong
  | exponentSign => if c.isDigit then exponent else wrong
  | exponent => if c.isDigit then exponent else wrong
  | wrong => wrong
where
  lead (c : Char) : NumberPart := if c = '0' then zero else if c.isDigit then whole else wrong
  afterFraction (c : Char) : NumberPart := if c = 'e' || c = 'E' then exponentMark else wrong
  afterWhole (c : Char) : NumberPart := if c = '.' then point else afterFraction c

def ofChars (word : List Char) : NumberPart := word.foldl next start

end NumberPart

def digitValue (c : Char) : Nat := c.toNat - '0'.toNat

def natOfDigits (word : List Char) : Nat := word.foldl (fun n c => 10 * n + digitValue c) 0

def intOfChars : List Char → Int
  | '-' :: rest => -(natOfDigits rest : Int)
  | '+' :: rest => natOfDigits rest
  | word => natOfDigits word

/-- The nearest number with 53 significant bits; between two of them, the even one. -/
def roundSignificant (n : Nat) : Nat :=
  let unit := Nat.pow 2 (n.log2 - 52)
  let down := n / unit
  let rest := 2 * (n % unit)
  if unit < rest ∨ (rest = unit ∧ down % 2 = 1) then (down + 1) * unit else down * unit

def doubleLimit : Nat := Nat.pow 2 1024 - Nat.pow 2 970

/-- Takes digits behind those of a number for as long as it stays below `UInt64.size`. -/
def takeDigits (n : Nat) : List Char → Nat × List Char
  | [] => (n, [])
  | c :: rest =>
    if 10 * n + digitValue c < UInt64.size then takeDigits (10 * n + digitValue c) rest
    else (n, c :: rest)

/-- The leading digits of a number and the power of ten by which they stand too low, given the
digits before and behind the point and the exponent. -/
def scaledDigits (whole fraction : List Char) (exponent : Int) : Nat × Int :=
  let (high, wholeLeft) := takeDigits 0 whole
  let (digits, fractionLeft) := takeDigits high fraction
  (digits, exponent + wholeLeft.length + fractionLeft.length - fraction.length)

/-- Whether digits times a power of ten are beyond the doubles. -/
def exceedsDoubles (digits : Nat) (power : Int) : Bool :=
  digits ≠ 0 && 0 ≤ power && (308 < power ||
    doubleLimit ≤ roundSignificant digits * roundSignificant (Nat.pow 10 power.toNat))

/-- The value of a number in the grammar. Minus zero is not one of the integers. -/
def ofNumber (word : List Char) : Json :=
  let isMark := fun c => c = 'e' || c = 'E'
  let mantissa := word.takeWhile (! isMark ·)
  let exponent := intOfChars ((word.dropWhile (! isMark ·)).drop 1)
  let whole := (mantissa.takeWhile (· ≠ '.')).filter Char.isDigit
  let fraction := (mantissa.dropWhile (· ≠ '.')).drop 1
  let (digits, power) := scaledDigits whole fraction exponent
  if exceedsDoubles digits power then .unreadable
  else if word.all (fun c => c.isDigit || c = '-') && word ≠ ['-', '0'] then .int (intOfChars word)
  else .decimal (String.ofList word)

end EntityModel.Json
