import EntityModel.Toml.Document
import EntityModel.Toml.Scalar

/-!
# Reading TOML

A document is a run of lines: a header, a key with its value, or nothing, each with a comment behind
it if wanted. Values may go over several lines, and so may tables between braces. A reader takes
what it reads from the front of the text and returns the rest; without a result the text is no
document.
-/

namespace EntityModel.Toml

/-- Takes a value from the front of a text. -/
abbrev Scan (α : Type) := List Char → Option (α × List Char)

def isSpace (c : Char) : Bool := c = ' ' || c = '\t'

def skipSpaces (text : List Char) : List Char := text.dropWhile isSpace

def isPlain (c : Char) : Bool := c = '\t' || (0x20 ≤ c.toNat && c.toNat ≠ 0x7F)

def skipComment : List Char → Option (List Char)
  | '#' :: rest =>
    let after := rest.dropWhile isPlain
    match after with
    | [] => some []
    | '\n' :: _ => some after
    | '\r' :: '\n' :: _ => some after
    | _ => none
  | text => some text

def endLine : List Char → Option (List Char)
  | [] => some []
  | '\n' :: rest => some rest
  | '\r' :: '\n' :: rest => some rest
  | _ => none

def finishLine (text : List Char) : Option (List Char) := do
  endLine (← skipComment (skipSpaces text))

def skipLines (comment : Bool) : List Char → Option (List Char)
  | [] => some []
  | '\n' :: rest => skipLines false rest
  | '\r' :: '\n' :: rest => skipLines false rest
  | c :: rest =>
    if comment then if isPlain c then skipLines true rest else none
    else if isSpace c then skipLines false rest
    else if c = '#' then skipLines true rest
    else some (c :: rest)

def numberedChar? (digits : List Char) : Option Char :=
  if digits.all isHexDigit then
    let code := natOfBase 16 digits
    if code.isValidChar then some (Char.ofNat code) else none
  else none

def escapedChar? (c : Char) : Option Char :=
  match c with
  | 'b' => some '\x08'
  | 't' => some '\t'
  | 'n' => some '\n'
  | 'f' => some '\x0c'
  | 'r' => some '\r'
  | 'e' => some '\x1b'
  | '"' => some '"'
  | '\\' => some '\\'
  | _ => none

/-- The text up to a quote, on one line; what is read stands in reverse. -/
def quotedText (read : List Char) : Scan String
  | '"' :: rest => some (String.ofList read.reverse, rest)
  | '\\' :: 'x' :: a :: b :: rest => do
    quotedText ((← numberedChar? [a, b]) :: read) rest
  | '\\' :: 'u' :: a :: b :: c :: d :: rest => do
    quotedText ((← numberedChar? [a, b, c, d]) :: read) rest
  | '\\' :: 'U' :: a :: b :: c :: d :: e :: f :: g :: h :: rest => do
    quotedText ((← numberedChar? [a, b, c, d, e, f, g, h]) :: read) rest
  | '\\' :: c :: rest => do quotedText ((← escapedChar? c) :: read) rest
  | c :: rest => if isPlain c then quotedText (c :: read) rest else none
  | [] => none

def literalText (read : List Char) : Scan String
  | [] => none
  | c :: rest =>
    if c = '\x27' then some (String.ofList read.reverse, rest)
    else if isPlain c then literalText (c :: read) rest
    else none

/-- What the reader of a text over several lines is in the middle of. -/
inductive Fold where
  | none
  /-- Behind a backslash, on the same line. -/
  | sameLine
  /-- Behind a backslash, on a later line. -/
  | laterLine
  deriving DecidableEq

/-- The text up to three quotes. Up to two more quotes before them belong to it. A backslash at the
end of a line drops the blanks up to the next character. -/
def longText (fold : Fold) (read : List Char) : Scan String
  | '\n' :: rest =>
    match fold with
    | .none => longText .none ('\n' :: read) rest
    | _ => longText .laterLine read rest
  | '\r' :: '\n' :: rest =>
    match fold with
    | .none => longText .none ('\n' :: '\r' :: read) rest
    | _ => longText .laterLine read rest
  | c :: rest =>
    if fold ≠ .none ∧ isSpace c then longText fold read rest
    else if fold = .sameLine then none
    else
      match c, rest with
      | '"', '"' :: '"' :: '"' :: '"' :: rest =>
        some (String.ofList ('"' :: '"' :: read).reverse, rest)
      | '"', '"' :: '"' :: '"' :: rest => some (String.ofList ('"' :: read).reverse, rest)
      | '"', '"' :: '"' :: rest => some (String.ofList read.reverse, rest)
      | '\\', 'x' :: a :: b :: rest => do
        longText .none ((← numberedChar? [a, b]) :: read) rest
      | '\\', 'u' :: a :: b :: c :: d :: rest => do
        longText .none ((← numberedChar? [a, b, c, d]) :: read) rest
      | '\\', 'U' :: a :: b :: c :: d :: e :: f :: g :: h :: rest => do
        longText .none ((← numberedChar? [a, b, c, d, e, f, g, h]) :: read) rest
      | '\\', d :: after =>
        if isSpace d || d = '\n' || d = '\r' then longText .sameLine read (d :: after)
        else do longText .none ((← escapedChar? d) :: read) after
      | c, rest => if isPlain c then longText .none (c :: read) rest else none
  | [] => none
termination_by text => text.length

/-- The text up to three apostrophes, with up to two more before them. -/
def longLiteral (read : List Char) : Scan String
  | '\x27' :: '\x27' :: '\x27' :: '\x27' :: '\x27' :: rest =>
    some (String.ofList ('\x27' :: '\x27' :: read).reverse, rest)
  | '\x27' :: '\x27' :: '\x27' :: '\x27' :: rest =>
    some (String.ofList ('\x27' :: read).reverse, rest)
  | '\x27' :: '\x27' :: '\x27' :: rest => some (String.ofList read.reverse, rest)
  | '\r' :: '\n' :: rest => longLiteral ('\n' :: '\r' :: read) rest
  | c :: rest => if c = '\n' || isPlain c then longLiteral (c :: read) rest else none
  | [] => none

/-- A line break right behind the opening quotes is not part of the text. -/
def dropFirstBreak : List Char → List Char
  | '\n' :: rest => rest
  | '\r' :: '\n' :: rest => rest
  | text => text

def text? : Scan String
  | '"' :: '"' :: '"' :: rest => longText .none [] (dropFirstBreak rest)
  | '"' :: rest => quotedText [] rest
  | '\x27' :: '\x27' :: '\x27' :: rest => longLiteral [] (dropFirstBreak rest)
  | '\x27' :: rest => literalText [] rest
  | _ => none

def isBareChar (c : Char) : Bool := c.isAlphanum || c = '_' || c = '-'

def keyPart (text : List Char) : Option (String × List Char) :=
  match text with
  | '"' :: rest => quotedText [] rest
  | '\x27' :: rest => literalText [] rest
  | _ =>
    let bare := text.takeWhile isBareChar
    if bare.isEmpty then none else some (String.ofList bare, text.dropWhile isBareChar)

/-- How many parts a key may have, and how many arrays and tables between braces may stand one
inside the other. -/
def nesting : Nat := 80

/-- The parts of a key, with dots between them, at most `limit` of them. -/
def keyPath : (limit : Nat) → Scan (List String)
  | 0, _ => none
  | limit + 1, text => do
    let (part, rest) ← keyPart (skipSpaces text)
    match skipSpaces rest with
    | '.' :: rest =>
      let (parts, rest) ← keyPath limit rest
      return (part :: parts, rest)
    | rest => return ([part], rest)

def isWordChar (c : Char) : Bool :=
  c.isAlphanum || c = '+' || c = '-' || c = '_' || c = '.' || c = ':'

/-- A value without quotes. A date and a time may stand one space apart. -/
def word? (text : List Char) : Option (Json × List Char) := do
  let word := text.takeWhile isWordChar
  let rest := text.dropWhile isWordChar
  match rest with
  | ' ' :: c :: after =>
    if isDate word && c.isDigit then
      let time := (c :: after).takeWhile isWordChar
      return (← scalar? (word ++ ' ' :: time), (c :: after).dropWhile isWordChar)
    else return (← scalar? word, rest)
  | _ => return (← scalar? word, rest)

mutual

/-- A value within a number of levels. Every step takes a character or is one of a fixed number
between two that do, so a multiple of the length of the text is enough for `limit`. -/
def value? : (limit levels : Nat) → Scan Node
  | 0, _, _ => none
  | limit + 1, levels, text =>
    match text, levels with
    | '[' :: rest, levels + 1 => do
      let (items, rest) ← items? limit levels [] rest
      return (.value (.arr items), rest)
    | '{' :: rest, levels + 1 => do
      let (entries, rest) ← entries? limit levels [] rest
      return (.table .braces entries, rest)
    | c :: _, _ =>
      if c = '"' || c = '\x27' then do
        let (s, rest) ← text? text
        return (.value (.str s), rest)
      else do
        let (json, rest) ← word? text
        return (.value json, rest)
    | [], _ => none

def items? : (limit levels : Nat) → List Json → Scan (List Json)
  | 0, _, _, _ => none
  | limit + 1, levels, read, text => do
    match ← skipLines false text with
    | ']' :: rest => return (read.reverse, rest)
    | rest =>
      let (node, rest) ← value? limit levels rest
      match ← skipLines false rest with
      | ',' :: rest => items? limit levels (node.toJson :: read) rest
      | ']' :: rest => return ((node.toJson :: read).reverse, rest)
      | _ => none

def entries? : (limit levels : Nat) → Entries → Scan Entries
  | 0, _, _, _ => none
  | limit + 1, levels, entries, text => do
    match ← skipLines false text with
    | '}' :: rest => return (entries, rest)
    | rest =>
      let (path, rest) ← keyPath nesting rest
      match ← skipLines false rest with
      | '=' :: rest =>
        let (node, rest) ← value? limit levels (← skipLines false rest)
        let entries ← insertDotted node path entries
        match ← skipLines false rest with
        | ',' :: rest => entries? limit levels entries rest
        | '}' :: rest => return (entries, rest)
        | _ => none
      | _ => none

end

/-- A document as far as it has been read, and the header that is open. -/
structure Document where
  root : Entries
  header : List String

def closeHeader (brackets : List Char) (text : List Char) : Option (List Char) :=
  let rest := skipSpaces text
  if brackets.isPrefixOf rest then finishLine (rest.drop brackets.length) else none

def line? (doc : Document) (text : List Char) : Option (Document × List Char) :=
  match skipSpaces text with
  | '[' :: '[' :: rest => do
    let (path, rest) ← keyPath nesting rest
    let rest ← closeHeader [']', ']'] rest
    return (⟨← openHeader openItem path doc.root, path⟩, rest)
  | '[' :: rest => do
    let (path, rest) ← keyPath nesting rest
    let rest ← closeHeader [']'] rest
    return (⟨← openHeader openTable path doc.root, path⟩, rest)
  | text =>
    match finishLine text with
    | some rest => some (doc, rest)
    | none => do
      let (path, rest) ← keyPath nesting text
      match rest with
      | '=' :: rest =>
        let (node, rest) ← value? (2 * rest.length + 2) nesting (skipSpaces rest)
        let rest ← finishLine rest
        return ({ doc with root := ← insertUnder doc.header path node doc.root }, rest)
      | _ => none

/-- The lines of a document. Every line that is not the end of the text takes a character. -/
def lines? : (limit : Nat) → Document → List Char → Option Document
  | _, doc, [] => some doc
  | 0, _, _ => none
  | limit + 1, doc, text => do
    let (doc, rest) ← line? doc text
    lines? limit doc rest

/-- The value of a document. A mark of the byte order before it is skipped. -/
def parse (text : String) : Option Json :=
  let chars := match text.toList with
    | c :: rest => if c.toNat = 0xFEFF then rest else c :: rest
    | [] => []
  (lines? chars.length ⟨[], []⟩ chars).map fun doc => .obj (entriesToJson doc.root)

end EntityModel.Toml
