import EntityModel.Json.Value

/-!
# Writing JSON

Two layouts of one grammar: the compact text, which has no blank between tokens and is what a
content hash is taken of, and the indented text for readers, two blanks a level. Members keep their
order. Only quotes, backslashes and control characters are escaped.
-/

namespace EntityModel.Json

/-- The decimal digits of a number, most significant first. -/
def digits (n : Nat) : List Char :=
  if n < 10 then [n.digitChar] else digits (n / 10) ++ [(n % 10).digitChar]
termination_by n

def intText : Int → List Char
  | .ofNat n => digits n
  | .negSucc n => '-' :: digits (n + 1)

def escapeChar (c : Char) : List Char :=
  match c with
  | '"' => ['\\', '"']
  | '\\' => ['\\', '\\']
  | '\x08' => ['\\', 'b']
  | '\t' => ['\\', 't']
  | '\n' => ['\\', 'n']
  | '\x0c' => ['\\', 'f']
  | '\r' => ['\\', 'r']
  | c =>
    if c.toNat < 0x20 then
      ['\\', 'u', '0', '0', (c.toNat / 16).digitChar, (c.toNat % 16).digitChar]
    else [c]

def quote (s : String) : List Char :=
  '"' :: s.toList.flatMap escapeChar ++ ['"']

/-- The text of a value that is neither an array nor an object. -/
def scalarText : Json → List Char
  | .bool true => "true".toList
  | .bool false => "false".toList
  | .int n => intText n
  | .decimal literal => literal.toList
  | .str s => quote s
  | _ => "null".toList

mutual

def compactChars : Json → List Char
  | .arr items => '[' :: compactItems items ++ [']']
  | .obj members => '{' :: compactMembers members ++ ['}']
  | .null => scalarText .null
  | .bool b => scalarText (.bool b)
  | .int n => scalarText (.int n)
  | .decimal literal => scalarText (.decimal literal)
  | .str s => scalarText (.str s)
  | .unreadable => scalarText .unreadable
termination_by structural json => json

def compactItems : List Json → List Char
  | [] => []
  | json :: rest =>
    compactChars json ++ (if rest.isEmpty then [] else ',' :: compactItems rest)
termination_by structural items => items

def compactMembers : List (String × Json) → List Char
  | [] => []
  | (name, json) :: rest =>
    quote name ++ ':' :: compactChars json ++
      (if rest.isEmpty then [] else ',' :: compactMembers rest)
termination_by structural members => members

end

def compact (json : Json) : String := String.ofList json.compactChars

def margin (level : Nat) : List Char := List.replicate (2 * level) ' '

mutual

def indentedChars (level : Nat) : Json → List Char
  | .arr items =>
    if items.isEmpty then ['[', ']']
    else '[' :: '\n' :: indentedItems (level + 1) items ++ '\n' :: margin level ++ [']']
  | .obj members =>
    if members.isEmpty then ['{', '}']
    else '{' :: '\n' :: indentedMembers (level + 1) members ++ '\n' :: margin level ++ ['}']
  | .null => scalarText .null
  | .bool b => scalarText (.bool b)
  | .int n => scalarText (.int n)
  | .decimal literal => scalarText (.decimal literal)
  | .str s => scalarText (.str s)
  | .unreadable => scalarText .unreadable
termination_by structural json => json

def indentedItems (level : Nat) : List Json → List Char
  | [] => []
  | json :: rest =>
    margin level ++ indentedChars level json ++
      (if rest.isEmpty then [] else ',' :: '\n' :: indentedItems level rest)
termination_by structural items => items

def indentedMembers (level : Nat) : List (String × Json) → List Char
  | [] => []
  | (name, json) :: rest =>
    margin level ++ quote name ++ ':' :: ' ' :: indentedChars level json ++
      (if rest.isEmpty then [] else ',' :: '\n' :: indentedMembers level rest)
termination_by structural members => members

end

def indented (json : Json) : String := String.ofList (json.indentedChars 0)

end EntityModel.Json
