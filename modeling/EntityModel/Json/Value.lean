/-!
# JSON values

The tree of a JSON text. Objects keep their members as they were written, repeated names included,
because what a repetition means is for the reader of the object to say.
-/

namespace EntityModel

/-- JSON values. A number is an integer when it is written as one; any other number keeps the way
it was written. -/
inductive Json where
  | null
  | bool (value : Bool)
  | int (value : Int)
  | decimal (literal : String)
  | str (value : String)
  | arr (items : List Json)
  | obj (members : List (String × Json))
  /-- A value that is spelled as JSON asks but stands for nothing: a text with half of a surrogate
  pair, a number beyond every double, an object with such a text as a name. It is an error only
  where somebody reads it. -/
  | unreadable
  deriving Inhabited, Repr

/-- Why a text is not the written form of what was asked for. -/
inductive JsonError where
  /-- The text is not JSON, or is nested too deeply where its values are read. -/
  | malformed
  /-- The text ends before its value does. -/
  | truncated
  /-- The text is JSON, but not of the declared form. -/
  | mismatched
  deriving DecidableEq, Repr

namespace Json

mutual

/-- Whether the value is readable throughout and holds at most `levels` arrays and objects one
inside the other. -/
def fits (levels : Nat) : Json → Bool
  | .arr items =>
    match levels with
    | 0 => false
    | n + 1 => itemsFit n items
  | .obj members =>
    match levels with
    | 0 => false
    | n + 1 => membersFit n members
  | .unreadable => false
  | _ => true
termination_by structural json => json

def itemsFit (levels : Nat) : List Json → Bool
  | [] => true
  | json :: rest => json.fits levels && itemsFit levels rest
termination_by structural items => items

def membersFit (levels : Nat) : List (String × Json) → Bool
  | [] => true
  | (_, json) :: rest => json.fits levels && membersFit levels rest
termination_by structural members => members

end

mutual

/-- How many arrays and objects stand one inside the other, at most. -/
def depth : Json → Nat
  | .arr items => itemsDepth items + 1
  | .obj members => membersDepth members + 1
  | _ => 0
termination_by structural json => json

def itemsDepth : List Json → Nat
  | [] => 0
  | json :: rest => max json.depth (itemsDepth rest)
termination_by structural items => items

def membersDepth : List (String × Json) → Nat
  | [] => 0
  | (_, json) :: rest => max json.depth (membersDepth rest)
termination_by structural members => members

end

/-- An optional value, written as `null` when it is absent. -/
def ofOption {α : Type} (toJson : α → Json) : Option α → Json
  | none => .null
  | some a => toJson a

def ofList {α : Type} (toJson : α → Json) (values : List α) : Json :=
  .arr (values.map toJson)

def ofStrings (values : List String) : Json := ofList .str values

def ofString? (value : Option String) : Json := ofOption .str value

def ofNat (n : Nat) : Json := .int n

def ofMap {α : Type} (toJson : α → Json) (members : List (String × α)) : Json :=
  .obj (members.map fun e => (e.1, toJson e.2))

end Json

end EntityModel
