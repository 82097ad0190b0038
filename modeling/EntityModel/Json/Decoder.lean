import EntityModel.Json.Reader
import EntityModel.KeyedMap

/-!
# Decoding JSON

A decoder reads a value of a declared type out of a JSON value. It is told how many levels of arrays
and objects it may still enter: a text is decoded with `textNesting` levels, a value that is at hand
with as many as it has. Members that a record does not name are not looked at, so they are neither
counted nor read; a decoder tells by `visits` which values inside of one it reads.

Records are built from `Fields`, one member after the other.
-/

namespace EntityModel

open Json (Step Way)

/-- Reads a value within a number of levels of nesting. -/
structure Decoder (α : Type) where
  read : (levels : Nat) → Json → Except JsonError α
  /-- Whether the value at the end of a way is read, and not passed over. -/
  visits : Way → Bool

namespace Decoder

variable {α : Type}

def textNesting : Nat := 127

/-- The error for a value of another kind than the declared one. -/
def refuse : Json → Except JsonError α
  | .unreadable => .error .malformed
  | _ => .error .mismatched

def enter : Nat → Except JsonError Nat
  | 0 => .error .malformed
  | n + 1 => .ok n

def ofScalar (read : Json → Except JsonError α) : Decoder α := ⟨fun _ => read, fun _ => true⟩

def nothing : Decoder α := .ofScalar refuse

/-- Reads values that may hold further ones of their own kind, given how they are read within a
number of levels. Every step of a way takes a level. -/
def ofLevels (within : (levels : Nat) → Decoder α) : Decoder α where
  read n json := (within n).read n json
  visits way := (within way.length).visits way

def string : Decoder String :=
  .ofScalar fun
    | .str s => .ok s
    | json => refuse json

def bool : Decoder Bool :=
  .ofScalar fun
    | .bool b => .ok b
    | json => refuse json

def natBelow (bound : Nat) : Decoder Nat :=
  .ofScalar fun
    | .int n => if 0 ≤ n ∧ n < bound then .ok n.toNat else .error .mismatched
    | json => refuse json

instance : Functor Decoder where
  map f d := ⟨fun n json => f <$> d.read n json, d.visits⟩

/-- A value that may be absent, which is written `null`. -/
def option (d : Decoder α) : Decoder (Option α) where
  read
    | _, .null => .ok none
    | n, json => some <$> d.read n json
  visits := d.visits

def list (d : Decoder α) : Decoder (List α) where
  read
    | n, .arr items => do
      let inner ← enter n
      items.mapM (d.read inner)
    | _, json => refuse json
  visits
    | [] => true
    | _ :: rest => d.visits rest

/-- An object as a map; of members with one name the last counts. -/
def map (d : Decoder α) : Decoder (KeyedMap α) where
  read
    | n, .obj members => do
      let inner ← enter n
      let entries ← members.mapM fun e => (e.1, ·) <$> d.read inner e.2
      return KeyedMap.ofList entries
    | _, json => refuse json
  visits
    | [] => true
    | _ :: rest => d.visits rest

def named (names : List (String × α)) (name : String) : Except JsonError α :=
  match names.find? (·.1 == name) with
  | some e => .ok e.2
  | none => .error .mismatched

/-- One of several named constants: its name, or an object with the name as its only member and no
value there. A value that is neither does not begin like a constant at all, which is told apart from
an unknown name. -/
def constant (names : List (String × α)) : Decoder α where
  read
    | _, .str name => named names name
    | n, .obj ((name, value) :: others) => do
      let _ ← enter n
      let a ← named names name
      match value, others with
      | .null, [] => .ok a
      | .null, _ :: _ => .error .malformed
      | value, _ => refuse value
    | _, _ => .error .malformed
  visits way := way ≠ []

/-- A named constant in a record that is read as a whole, where no value is also written as an
object without members. -/
def heldConstant (names : List (String × α)) : Decoder α where
  read
    | _, .obj [(name, .obj [])] => named names name
    | n, json => (constant names).read n json
  visits _ := true

/-- The members of a record and the levels left inside it. -/
structure Members where
  levels : Nat
  members : List (String × Json)

def Members.get? (m : Members) (name : String) : Except JsonError (Option Json) :=
  match m.members.filter (·.1 == name) with
  | [] => .ok none
  | [(_, json)] => .ok (some json)
  | _ => .error .mismatched

end Decoder

/-- What a record is read from: the names of its members, in order, with the values that are read
inside each, and how the record is built from them. -/
structure Fields (α : Type) where
  names : List (String × (Way → Bool))
  build : Decoder.Members → Except JsonError α

namespace Fields

variable {α : Type}

instance : Applicative Fields where
  pure a := ⟨[], fun _ => .ok a⟩
  map f x := ⟨x.names, fun m => f <$> x.build m⟩
  seq f x := ⟨f.names ++ (x ()).names, fun m => do return (← f.build m) (← (x ()).build m)⟩

def required (name : String) (d : Decoder α) : Fields α where
  names := [(name, d.visits)]
  build m := do
    match ← m.get? name with
    | some json => d.read m.levels json
    | none => .error .mismatched

/-- A member that stands for a fixed value when it is left out. -/
def orElse (name : String) (d : Decoder α) (absent : α) : Fields α where
  names := [(name, d.visits)]
  build m := do
    match ← m.get? name with
    | some json => d.read m.levels json
    | none => .ok absent

/-- A member that may be left out or `null`. -/
def optional (name : String) (d : Decoder α) : Fields (Option α) := orElse name d.option none

def string (name : String) : Fields String := required name .string

def string? (name : String) : Fields (Option String) := optional name .string

def flag (name : String) : Fields Bool := orElse name .bool false

def list (name : String) (d : Decoder α) : Fields (List α) := orElse name d.list []

/-- Builds a record from an array of its first members in their order; what follows is left out. -/
def ofItems (fields : Fields α) (levels : Nat) (items : List Json) : Except JsonError α :=
  fields.build ⟨levels, (fields.names.map (·.1)).zip items⟩

def visits (fields : Fields α) : Way → Bool
  | [] => true
  | .member name :: rest => (fields.names.find? (·.1 == name)).any (·.2 rest)
  | .item index :: rest => fields.names[index]?.any (·.2 rest)

end Fields

namespace Decoder

variable {α : Type}

/-- A record, written as an object, or as an array of its first members in their order; `goesOn`
tells whether more may stand in the array behind the last member. -/
def recordOver (goesOn : Bool) (fields : Fields α) : Decoder α where
  read
    | n, .obj members => do fields.build ⟨← enter n, members⟩
    | n, .arr items => do
      let a ← fields.ofItems (← enter n) items
      if goesOn || items.length ≤ fields.names.length then return a else .error .malformed
    | _, json => refuse json
  visits := fields.visits

/-- A record whose arrays end with the last member. -/
def record (fields : Fields α) : Decoder α := recordOver false fields

def openRecord (fields : Fields α) : Decoder α := recordOver true fields

/-- The error of a value that has been read as a whole before it is looked into: all that can be
wrong with it by then is its form. -/
def misfit (_ : JsonError) : JsonError := .mismatched

/-- A value that is read as a whole before it is looked into, so that everything in it counts, also
under a name that is not declared. -/
def whole (build : (levels : Nat) → Json → Except JsonError α) : Decoder α where
  read n json := if json.fits n then (build n json).mapError misfit else .error .malformed
  visits _ := true

def ofJson (d : Decoder α) (json : Json) : Except JsonError α :=
  (d.read json.depth json).mapError misfit

def ofText (d : Decoder α) (text : String) : Except JsonError α :=
  match Json.parse text with
  | .ok json => d.read textNesting json
  | .error fault => .error (fault.error d.visits)

end Decoder

end EntityModel
