import EntityModel.Json.Token

/-!
# Reading JSON

A text is read by recursion on its tokens, with the arrays and objects that are still open on a
stack. Nesting is not limited here: how deep a value may go is for the one who decodes it. Reading
stops at the first token out of place; an end of text before the value is complete is told apart
from that. Where the text ends inside a token, what is wrong can depend on whether the value there
is read or passed over, so the way to that value is part of the fault.
-/

namespace EntityModel.Json

/-- One step from an array or object into it. -/
inductive Step where
  | item (index : Nat)
  | member (name : String)
  deriving DecidableEq

/-- The way from a value to one inside it. -/
abbrev Way := List Step

/-- Why a text is not JSON. -/
inductive Fault where
  | malformed
  | truncated
  /-- The text ends inside the value at the end of a way: the error where that value is read, and
  the error where it is passed over. -/
  | cut (way : Way) (whenRead whenPassed : JsonError)

/-- The error of a fault for one who reads the values that `visits` tells. -/
def Fault.error (visits : Way → Bool) : Fault → JsonError
  | malformed => .malformed
  | truncated => .truncated
  | cut way whenRead whenPassed => if visits way then whenRead else whenPassed

/-- An array or object that is still open, the last read first. -/
inductive OpenValue where
  | items (read : List Json)
  | members (read : List (Option String × Json)) (name : Option String)

/-- What may come next. -/
inductive Expectation where
  | value
  | firstItem
  | firstName (read : List (Option String × Json))
  | name (read : List (Option String × Json))
  | colon (read : List (Option String × Json)) (name : Option String)
  | after (value : Json)

/-- The object of its members, last one first. One name that stands for nothing spoils it. -/
def ofMembers (read : List (Option String × Json)) : Json :=
  match read.reverse.mapM fun e => e.1.map fun name => (name, e.2) with
  | some members => .obj members
  | none => .unreadable

def ofText : Option String → Json
  | some s => .str s
  | none => .unreadable

abbrev ReadState := Expectation × List OpenValue

/-- The way to the value that comes next in the innermost of the open arrays and objects. -/
def wayInto (stack : List OpenValue) : Option Way :=
  stack.reverse.mapM fun
    | .items read => some (.item read.length)
    | .members _ name => name.map .member

/-- The fault of a text that ends inside a value. Under a name that stands for nothing no value is
read. -/
def cutIn (stack : List OpenValue) (whenRead whenPassed : JsonError) : Fault :=
  match wayInto stack with
  | some way => .cut way whenRead whenPassed
  | none => .malformed

def cutTextIn (stack : List OpenValue) (spoilt : Bool) : Fault :=
  if spoilt then cutIn stack .malformed .truncated else .truncated

def startValue (token : Token) (stack : List OpenValue) : Except Fault ReadState :=
  match token with
  | .openArray => .ok (.firstItem, .items [] :: stack)
  | .openObject => .ok (.firstName [], stack)
  | .text s => .ok (.after (ofText s), stack)
  | .scalar value => .ok (.after value, stack)
  | .cutText spoilt => .error (cutTextIn stack spoilt)
  | .cutNumber => .error (cutIn stack .truncated .malformed)
  | .cutWord => .error .truncated
  | _ => .error .malformed

def startName (read : List (Option String × Json)) (token : Token) (stack : List OpenValue) :
    Except Fault ReadState :=
  match token with
  | .text name => .ok (.colon read name, stack)
  | .cutText spoilt => .error (cutTextIn stack spoilt)
  | _ => .error .malformed

def advance (state : ReadState) (token : Token) : Except Fault ReadState :=
  match state, token with
  | (.value, stack), token => startValue token stack
  | (.firstItem, .items [] :: stack), .closeArray => .ok (.after (.arr []), stack)
  | (.firstItem, stack), token => startValue token stack
  | (.firstName read, stack), .closeObject => .ok (.after (ofMembers read), stack)
  | (.firstName read, stack), token => startName read token stack
  | (.name read, stack), token => startName read token stack
  | (.colon read name, stack), .colon => .ok (.value, .members read name :: stack)
  | (.after value, .items read :: stack), .comma => .ok (.value, .items (value :: read) :: stack)
  | (.after value, .items read :: stack), .closeArray =>
    .ok (.after (.arr (value :: read).reverse), stack)
  | (.after value, .members read name :: stack), .comma =>
    .ok (.name ((name, value) :: read), stack)
  | (.after value, .members read name :: stack), .closeObject =>
    .ok (.after (ofMembers ((name, value) :: read)), stack)
  | _, _ => .error .malformed

def complete : ReadState → Except Fault Json
  | (.after value, []) => .ok value
  | _ => .error .truncated

def ofTokens (state : ReadState) : List Token → Except Fault Json
  | [] => complete state
  | token :: rest =>
    match advance state token with
    | .ok after => ofTokens after rest
    | .error e => .error e

def parse (text : String) : Except Fault Json :=
  ofTokens (.value, []) (tokens text.toList)

end EntityModel.Json
