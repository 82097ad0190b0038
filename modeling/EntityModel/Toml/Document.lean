import EntityModel.Json.Value

/-!
# TOML documents

The tree of a TOML document, and how a header or a key with dots finds its place in it. A table is
declared once: a header may complete a table that has only been passed through, and keys with dots
may add to a table that other such keys have made, but neither touches what has been declared
otherwise. On their way keys with dots may pass what headers have passed through, and the last of
the tables under a repeated header.
-/

namespace EntityModel.Toml

/-- How a table has come about. -/
inductive TableOrigin where
  /-- It has a header of its own. -/
  | header
  /-- It stands on the way to the table of a header. -/
  | passed
  /-- It stands on the way to a value under a key with dots. -/
  | dotted
  /-- It is written between braces. -/
  | braces
  deriving DecidableEq

inductive Node where
  | value (value : Json)
  | table (origin : TableOrigin) (entries : List (String × Node))
  /-- Tables under one repeated header, the last one first. -/
  | tables (items : List (List (String × Node)))
  deriving Inhabited

abbrev Entries := List (String × Node)

def Entries.alter (key : String) (change : Option Node → Option Node) : Entries → Option Entries
  | [] => (change none).map fun node => [(key, node)]
  | e :: rest =>
    if e.1 = key then (change (some e.2)).map fun node => (key, node) :: rest
    else (Entries.alter key change rest).map (e :: ·)

def addNew (node : Node) : Option Node → Option Node
  | none => some node
  | some _ => none

/-- Changes a table at the end of a way of headers; the tables on it are made where missing. -/
def atHeader (path : List String) (change : TableOrigin → Entries → Option Node)
    (origin : TableOrigin) (entries : Entries) : Option Node :=
  match path with
  | [] => change origin entries
  | key :: rest =>
    (Entries.alter key
      (fun node => match node with
        | none => atHeader rest change .passed []
        | some (.table .braces _) => none
        | some (.table origin entries) => atHeader rest change origin entries
        | some (.tables (last :: earlier)) =>
          match atHeader rest change .header last with
          | some (.table _ changed) => some (.tables (changed :: earlier))
          | _ => none
        | some _ => none)
      entries).map (.table origin ·)

def openTable : Option Node → Option Node
  | none => some (.table .header [])
  | some (.table .passed entries) => some (.table .header entries)
  | some _ => none

def openItem : Option Node → Option Node
  | none => some (.tables [[]])
  | some (.tables items) => some (.tables ([] :: items))
  | some _ => none

/-- Puts a value under a key with dots. The last key may stand in the table at hand or in one that
such keys have made, so at least two keys are left where another table is passed. -/
def insertDotted (value : Node) : (path : List String) → Entries → Option Entries
  | [], _ => none
  | [key], entries => Entries.alter key (addNew value) entries
  | key :: rest, entries =>
    Entries.alter key
      (fun node => match node with
        | none => (insertDotted value rest []).map (.table .dotted ·)
        | some (.table .dotted inner) => (insertDotted value rest inner).map (.table .dotted ·)
        | some (.table .passed inner) =>
          if rest.length ≤ 1 then none
          else (insertDotted value rest inner).map (.table .passed ·)
        | some (.tables (last :: earlier)) =>
          if rest.length ≤ 1 then none
          else (insertDotted value rest last).map fun changed => .tables (changed :: earlier)
        | some _ => none)
      entries

def insertUnder (header path : List String) (value : Node) (root : Entries) : Option Entries :=
  match atHeader header
      (fun origin entries => (insertDotted value path entries).map (.table origin ·))
      .header root with
  | some (.table _ changed) => some changed
  | _ => none

def openHeader (openNode : Option Node → Option Node) (path : List String) (root : Entries) :
    Option Entries :=
  match path.getLast? with
  | none => none
  | some key =>
    match atHeader path.dropLast
        (fun origin entries => (Entries.alter key openNode entries).map (.table origin ·))
        .header root with
    | some (.table _ changed) => some changed
    | _ => none

mutual

/-- The document as a JSON value, for records to be read from. -/
def Node.toJson : Node → Json
  | .value json => json
  | .table _ entries => .obj (entriesToJson entries)
  | .tables items => .arr (itemsToJson items).reverse
termination_by structural node => node

def entriesToJson : List (String × Node) → List (String × Json)
  | [] => []
  | (key, node) :: rest => (key, node.toJson) :: entriesToJson rest
termination_by structural entries => entries

def itemsToJson : List (List (String × Node)) → List Json
  | [] => []
  | entries :: rest => .obj (entriesToJson entries) :: itemsToJson rest
termination_by structural items => items

end

end EntityModel.Toml
