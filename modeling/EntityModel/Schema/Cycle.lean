import EntityModel.Entity

/-!
# Base cycles in a list of entities

The entities of a schema are looked up in one list, in which the last entity of an identifier
counts. The bases of the list make a graph with at most one edge from each place, so that a place
lies on a cycle when its own way of bases comes back to it.
-/

namespace EntityModel.Schema

/-- The last place of an identifier. -/
def lastPlace? (entities : List Entity) (id : String) : Option Nat :=
  (entities.reverse.findIdx? (·.id == id)).map (entities.length - 1 - ·)

/-- The place of the base of an entity, where that is in the list. -/
def basePlace? (entities : List Entity) (place : Nat) : Option Nat := do
  let e ← entities[place]?
  lastPlace? entities (← e.base)

/-- The places that the way of bases from a place passes, up to the target and at most `limit` of
them. -/
def wayTo (entities : List Entity) (target : Nat) : (limit : Nat) → (place : Nat) → List Nat
  | 0, _ => []
  | limit + 1, place =>
    match basePlace? entities place with
    | none => []
    | some next => next :: if next = target then [] else wayTo entities target limit next

/-- The way of bases from a place back to itself. No cycle is longer than the list. -/
def cycleWay (entities : List Entity) (place : Nat) : List Nat :=
  wayTo entities place entities.length place

/-- Whether a place lies on a cycle. -/
def isOnCycle (entities : List Entity) (place : Nat) : Bool :=
  (cycleWay entities place).contains place

def idAt (entities : List Entity) (place : Nat) : String := (entities[place]?.map (·.id)).getD ""

/-- The identifiers along the cycle of the first entity that lies on one, with that entity at both
ends. -/
def firstCycle? (entities : List Entity) : Option (List String) :=
  ((List.range entities.length).find? (isOnCycle entities)).map fun start =>
    (start :: cycleWay entities start).map (idAt entities)

def edgeCount (entities : List Entity) : Nat :=
  ((List.range entities.length).filter fun place => (basePlace? entities place).isSome).length

end EntityModel.Schema
