import EntityModel.Digest.Content
import EntityModel.Schema.Cycle
import EntityModel.Settings
import EntityModel.Validation

/-!
# Schemas

A schema is a model that has been frozen: the declarations of the model and of all it includes in
one list of each kind, checked, with the settings that decide on resolution. A look-up takes the
last declaration of an identifier.
-/

namespace EntityModel

structure Schema where
  nameSpace : Option String
  types : List TypeReference
  fragments : List SourceFragment
  entities : List Entity
  relations : List Relation
  extensions : Extensions
  options : ResolveOptions
  /-- Complete views are kept once they have been computed. -/
  memoizes : Bool
  /-- The content hash of the model. -/
  contentHash : String

namespace Schema

/-- The last element with a property. -/
def findLast? {α : Type} (p : α → Bool) (l : List α) : Option α := l.reverse.find? p

theorem findLast?_eq_some {α : Type} {p : α → Bool} {l : List α} {a : α}
    (h : findLast? p l = some a) : a ∈ l ∧ p a = true :=
  ⟨List.mem_reverse.1 (List.mem_of_find?_eq_some h), List.find?_some h⟩

theorem findLast?_isSome {α : Type} {p : α → Bool} {l : List α} {a : α} (ha : a ∈ l)
    (hp : p a = true) : (findLast? p l).isSome :=
  List.find?_isSome.2 ⟨a, List.mem_reverse.2 ha, hp⟩

def entity? (s : Schema) (id : String) : Option Entity := findLast? (·.id == id) s.entities

def type? (s : Schema) (id : String) : Option TypeReference := findLast? (·.id == id) s.types

def fragment? (s : Schema) (id : String) : Option SourceFragment :=
  findLast? (·.id == id) s.fragments

def registry (s : Schema) : Registry where
  nameSpace := s.nameSpace
  options := s.options
  entities := s.entities
  relations := s.relations
  entity? := s.entity?
  type? := s.type?
  fragment? := s.fragment?
  mem_of_entity? h := ⟨(findLast?_eq_some h).1, by simpa using (findLast?_eq_some h).2⟩
  isSome_entity? h := findLast?_isSome h (by simp)
  id_of_type? h := by simpa using (findLast?_eq_some h).2
  id_of_fragment? h := by simpa using (findLast?_eq_some h).2

/-- The declarations of a model and of its includes, before they are checked. -/
def flatten (m : Model) (settings : Settings) : Schema where
  nameSpace := m.nameSpace.or settings.defaultNameSpace
  types := m.tree.flatMap (·.types)
  fragments := m.tree.flatMap (·.fragments)
  entities := m.allEntities
  relations := m.allRelations
  extensions := m.extensions
  options := settings.resolveOptions
  memoizes := settings.memoizeComplete
  contentHash := m.contentHash

/-- The entities whose base is an entity of the schema, in the order of their declaration. -/
def derivedEntities (s : Schema) (id : String) : List Entity :=
  if (s.entity? id).isNone then []
  else (s.entities.filter (·.base == some id)).filterMap fun e => s.entity? e.id

def inheritanceCount (s : Schema) : Nat := edgeCount s.entities

end Schema

namespace Model

/-- Freezes a model. A base cycle is reported before any other problem, and of the other problems
the first. -/
def build (m : Model) (settings : Settings) : Except ModelError Schema :=
  let schema := Schema.flatten m settings
  match Schema.firstCycle? schema.entities with
  | some path => .error (.cyclicInheritance path)
  | none =>
    match schema.registry.problems with
    | [] => .ok schema
    | err :: _ => .error err

end Model

end EntityModel
