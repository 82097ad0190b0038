import EntityModel.Registry

/-!
# Models

A model holds declared types, source fragments, entities and relations, and includes other models,
whose declarations are visible from it. `Model.tree` lists a model and all it includes, at any
depth, a model before its includes; look-ups go through that list and the first match counts.
-/

namespace EntityModel

structure Model where
  nameSpace : Option String
  types : List TypeReference
  fragments : List SourceFragment
  entities : List Entity
  relations : List Relation
  includes : List Model
  extensions : Extensions

namespace Model

def ofNameSpace (nameSpace : Option String) : Model := ⟨nameSpace, [], [], [], [], [], .empty⟩

instance : Inhabited Model := ⟨ofNameSpace none⟩

mutual

/-- The model and the models that it includes, directly or through others. -/
def tree : Model → List Model
  | ⟨nameSpace, types, fragments, entities, relations, includes, extensions⟩ =>
    ⟨nameSpace, types, fragments, entities, relations, includes, extensions⟩ :: forest includes
termination_by structural m => m

def forest : List Model → List Model
  | [] => []
  | m :: rest => m.tree ++ forest rest
termination_by structural ms => ms

end

theorem forest_eq (ms : List Model) : forest ms = ms.flatMap tree := by
  induction ms with
  | nil => rfl
  | cons m rest ih => simp [forest, ih]

theorem tree_eq (m : Model) : m.tree = m :: m.includes.flatMap tree := by
  cases m
  simp [tree, forest_eq]

def allEntities (m : Model) : List Entity := m.tree.flatMap (·.entities)

def allRelations (m : Model) : List Relation := m.tree.flatMap (·.relations)

def entity? (m : Model) (id : String) : Option Entity :=
  m.tree.findSome? fun part => part.entities.find? (·.id == id)

def type? (m : Model) (id : String) : Option TypeReference :=
  m.tree.findSome? fun part => part.types.find? (·.id == id)

def fragment? (m : Model) (id : String) : Option SourceFragment :=
  m.tree.findSome? fun part => part.fragments.find? (·.id == id)

def ownEntity? (m : Model) (id : String) : Option Entity := m.entities.find? (·.id == id)

theorem mem_of_entity? {m : Model} {id : String} {e : Entity} (h : m.entity? id = some e) :
    e ∈ m.allEntities ∧ e.id = id := by
  obtain ⟨part, hpart, he⟩ := List.exists_of_findSome?_eq_some h
  exact ⟨List.mem_flatMap.2 ⟨part, hpart, List.mem_of_find?_eq_some he⟩,
    by simpa using List.find?_some he⟩

theorem isSome_entity? {m : Model} {e : Entity} (h : e ∈ m.allEntities) :
    (m.entity? e.id).isSome := by
  obtain ⟨part, hpart, he⟩ := List.mem_flatMap.1 h
  refine List.findSome?_isSome_iff.2 ⟨part, hpart, ?_⟩
  exact List.find?_isSome.2 ⟨e, he, by simp⟩

theorem id_of_type? {m : Model} {id : String} {t : TypeReference} (h : m.type? id = some t) :
    t.id = id := by
  obtain ⟨_, _, ht⟩ := List.exists_of_findSome?_eq_some h
  simpa using List.find?_some ht

theorem id_of_fragment? {m : Model} {id : String} {f : SourceFragment}
    (h : m.fragment? id = some f) : f.id = id := by
  obtain ⟨_, _, hf⟩ := List.exists_of_findSome?_eq_some h
  simpa using List.find?_some hf

/-- The declarations visible from a model, resolved with narrowing. -/
def registry (m : Model) : Registry where
  nameSpace := m.nameSpace
  options := ⟨true⟩
  entities := m.allEntities
  relations := m.allRelations
  entity? := m.entity?
  type? := m.type?
  fragment? := m.fragment?
  mem_of_entity? := mem_of_entity?
  isSome_entity? := isSome_entity?
  id_of_type? := id_of_type?
  id_of_fragment? := id_of_fragment?

end Model

end EntityModel
