import EntityModel.Proofs.Dependence
import Mathlib.Data.Fintype.EquivFin

/-!
# Types that stand in for entities

An accessor may name a type that stands in for the entity to which it leads. Neither the search for cycles
nor validation looks at accessors: a model in which nothing but accessors is changed is frozen as before, or
refused for the same reason. So these types are registered in a schema just when they are in the model, and
whatever else a model declares, freezing lets through a type that is not.
-/

namespace EntityModel

namespace Relation

/-- The accessors at the left or direct end and at the right or reverse end. -/
def accessors : Relation → List Accessor
  | binary r => [r.left.accessor, r.right.accessor]
  | self r => [r.direct.accessor, r.reverse.accessor]

def mapAccessors (f : Accessor → Accessor) : Relation → Relation
  | binary r => binary { r with
      left := { r.left with accessor := f r.left.accessor }
      right := { r.right with accessor := f r.right.accessor } }
  | self r => self { r with
      direct := { r.direct with accessor := f r.direct.accessor }
      reverse := { r.reverse with accessor := f r.reverse.accessor } }

variable (f : Accessor → Accessor) (relation : Relation)

lemma accessors_mapAccessors : (relation.mapAccessors f).accessors = relation.accessors.map f := by
  cases relation <;> rfl

lemma sourceFragment_mapAccessors :
    (relation.mapAccessors f).sourceFragment = relation.sourceFragment := by
  cases relation <;> rfl

lemma entities_mapAccessors : (relation.mapAccessors f).entities = relation.entities := by
  cases relation <;> rfl

end Relation

def Entity.accessors (e : Entity) : List Accessor := e.entityRelations.map (·.accessor)

def Entity.mapAccessors (f : Accessor → Accessor) (e : Entity) : Entity :=
  { e with entityRelations := e.entityRelations.map fun relation =>
      { relation with accessor := f relation.accessor } }

lemma Entity.accessors_mapAccessors (f : Accessor → Accessor) (e : Entity) :
    (e.mapAccessors f).accessors = e.accessors.map f := by
  simp [mapAccessors, accessors]

namespace Registry

/-- The accessors at the ends of relations and those of the relations that stand on entities. -/
def accessors (r : Registry) : List Accessor :=
  r.relations.flatMap (·.accessors) ++ r.entities.flatMap (·.accessors)

/-- Each type that stands in for an entity is registered. -/
def OverridesResolve (r : Registry) : Prop :=
  ∀ accessor ∈ r.accessors, ∀ id ∈ accessor.entityType, (r.type? id).isSome

/-- A registry that is another one with its accessors changed. -/
structure Reworded (r r' : Registry) (f : Accessor → Accessor) : Prop where
  entities : r'.entities = r.entities.map (·.mapAccessors f)
  relations : r'.relations = r.relations.map (·.mapAccessors f)
  entity? : ∀ id, r'.entity? id = (r.entity? id).map (·.mapAccessors f)
  type? : r'.type? = r.type?
  fragment? : r'.fragment? = r.fragment?

lemma repeated_map {α : Type} (key : α → String) (g : α → α) (seen : List String) (l : List α)
    (hkey : ∀ a, key (g a) = key a) :
    repeated key seen (l.map g) = (repeated key seen l).map g := by
  induction l generalizing seen with
  | nil => rfl
  | cons a l ih =>
    rw [List.map_cons, repeated, repeated, hkey, ih, ih]
    split <;> rfl

lemma gatherFragments_mapAccessors (f : Accessor → Accessor) (refs : List FragmentRef)
    (chain : List Entity) :
    gatherFragments refs (chain.map (·.mapAccessors f)) = gatherFragments refs chain := by
  induction chain generalizing refs with
  | nil => rfl
  | cons e chain ih =>
    rw [List.map_cons, gatherFragments, gatherFragments, ih]
    rfl

namespace Reworded

variable {r r' : Registry} {f : Accessor → Accessor} {e : Entity} {seen : List String}

variable (h : r.Reworded r' f)

include h

lemma accessors : r'.accessors = r.accessors.map f := by
  unfold Registry.accessors
  rw [h.relations, h.entities, List.flatMap_map, List.flatMap_map, List.map_append, List.map_flatMap,
    List.map_flatMap]
  simp only [Relation.accessors_mapAccessors, Entity.accessors_mapAccessors]

lemma base? (e : Entity) : r'.base? (e.mapAccessors f) = (r.base? e).map (·.mapAccessors f) := by
  unfold Registry.base?
  change e.base.bind r'.entity? = _
  rw [Option.map_bind]
  exact Option.bind_congr fun id _ => h.entity? id

lemma looksAlike : r'.LooksAlike r := by
  intro id
  rw [h.entity?, Option.map_map]
  rfl

lemma isKnown : r'.isKnown = r.isKnown := by
  funext id
  unfold Registry.isKnown
  rw [h.entity?, Option.isSome_map]

lemma unknownEntity : r'.unknownEntity = r.unknownEntity := by
  unfold Registry.unknownEntity
  rw [h.isKnown]

lemma checkPropertyType : r'.checkPropertyType = r.checkPropertyType :=
  checkPropertyType_congr h.type? h.looksAlike.derivesFrom

/-- Bases are found as before, with their accessors changed, and the walk meets what it met. -/
lemma chainFrom : r'.chainFrom seen (e.mapAccessors f) =
    (r.chainFrom seen e).map (·.map (·.mapAccessors f)) := by
  -- a walk remembers identifiers, so that both walks have always seen the same
  induction seen, e using chainFrom.induct (r := r) with
  | case1 seen e root =>
    rw [chainFrom_root root, chainFrom_root (by rw [h.base?, root]; rfl)]
    rfl
  | case2 seen e b base met =>
    have base' : r'.base? (e.mapAccessors f) = some (b.mapAccessors f) := by rw [h.base?, base]; rfl
    rw [chainFrom_met base met, chainFrom_met base' met]
    rfl
  | case3 seen e b base new ih =>
    have base' : r'.base? (e.mapAccessors f) = some (b.mapAccessors f) := by rw [h.base?, base]; rfl
    rw [chainFrom_new base new, chainFrom_new base' new]
    change (r'.chainFrom (seen ++ [b.id]) (b.mapAccessors f)).map _ = _
    rw [ih]
    cases r.chainFrom (seen ++ [b.id]) b <;> rfl

lemma lineage (e : Entity) :
    r'.lineage (e.mapAccessors f) = (r.lineage e).map (·.map (·.mapAccessors f)) :=
  h.chainFrom

lemma hasLineage (e : Entity) : r'.hasLineage (e.mapAccessors f) = r.hasLineage e := by
  unfold Registry.hasLineage
  rw [h.lineage]
  cases r.lineage e <;> rfl

lemma effectiveFragments (e : Entity) :
    r'.effectiveFragments (e.mapAccessors f) = r.effectiveFragments e := by
  unfold Registry.effectiveFragments
  rw [h.lineage]
  cases r.lineage e with
  | error err => rfl
  | ok chain => exact congrArg Except.ok (gatherFragments_mapAccessors f [] chain)

lemma identifierProblems : r'.identifierProblems = r.identifierProblems := by
  unfold Registry.identifierProblems
  rw [h.entities, repeated_map (·.id) (·.mapAccessors f) [] r.entities fun _ => rfl, List.map_map]
  rfl

lemma baseProblems (reported : List (List String)) (entities : List Entity) :
    r'.baseProblems reported (entities.map (·.mapAccessors f)) = r.baseProblems reported entities := by
  induction entities generalizing reported with
  | nil => rfl
  | cons e rest ih =>
    rw [List.map_cons, Registry.baseProblems, Registry.baseProblems, h.lineage, h.unknownEntity]
    cases r.lineage e with
    | ok chain => exact congrArg _ (ih reported)
    | error err =>
      cases err <;> simp only [Except.map, ih] <;> rfl

lemma typeProblems : r'.typeProblems = r.typeProblems := by
  unfold Registry.typeProblems
  rw [h.entities, h.type?, h.unknownEntity, List.flatMap_map]
  rfl

lemma entityProblems (e : Entity) : r'.entityProblems (e.mapAccessors f) = r.entityProblems e := by
  unfold Registry.entityProblems
  rw [h.effectiveFragments, h.fragment?, h.checkPropertyType, h.unknownEntity]
  unfold Entity.mapAccessors
  rw [List.flatMap_map]

lemma relationProblems (relation : Relation) :
    r'.relationProblems (relation.mapAccessors f) = r.relationProblems relation := by
  unfold Registry.relationProblems
  rw [h.fragment?, h.unknownEntity, relation.sourceFragment_mapAccessors,
    relation.entities_mapAccessors]

/-- Validation finds the same problems. -/
theorem problems : r'.problems = r.problems := by
  have hsame : r'.hasLineage ∘ (·.mapAccessors f) = r.hasLineage := funext h.hasLineage
  have hsound : (r'.entities.filter r'.hasLineage).map (·.id) =
      (r.entities.filter r.hasLineage).map (·.id) := by
    rw [h.entities, List.filter_map, List.map_map, hsame]
    rfl
  unfold Registry.problems
  dsimp only
  rw [hsound, h.identifierProblems, h.typeProblems, h.entities, h.baseProblems, h.relations,
    List.filter_map, List.flatMap_map, List.flatMap_map]
  simp only [h.entityProblems, h.relationProblems]
  rfl

end Reworded

end Registry

namespace Schema

section Maps

variable {g : Entity → Entity} {entities : List Entity}

lemma lastPlace?_map (hid : ∀ e, (g e).id = e.id) (id : String) :
    lastPlace? (entities.map g) id = lastPlace? entities id := by
  unfold lastPlace?
  rw [← List.map_reverse, List.findIdx?_map, List.length_map]
  congr 2
  funext e
  exact congrArg (· == id) (hid e)

lemma basePlace?_map (hid : ∀ e, (g e).id = e.id) (hbase : ∀ e, (g e).base = e.base) :
    basePlace? (entities.map g) = basePlace? entities := by
  funext place
  unfold basePlace?
  rw [List.getElem?_map]
  cases entities[place]? with
  | none => rfl
  | some e =>
    change (g e).base.bind _ = e.base.bind _
    rw [hbase]
    exact Option.bind_congr fun id _ => lastPlace?_map hid id

lemma wayTo_congr {entities' : List Entity} (h : basePlace? entities' = basePlace? entities)
    (target limit place : Nat) : wayTo entities' target limit place =
      wayTo entities target limit place := by
  induction limit generalizing place with
  | zero => rfl
  | succ limit ih =>
    rw [wayTo, wayTo, h]
    simp only [ih]

lemma idAt_map (hid : ∀ e, (g e).id = e.id) : idAt (entities.map g) = idAt entities := by
  funext place
  unfold idAt
  rw [List.getElem?_map, Option.map_map]
  congr 2
  exact funext hid

/-- The search for cycles looks at identifiers and bases only. -/
lemma firstCycle?_map (hid : ∀ e, (g e).id = e.id) (hbase : ∀ e, (g e).base = e.base) :
    firstCycle? (entities.map g) = firstCycle? entities := by
  have hway : cycleWay (entities.map g) = cycleWay entities := by
    funext place
    unfold cycleWay
    rw [List.length_map, wayTo_congr (basePlace?_map hid hbase)]
  have hcycle : isOnCycle (entities.map g) = isOnCycle entities := by
    funext place
    unfold isOnCycle
    rw [hway]
  unfold firstCycle?
  rw [List.length_map, hcycle, hway, idAt_map hid]

end Maps

def mapAccessors (f : Accessor → Accessor) (s : Schema) : Schema :=
  { s with
    entities := s.entities.map (·.mapAccessors f)
    relations := s.relations.map (·.mapAccessors f) }

/-- The hash of a schema has no part in what is found in it. -/
lemma reworded (s : Schema) (f : Accessor → Accessor) (hash : String) :
    s.registry.Reworded { s.mapAccessors f with contentHash := hash }.registry f := by
  refine ⟨rfl, rfl, fun id => ?_, rfl, rfl⟩
  change findLast? _ (s.entities.map _) = (findLast? _ s.entities).map _
  unfold findLast?
  rw [← List.map_reverse, List.find?_map]
  rfl

end Schema

namespace Model

mutual

/-- The model with its accessors changed, and those of all that it includes. -/
def mapAccessors (f : Accessor → Accessor) : Model → Model
  | ⟨nameSpace, types, fragments, entities, relations, includes, extensions⟩ =>
    ⟨nameSpace, types, fragments, entities.map (·.mapAccessors f),
      relations.map (·.mapAccessors f), forestMapAccessors f includes, extensions⟩
termination_by structural m => m

def forestMapAccessors (f : Accessor → Accessor) : List Model → List Model
  | [] => []
  | m :: rest => m.mapAccessors f :: forestMapAccessors f rest
termination_by structural ms => ms

end

variable (f : Accessor → Accessor)

mutual

theorem tree_mapAccessors : (m : Model) → (m.mapAccessors f).tree = m.tree.map (·.mapAccessors f)
  | ⟨nameSpace, types, fragments, entities, relations, includes, extensions⟩ => by
    have hincludes := forest_mapAccessors includes
    rw [mapAccessors, tree, tree, hincludes, List.map_cons, mapAccessors]
termination_by structural m => m

theorem forest_mapAccessors : (ms : List Model) →
    forest (forestMapAccessors f ms) = (forest ms).map (·.mapAccessors f)
  | [] => rfl
  | m :: rest => by
    rw [forestMapAccessors, forest, forest, tree_mapAccessors m, forest_mapAccessors rest,
      List.map_append]
termination_by structural ms => ms

end

variable (m : Model)

lemma flatMap_tree_mapAccessors {α : Type} {parts : Model → List α} {g : α → α}
    (h : ∀ part : Model, parts (part.mapAccessors f) = (parts part).map g) :
    (m.mapAccessors f).tree.flatMap parts = (m.tree.flatMap parts).map g := by
  rw [tree_mapAccessors, List.flatMap_map, List.map_flatMap]
  simp only [h]

lemma allEntities_mapAccessors :
    (m.mapAccessors f).allEntities = m.allEntities.map (·.mapAccessors f) :=
  flatMap_tree_mapAccessors f m fun part => by cases part; rfl

lemma allRelations_mapAccessors :
    (m.mapAccessors f).allRelations = m.allRelations.map (·.mapAccessors f) :=
  flatMap_tree_mapAccessors f m fun part => by cases part; rfl

lemma allTypes_mapAccessors : (m.mapAccessors f).tree.flatMap (·.types) = m.tree.flatMap (·.types) := by
  have hkept (part : Model) : (part.mapAccessors f).types = part.types.map id := by
    cases part
    exact (List.map_id _).symm
  rw [flatMap_tree_mapAccessors f m hkept, List.map_id]

lemma allFragments_mapAccessors :
    (m.mapAccessors f).tree.flatMap (·.fragments) = m.tree.flatMap (·.fragments) := by
  have hkept (part : Model) : (part.mapAccessors f).fragments = part.fragments.map id := by
    cases part
    exact (List.map_id _).symm
  rw [flatMap_tree_mapAccessors f m hkept, List.map_id]

lemma reworded : m.registry.Reworded (m.mapAccessors f).registry f := by
  refine ⟨allEntities_mapAccessors f m, allRelations_mapAccessors f m, fun id => ?_, funext fun id => ?_,
    funext fun id => ?_⟩
  · change (m.mapAccessors f).entity? id = (m.entity? id).map _
    unfold entity?
    rw [← List.find?_flatMap, ← List.find?_flatMap]
    change (m.mapAccessors f).allEntities.find? _ = (m.allEntities.find? _).map _
    rw [allEntities_mapAccessors, List.find?_map]
    rfl
  · change (m.mapAccessors f).type? id = m.type? id
    unfold type?
    rw [← List.find?_flatMap, ← List.find?_flatMap, allTypes_mapAccessors]
  · change (m.mapAccessors f).fragment? id = m.fragment? id
    unfold fragment?
    rw [← List.find?_flatMap, ← List.find?_flatMap, allFragments_mapAccessors]

variable (settings : Settings)

lemma flatten_mapAccessors : Schema.flatten (m.mapAccessors f) settings =
    { (Schema.flatten m settings).mapAccessors f with
      contentHash := (m.mapAccessors f).contentHash } := by
  have hnameSpace : (m.mapAccessors f).nameSpace = m.nameSpace := by cases m; rfl
  have hextensions : (m.mapAccessors f).extensions = m.extensions := by cases m; rfl
  unfold Schema.flatten Schema.mapAccessors
  rw [allTypes_mapAccessors, allFragments_mapAccessors, allEntities_mapAccessors,
    allRelations_mapAccessors, hnameSpace, hextensions]

/-- A model in which nothing but accessors is changed is frozen as before, or refused for the same
reason. -/
lemma build_mapAccessors : (m.mapAccessors f).build settings = (m.build settings).map fun s =>
    { s.mapAccessors f with contentHash := (m.mapAccessors f).contentHash } := by
  have hproblems := ((Schema.flatten m settings).reworded f (m.mapAccessors f).contentHash).problems
  have hcycle : Schema.firstCycle? ((Schema.flatten m settings).entities.map (·.mapAccessors f)) =
      Schema.firstCycle? (Schema.flatten m settings).entities :=
    Schema.firstCycle?_map (fun _ => rfl) fun _ => rfl
  unfold build
  rw [flatten_mapAccessors]
  dsimp only
  rw [hproblems, Schema.mapAccessors, hcycle]
  cases Schema.firstCycle? (Schema.flatten m settings).entities with
  | some path => rfl
  | none => cases (Schema.flatten m settings).registry.problems <;> rfl

variable {m settings}

lemma isSome_type?_flatten {id : String} :
    ((Schema.flatten m settings).type? id).isSome ↔ (m.type? id).isSome := by
  unfold Schema.type? Schema.findLast? type?
  rw [← List.find?_flatMap, List.find?_isSome, List.find?_isSome]
  simp only [List.mem_reverse]
  rfl

/-- What accessors have been changed to is all that a schema has of them. -/
lemma build_mapAccessors_of_build {s : Schema} (hbuild : m.build settings = .ok s) :
    ∃ s', (m.mapAccessors f).build settings = .ok s' ∧ s'.registry.type? = s.registry.type? ∧
      s'.registry.accessors = s.registry.accessors.map f := by
  have hreworded := s.reworded f (m.mapAccessors f).contentHash
  exact ⟨_, by rw [build_mapAccessors, hbuild]; rfl, hreworded.type?, hreworded.accessors⟩

/-- Accessors, and so the types that stand in for entities, are looked at neither when a model is
validated nor when it is frozen. Whatever they are changed to, the verdict remains, and the schema is the
one of before with its accessors changed. So these types are registered in a schema just when they are in
the model, and each schema has one beside it that differs in accessors alone and in which none of these
types is registered. -/
theorem accessors_are_not_looked_at (m : Model) (settings : Settings) :
    (∀ f, (m.mapAccessors f).registry.validate = m.registry.validate ∧
      (m.mapAccessors f).build settings = (m.build settings).map fun s =>
        { s.mapAccessors f with contentHash := (m.mapAccessors f).contentHash }) ∧
    ∀ s, m.build settings = .ok s →
      (s.registry.OverridesResolve ↔ m.registry.OverridesResolve) ∧
      ∃ f s', (m.mapAccessors f).build settings = .ok s' ∧
        s'.registry.accessors = s.registry.accessors.map f ∧
        ∀ accessor ∈ s'.registry.accessors, ∃ id ∈ accessor.entityType, s'.registry.type? id = none := by
  refine ⟨fun f => ⟨?_, build_mapAccessors f m settings⟩, fun s hbuild => ⟨?_, ?_⟩⟩
  · unfold Registry.validate
    rw [(reworded f m).problems]
  · obtain ⟨rfl, -, -⟩ := build_eq_ok_iff.mp hbuild
    exact forall₂_congr fun accessor _ => forall₂_congr fun id _ => isSome_type?_flatten
  · -- a type that is not registered, put in at every place
    obtain ⟨fresh, hfresh⟩ := Infinite.exists_notMem_finset (s.types.map (·.id)).toFinset
    let f (accessor : Accessor) : Accessor := { accessor with entityType := some fresh }
    obtain ⟨s', hbuild', htype, haccessors⟩ := build_mapAccessors_of_build f hbuild
    refine ⟨f, s', hbuild', haccessors, fun accessor haccessor => ⟨fresh, ?_, ?_⟩⟩
    · rw [haccessors] at haccessor
      obtain ⟨before, -, rfl⟩ := List.mem_map.mp haccessor
      rfl
    · rw [htype, Option.eq_none_iff_forall_not_mem]
      intro type hfound
      obtain ⟨hmem, hid⟩ := Schema.findLast?_eq_some hfound
      refine hfresh (List.mem_toFinset.mpr (List.mem_map.mpr ⟨type, hmem, ?_⟩))
      simpa using hid

namespace StandIns

def person : TypeReference := ⟨"person", .entity "Customer"⟩

def leadingTo (type : String) : Accessor := ⟨none, none, some type⟩

def endOf (entity field type : String) : RelationEnd :=
  { RelationEnd.ofField entity field with accessor := leadingTo type }

def selfEnd (field type : String) : SelfRelationEnd :=
  { SelfRelationEnd.ofField field with accessor := leadingTo type }

/-- Relations of all kinds, and at each of their ends a type that stands in for the entity. -/
def changes (type : String) : List Change :=
  [.addType person, .addFragment (SourceFragment.ofName "links" "links"),
    .addEntity (Entity.ofName "Customer" "Customer"), .addEntity (Entity.ofName "Order" "Order"),
    .addRelation (.binary (.ofEnds "links" (endOf "Order" "order" type)
      (endOf "Customer" "customer" type))),
    .addRelation (.self (.ofEnds "links" "Customer" (selfEnd "from" type) (selfEnd "to" type))),
    .addEntityRelation "Order" { EntityRelation.between "Order" "Customer" with
      accessor := leadingTo type }]

def model (type : String) : Model := ofChanges (changes type)

def schema (type : String) : Schema := Schema.flatten (model type) .default

lemma build_model_person : (model "person").build .default = .ok (schema "person") :=
  build_of_problems (by decide +kernel) (by decide +kernel)

lemma build_model_unregistered : (model "Gone").build .default = .ok (schema "Gone") :=
  build_of_problems (by decide +kernel) (by decide +kernel)

lemma accessors_schema_person :
    (schema "person").registry.accessors = List.replicate 5 (leadingTo "person") := by decide +kernel

lemma overridesResolve_person : (schema "person").registry.OverridesResolve := by
  intro accessor haccessor id hid
  rw [accessors_schema_person] at haccessor
  obtain rfl := List.eq_of_mem_replicate haccessor
  obtain rfl : "person" = id := Option.some.inj hid
  decide +kernel

theorem accessors_are_not_looked_at_person :
    (model "person").build .default = .ok (schema "person") ∧
      (model "person").registry.OverridesResolve ∧
      ∃ f s', ((model "person").mapAccessors f).build .default = .ok s' ∧
        s'.registry.accessors.length = 5 ∧ ¬ s'.registry.OverridesResolve := by
  obtain ⟨-, hbuilt⟩ := accessors_are_not_looked_at (model "person") .default
  obtain ⟨hresolve, f, s', hbuild, haccessors, hnone⟩ := hbuilt _ build_model_person
  have hlength : s'.registry.accessors.length = 5 := by
    rw [haccessors, List.length_map, accessors_schema_person, List.length_replicate]
  refine ⟨build_model_person, hresolve.mp overridesResolve_person, f, s', hbuild, hlength, ?_⟩
  intro hall
  obtain ⟨accessor, haccessor⟩ : ∃ accessor, accessor ∈ s'.registry.accessors :=
    List.exists_mem_of_length_pos (by omega)
  obtain ⟨id, hid, hunknown⟩ := hnone accessor haccessor
  have hknown := hall accessor haccessor id hid
  rw [hunknown] at hknown
  exact absurd hknown (by decide)

end StandIns

end Model

open Model.StandIns in
/-- A model that has been made by its public operations can be frozen although a type that stands in
for an entity is not registered. -/
theorem Schema.build_not_overridesResolve : ¬ ∀ (m : Model) (settings : Settings) (s : Schema),
    m.Reachable → m.build settings = .ok s → s.registry.OverridesResolve := by
  intro h
  have hresolve := h _ _ _ (Model.reachable_ofChanges _) build_model_unregistered
  have haccessor : leadingTo "Gone" ∈ (schema "Gone").registry.accessors := by decide +kernel
  have hknown := hresolve _ haccessor "Gone" rfl
  have hunknown : ((schema "Gone").registry.type? "Gone").isSome = false := by decide +kernel
  rw [hunknown] at hknown
  cases hknown

end EntityModel
