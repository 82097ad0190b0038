import EntityModel.Model.Source
import EntityModel.Proofs.Adding
import EntityModel.Proofs.Forms

/-!
# What loading gives

A source that is loaded without an error gives the model that it declares, every declaration in its
place and nothing else. On the way a property gets its name as alias, where it has none, and its
entity as owner. Both are the same again when that model is loaded as a source in its turn.
-/

namespace EntityModel

namespace Edit

variable {m m' : Model}

/-- A change that is refused under a condition. -/
lemma run_unless_eq_ok_iff {refused : Model → Bool} {err : ModelError} {change : Model → Model} :
    EStateM.run (do
      if refused (← get) then throw err
      modify change : Edit Unit) m = .ok () m' ↔ refused m = false ∧ m' = change m := by
  change (if refused m then (throw err : Edit Unit) >>= fun _ => modify change
    else modify change).run m = _ ↔ _
  cases refused m with
  | true => exact ⟨nofun, nofun⟩
  | false => exact ⟨fun h => ⟨rfl, by cases h; rfl⟩, fun ⟨_, h⟩ => by cases h; rfl⟩

lemma forM_addType_eq_ok {types : List TypeReference}
    (h : (types.forM addType).run m = .ok () m') : m' = { m with types := m.types ++ types } := by
  have hstart : m = { m with types := m.types ++ [] } := by cases m; simp
  rw [hstart] at h
  refine ((forM_eq_ok_iff (fun ts => { m with types := m.types ++ ts })
    (fun ts t => (({ m with types := m.types ++ ts } : Model).type? t.id).isSome = false)
    (fun ts t m' => ?_) types).mp h).2
  rw [← List.append_assoc]
  exact run_unless_eq_ok_iff

lemma forM_addFragment_eq_ok {fragments : List SourceFragment}
    (h : (fragments.forM addFragment).run m = .ok () m') :
    m' = { m with fragments := m.fragments ++ fragments } := by
  have hstart : m = { m with fragments := m.fragments ++ [] } := by cases m; simp
  rw [hstart] at h
  refine ((forM_eq_ok_iff (fun fs => { m with fragments := m.fragments ++ fs })
    (fun fs f => (({ m with fragments := m.fragments ++ fs } : Model).fragment? f.id).isSome = false)
    (fun fs f m' => ?_) fragments).mp h).2
  rw [← List.append_assoc]
  exact run_unless_eq_ok_iff

/-- Relations are added when their join tables are known, which other relations do not matter to. -/
lemma forM_addRelation_eq_ok_iff (hnone : m.relations = []) {relations : List Relation} :
    (relations.forM addRelation).run m = .ok () m' ↔
      (∀ relation ∈ relations, (m.fragment? relation.sourceFragment).isSome) ∧
        m' = { m with relations := relations } := by
  have hstart : m = { m with relations := [] } := by cases m; cases hnone; rfl
  have hlookup (before : List Relation) :
      ({ m with relations := before } : Model).fragment? = m.fragment? :=
    Model.fragment?_congr rfl rfl
  have hstep (before : List Relation) (relation : Relation) (m' : Model) :
      (addRelation relation).run { m with relations := before } = .ok () m' ↔
        (m.fragment? relation.sourceFragment).isSome ∧
          m' = { m with relations := before ++ [relation] } := by
    rw [← hlookup before, ← Option.isNone_eq_false_iff]
    exact run_unless_eq_ok_iff
  have hloop : (relations.forM addRelation).run { m with relations := [] } = .ok () m' ↔ _ :=
    forM_eq_ok_iff (fun before => { m with relations := before }) _ hstep relations
  rw [← hstart] at hloop
  rw [hloop]
  refine and_congr_left fun _ => ⟨fun h relation hrelation => ?_, ?_⟩
  · obtain ⟨before, after, he⟩ := List.append_of_mem hrelation
    exact h before relation after he
  · rintro h before relation after rfl
    exact h relation (by simp)

lemma addInclude_eq_ok {other : Model} (h : (addInclude other).run m = .ok () m') :
    m' = { m with includes := m.includes ++ [other] } := by
  unfold addInclude at h
  replace h := run_get_bind_eq_ok h
  split at h
  · cases h
  · cases h
    rfl

end Edit

namespace ModelSource

variable {m m' : Model}

/-- An entity as loading attaches it. -/
def attached (e : Entity) : Entity :=
  { e with properties := e.properties.map fun p => (withAlias p).ownedBy e.id }

lemma owned_withAliases (e : Entity) : (withAliases e).owned = attached e := by
  unfold Entity.owned withAliases attached
  rw [List.map_map]
  rfl

/-- A model with entities in place of its own, as loading attaches them. -/
def withEntities (ground : Model) (entities : List Entity) : Model :=
  { ground with entities := entities.map attached }

/-- Loading may add an entity behind some others: its identifier is new, and with the entity the model
admits it. -/
structure Adds (ground : Model) (before : List Entity) (e : Entity) : Prop where
  unknown : (withEntities ground before).entity? e.id = none
  admits : (withEntities ground (before ++ [e])).registry.Admits (attached e)

lemma forM_addEntity_eq_ok_iff (hnone : m.entities = []) (entities : List Entity) :
    (entities.forM fun e => Edit.addEntity (withAliases e)).run m = .ok () m' ↔
      (∀ before e after, entities = before ++ e :: after → Adds m before e) ∧
        m' = withEntities m entities := by
  have hstart : m = withEntities m [] := by cases m; cases hnone; rfl
  have hlast (before : List Entity) (e : Entity) :
      (withEntities m before).withLast (withAliases e).owned = withEntities m (before ++ [e]) := by
    unfold withEntities Model.withLast
    rw [owned_withAliases, List.map_append]
    rfl
  have hstep (before : List Entity) (e : Entity) (m' : Model) :
      (Edit.addEntity (withAliases e)).run (withEntities m before) = .ok () m' ↔
        Adds m before e ∧ m' = withEntities m (before ++ [e]) := by
    rw [Edit.addEntity_eq_ok_iff, hlast, owned_withAliases]
    exact ⟨fun ⟨hunknown, hadmits, h⟩ => ⟨⟨hunknown, hadmits⟩, h⟩,
      fun ⟨⟨hunknown, hadmits⟩, h⟩ => ⟨hunknown, hadmits, h⟩⟩
  have hloop : (entities.forM fun e => Edit.addEntity (withAliases e)).run (withEntities m []) =
      .ok () m' ↔ _ := Edit.forM_eq_ok_iff (withEntities m) _ hstep entities
  rwa [← hstart] at hloop

/-- Entities that are added one by one have identifiers of their own. -/
lemma nodup_of_adds {entities : List Entity}
    (h : ∀ before e after, entities = before ++ e :: after → Adds m before e) :
    (entities.map (·.id)).Nodup := by
  refine nodup_map_iff_split.mpr fun before e after he x hx => ?_
  exact Model.ne_of_entity?_eq_none (h before e after he).unknown (attached x)
    (List.mem_map_of_mem hx)

lemma placeIn_getElem {order : List String} (hdistinct : order.Nodup) {position : Nat}
    (h : position < order.length) : placeIn order order[position] = position + 1 := by
  have hfirst : order.idxOf? order[position] = some position := by
    refine List.idxOf?_eq_some_iff.mpr ⟨h, rfl, fun before hlt hsame => ?_⟩
    have hposition := hdistinct.getElem_inj_iff.mp hsame
    omega
  unfold placeIn
  rw [hfirst]
  rfl

lemma pairwise_mergeSort_inOrder (order : List String) (entities : List Entity) :
    (entities.mergeSort (inOrder order)).Pairwise fun e d => inOrder order e d = true := by
  refine List.pairwise_mergeSort (fun _ _ _ h h' => ?_) (fun e d => ?_) entities
  · exact decide_eq_true ((of_decide_eq_true h).trans (of_decide_eq_true h'))
  · unfold inOrder
    simpa using Nat.le_total _ _

/-- Entities with distinct identifiers are brought into the order in which these are listed. -/
lemma mergeSort_inOrder {listed entities : List Entity} (hdistinct : (listed.map (·.id)).Nodup)
    (hperm : entities.Perm listed) :
    entities.mergeSort (inOrder (listed.map (·.id))) = listed := by
  have hplace (i j : Nat) (hi : i < listed.length) (hj : j < listed.length) :
      inOrder (listed.map (·.id)) listed[i] listed[j] = true ↔ i ≤ j := by
    have hid (position : Nat) (h : position < listed.length) :
        placeIn (listed.map (·.id)) listed[position].id = position + 1 := by
      rw [← placeIn_getElem hdistinct (by rwa [List.length_map]), List.getElem_map]
    rw [inOrder, hid, hid, decide_eq_true_eq]
    omega
  have hlisted : listed.Pairwise fun e d => inOrder (listed.map (·.id)) e d = true :=
    List.pairwise_iff_getElem.mpr fun i j hi hj hlt => (hplace i j hi hj).mpr hlt.le
  have hsorted := pairwise_mergeSort_inOrder (listed.map (·.id)) entities
  have hperm' := (List.mergeSort_perm entities (inOrder (listed.map (·.id)))).trans hperm
  refine hperm'.eq_of_pairwise (fun e d he hd hle hge => ?_) hsorted hlisted
  obtain ⟨i, hi, rfl⟩ := List.getElem_of_mem (hperm'.mem_iff.mp he)
  obtain ⟨j, hj, rfl⟩ := List.getElem_of_mem hd
  obtain rfl : i = j := ((hplace i j hi hj).mp hle).antisymm ((hplace j i hj hi).mp hge)
  rfl

lemma restoreOrder_eq {entities : List Entity} (hdistinct : (entities.map (·.id)).Nodup) :
    restoreOrder (entities.map (·.id)) (withEntities m (basesFirst entities)) =
      withEntities m entities := by
  have hids : (entities.map attached).map (·.id) = entities.map (·.id) := by
    rw [List.map_map]
    rfl
  unfold restoreOrder withEntities
  rw [← hids]
  dsimp only
  rw [mergeSort_inOrder (hids ▸ hdistinct) ((basesFirst_perm entities).map attached)]

lemma prepareDeclared_eq_ok {types : List TypeReference} {fragments : List SourceFragment}
    (h : (types.forM Edit.addType >>= fun _ => fragments.forM Edit.addFragment).run m = .ok () m') :
    m' = { m with types := m.types ++ types, fragments := m.fragments ++ fragments } := by
  obtain ⟨_, mid, htypes, hfragments⟩ := Edit.run_bind_eq_ok h
  rw [Edit.forM_addFragment_eq_ok hfragments, Edit.forM_addType_eq_ok htypes]

/-- Relations are added to entities as to what they stand on. -/
lemma forM_addRelation_withEntities {ground : Model} (hnone : ground.relations = [])
    (entities : List Entity) {relations : List Relation} :
    (relations.forM Edit.addRelation).run (withEntities ground entities) = .ok () m' ↔
      (∀ relation ∈ relations, (ground.fragment? relation.sourceFragment).isSome) ∧
        m' = { withEntities ground entities with relations := relations } := by
  have hlookup : (withEntities ground entities).fragment? = ground.fragment? :=
    Model.fragment?_congr rfl rfl
  rw [Edit.forM_addRelation_eq_ok_iff (m := withEntities ground entities) hnone, hlookup]

/-- How the declarations of a source are replayed where no entities and relations are yet. Types and
fragments make the ground on which each entity is then looked at. -/
lemma replayDeclared_eq_ok_iff {types : List TypeReference} {fragments : List SourceFragment}
    {entities : List Entity} {relations : List Relation} (hentities : m.entities = [])
    (hrelations : m.relations = []) :
    (replayDeclared types fragments entities relations).run m = .ok () m' ↔ ∃ ground,
      (types.forM Edit.addType >>= fun _ => fragments.forM Edit.addFragment).run m =
        .ok () ground ∧
      (∀ before e after, basesFirst entities = before ++ e :: after → Adds ground before e) ∧
      (∀ relation ∈ relations, (ground.fragment? relation.sourceFragment).isSome) ∧
      m' = { withEntities ground entities with relations := relations } := by
  unfold replayDeclared
  constructor
  · intro h
    obtain ⟨_, mid, htypes, h⟩ := Edit.run_bind_eq_ok h
    obtain ⟨_, ground, hfragments, h⟩ := Edit.run_bind_eq_ok h
    obtain ⟨_, filled, hfilled, h⟩ := Edit.run_bind_eq_ok h
    obtain ⟨_, restored, hrestored, h⟩ := Edit.run_bind_eq_ok h
    have hground : (types.forM Edit.addType >>= fun _ => fragments.forM Edit.addFragment).run m =
        .ok () ground := Edit.run_bind_eq_ok_iff.mpr ⟨(), mid, htypes, hfragments⟩
    have hsame := prepareDeclared_eq_ok hground
    obtain ⟨hadds, rfl⟩ := (forM_addEntity_eq_ok_iff (by rw [hsame]; exact hentities) _).mp hfilled
    have hdistinct := nodup_basesFirst_iff.mp (nodup_of_adds hadds)
    cases hrestored
    rw [restoreOrder_eq hdistinct,
      forM_addRelation_withEntities (by rw [hsame]; exact hrelations)] at h
    exact ⟨ground, hground, hadds, h⟩
  · rintro ⟨ground, hground, hadds, h⟩
    have hsame := prepareDeclared_eq_ok hground
    obtain ⟨_, mid, htypes, hfragments⟩ := Edit.run_bind_eq_ok hground
    have hdistinct := nodup_basesFirst_iff.mp (nodup_of_adds hadds)
    have hfilled := (forM_addEntity_eq_ok_iff (m := ground) (by rw [hsame]; exact hentities) _).mpr
      ⟨hadds, rfl⟩
    refine Edit.run_bind_eq_ok_iff.mpr ⟨(), mid, htypes, ?_⟩
    refine Edit.run_bind_eq_ok_iff.mpr ⟨(), ground, hfragments, ?_⟩
    refine Edit.run_bind_eq_ok_iff.mpr ⟨(), _, hfilled, ?_⟩
    refine Edit.run_bind_eq_ok_iff.mpr ⟨(), _, rfl, ?_⟩
    rw [restoreOrder_eq hdistinct, forM_addRelation_withEntities (by rw [hsame]; exact hrelations)]
    exact h

mutual

/-- The model that a source declares. -/
def declared : ModelSource → Model
  | ⟨nameSpace, types, fragments, entities, relations, includes, extensions⟩ =>
    ⟨nameSpace, types, fragments, entities.map attached, relations, declaredForest includes,
      extensions⟩
termination_by structural source => source

def declaredForest : List ModelSource → List Model
  | [] => []
  | source :: rest => source.declared :: declaredForest rest
termination_by structural sources => sources

end

mutual

/-- Loading gives what the source declares. -/
theorem load_eq_declared : (source : ModelSource) → {m : Model} → source.load = .ok m →
    m = source.declared
  | ⟨nameSpace, types, fragments, entities, relations, includes, extensions⟩, m, h => by
    rw [load, Edit.result_eq_ok_iff] at h
    obtain ⟨_, next, hincludes, hdeclared⟩ := Edit.run_bind_eq_ok h
    have hnext := replayIncludes_eq_ok includes hincludes
    obtain ⟨ground, hground, -, -, rfl⟩ := (replayDeclared_eq_ok_iff (by rw [hnext]; rfl)
      (by rw [hnext]; rfl)).mp hdeclared
    rw [prepareDeclared_eq_ok hground, hnext]
    rfl
termination_by structural source => source

theorem replayIncludes_eq_ok : (sources : List ModelSource) → {m m' : Model} →
    (replayIncludes sources).run m = .ok () m' →
    m' = { m with includes := m.includes ++ declaredForest sources }
  | [], m, m', h => by
    cases h
    cases m
    rw [declaredForest, List.append_nil]
  | source :: rest, m, m', h => by
    rw [replayIncludes] at h
    obtain ⟨other, hother, h⟩ := Edit.run_check_bind_eq_ok h
    obtain ⟨_, next, hinclude, hrest⟩ := Edit.run_bind_eq_ok h
    rw [replayIncludes_eq_ok rest hrest, Edit.addInclude_eq_ok hinclude,
      load_eq_declared source hother]
    dsimp only
    rw [List.append_assoc, List.singleton_append, declaredForest]
termination_by structural sources => sources

end

lemma declaredForest_eq (sources : List ModelSource) :
    declaredForest sources = sources.map declared := by
  induction sources with
  | nil => rfl
  | cons source sources ih => rw [declaredForest, ih, List.map_cons]

lemma declared_eq (source : ModelSource) : source.declared =
    { nameSpace := source.nameSpace, types := source.types, fragments := source.fragments
      entities := source.entities.map attached, relations := source.relations
      includes := source.includes.map declared, extensions := source.extensions } := by
  obtain ⟨nameSpace, types, fragments, entities, relations, includes, extensions⟩ := source
  rw [declared, declaredForest_eq]

/-- What a source declares but for its entities and relations. -/
def groundwork (source : ModelSource) : Model :=
  { source.declared with entities := [], relations := [] }

/-- The model that loading starts with. -/
def blank (source : ModelSource) : Model :=
  { Model.ofNameSpace source.nameSpace with extensions := source.extensions }

/-- Loading the includes and adding the types and the fragments. -/
def prepare (source : ModelSource) : Edit Unit := do
  replayIncludes source.includes
  source.types.forM Edit.addType
  source.fragments.forM Edit.addFragment

/-- What loading checks: the groundwork can be laid, each entity may be added behind those that are
placed before it, and the join tables of the relations are known. -/
structure Loads (source : ModelSource) : Prop where
  prepared : source.prepare.run source.blank = .ok () source.groundwork
  adds : ∀ before e after, basesFirst source.entities = before ++ e :: after →
    Adds source.groundwork before e
  joins : ∀ relation ∈ source.relations,
    (source.groundwork.fragment? relation.sourceFragment).isSome

lemma load_eq (source : ModelSource) : source.load = Edit.result (do
    replayIncludes source.includes
    replayDeclared source.types source.fragments source.entities source.relations) source.blank := by
  obtain ⟨nameSpace, types, fragments, entities, relations, includes, extensions⟩ := source
  rw [load]
  rfl

/-- A source is loaded when its declarations pass the checks, and gives what it declares. -/
theorem load_eq_ok_iff {source : ModelSource} :
    source.load = .ok m ↔ source.Loads ∧ m = source.declared := by
  rw [load_eq, Edit.result_eq_ok_iff, Edit.run_bind_eq_ok_iff]
  constructor
  · rintro ⟨_, next, hincludes, hdeclared⟩
    have hnext := replayIncludes_eq_ok source.includes hincludes
    obtain ⟨ground, hground, hadds, hjoins, rfl⟩ := (replayDeclared_eq_ok_iff (by rw [hnext]; rfl)
      (by rw [hnext]; rfl)).mp hdeclared
    have hsame : ground = source.groundwork := by
      rw [prepareDeclared_eq_ok hground, hnext, groundwork, declared_eq, declaredForest_eq]
      rfl
    subst hsame
    refine ⟨⟨Edit.run_bind_eq_ok_iff.mpr ⟨(), next, hincludes, hground⟩, hadds, hjoins⟩, ?_⟩
    rw [withEntities, groundwork, declared_eq]
  · rintro ⟨⟨hprepared, hadds, hjoins⟩, rfl⟩
    obtain ⟨_, next, hincludes, hground⟩ := Edit.run_bind_eq_ok hprepared
    have hnext := replayIncludes_eq_ok source.includes hincludes
    refine ⟨(), next, hincludes, (replayDeclared_eq_ok_iff (by rw [hnext]; rfl)
      (by rw [hnext]; rfl)).mpr ⟨_, hground, hadds, hjoins, ?_⟩⟩
    rw [withEntities, groundwork, declared_eq]

lemma Loads.load {source : ModelSource} (h : source.Loads) : source.load = .ok source.declared :=
  load_eq_ok_iff.mpr ⟨h, rfl⟩

/-- The includes of a source have been loaded on their own before they are included. -/
lemma loads_of_replayIncludes {sources : List ModelSource}
    (h : (replayIncludes sources).run m = .ok () m') : ∀ inner ∈ sources, inner.Loads := by
  induction sources generalizing m with
  | nil => exact fun inner hinner => absurd hinner List.not_mem_nil
  | cons source sources ih =>
    rw [replayIncludes] at h
    obtain ⟨other, hother, h⟩ := Edit.run_check_bind_eq_ok h
    obtain ⟨_, next, -, hrest⟩ := Edit.run_bind_eq_ok h
    exact List.forall_mem_cons.mpr ⟨(load_eq_ok_iff.mp hother).1, ih hrest⟩

lemma Loads.includes {source : ModelSource} (h : source.Loads) :
    ∀ inner ∈ source.includes, inner.Loads := by
  obtain ⟨_, next, hincludes, -⟩ := Edit.run_bind_eq_ok h.prepared
  exact loads_of_replayIncludes hincludes

/-- Loading is faithful: the model has what the source declares, in the same order. A property without
an alias has its name for one, each property is owned by its entity, and the includes are what the
declared includes load to. -/
theorem load_is_faithful {source : ModelSource} (h : source.load = .ok m) :
    m.nameSpace = source.nameSpace ∧ m.extensions = source.extensions ∧
    m.types = source.types ∧ m.fragments = source.fragments ∧ m.relations = source.relations ∧
    m.entities = source.entities.map (fun e => { e with
      properties := e.properties.map fun p => { p with
        aliasName := if p.aliasName = "" then p.name else p.aliasName
        owner := some e.id } }) ∧
    List.Forall₂ (fun inner other => inner.load = .ok other) source.includes m.includes := by
  obtain ⟨hloads, rfl⟩ := load_eq_ok_iff.mp h
  have hattached (e : Entity) : attached e = { e with
      properties := e.properties.map fun p => { p with
        aliasName := if p.aliasName = "" then p.name else p.aliasName
        owner := some e.id } } := by
    unfold attached
    congr 1
    refine List.map_congr_left fun p _ => ?_
    unfold withAlias
    split <;> rfl
  have hincludes : List.Forall₂ (fun inner other => inner.load = .ok other) source.includes
      (source.includes.map declared) := by
    rw [List.forall₂_map_right_iff, List.forall₂_same]
    exact fun inner hinner => (hloads.includes inner hinner).load
  rw [declared_eq]
  exact ⟨rfl, rfl, rfl, rfl, rfl, List.map_congr_left fun e _ => hattached e, hincludes⟩

lemma load_of_isOk {source : ModelSource} (h : source.load.isOk = true) :
    source.load = .ok source.declared := by
  cases hload : source.load with
  | error err =>
    rw [hload] at h
    cases h
  | ok m => rw [load_eq_declared source hload]

namespace DerivedFirst

def text : TypeReference := ⟨"text", .native ⟨"String", .reference⟩⟩

def title : Property := { Property.ofType "title" text with aliasName := "" }

def derived : Entity := { Entity.ofName "Derived" "Derived" with base := some "Base" }

def base : Entity := { Entity.ofName "Base" "Base" with properties := [title] }

def common : ModelSource := { ModelSource.empty with types := [text] }

/-- An entity that is declared before its base, and has to wait for it when the source is replayed. -/
def source : ModelSource := { ModelSource.empty with includes := [common], entities := [derived, base] }

theorem load_is_faithful_source :
    (basesFirst source.entities).map (·.id) = ["Base", "Derived"] ∧
      source.load = .ok source.declared ∧
      source.declared.entities = [derived,
        { base with properties := [{ title with aliasName := "title", owner := some "Base" }] }] ∧
      List.Forall₂ (fun inner other => inner.load = .ok other) [common] source.declared.includes := by
  have hload : source.load = .ok source.declared := load_of_isOk (by decide +kernel)
  obtain ⟨-, -, -, -, -, hentities, hincludes⟩ := load_is_faithful hload
  exact ⟨by decide +kernel, hload, hentities.trans rfl, hincludes⟩

end DerivedFirst

end ModelSource

namespace Model

mutual

/-- What a model declares, as a source. -/
def source : Model → ModelSource
  | ⟨nameSpace, types, fragments, entities, relations, includes, extensions⟩ =>
    ⟨nameSpace, types, fragments, entities.map Entity.detached, relations,
      forestSources includes, extensions⟩
termination_by structural m => m

def forestSources : List Model → List ModelSource
  | [] => []
  | m :: rest => m.source :: forestSources rest
termination_by structural ms => ms

end

end Model

/-! ### Loading again -/

namespace Edit

lemma forM_map_eq {α β : Type} {edit : β → Edit Unit} {edit' : α → Edit Unit} (f : α → β)
    (h : ∀ a, edit (f a) = edit' a) (l : List α) : (l.map f).forM edit = l.forM edit' := by
  induction l with
  | nil => rfl
  | cons a l ih =>
    change (edit (f a) >>= fun _ => (l.map f).forM edit) = edit' a >>= fun _ => l.forM edit'
    rw [h, ih]

/-- What owner a property has had does not matter to the entity that it is attached to. -/
lemma addEntity_detached (e : Entity) : addEntity e.detached = addEntity e := by
  have hproperties : e.detached.properties.forM (addProperty e.id) =
      e.properties.forM (addProperty e.id) := forM_map_eq _ (fun _ => rfl) e.properties
  have hdeclared : attachDeclared e.detached.id e.detached.fragments e.detached.properties =
      attachDeclared e.id e.fragments e.properties :=
    congrArg (e.fragments.forM (attachFragment e.id) >>= fun _ => ·) hproperties
  funext m
  change (addEntity e.detached).run m = (addEntity e).run m
  rw [run_addEntity, run_addEntity, hdeclared]
  rfl

end Edit

namespace ModelSource

lemma withAlias_eq_self {p : Property} (h : p.aliasName = "" → p.name = "") : withAlias p = p := by
  unfold withAlias
  split
  · next hempty =>
    exact congrArg (fun s => { p with aliasName := s }) ((h hempty).trans hempty.symm)
  · rfl

lemma name_of_withAlias (p : Property) : (withAlias p).aliasName = "" → (withAlias p).name = "" := by
  unfold withAlias
  split
  · exact id
  · next hne => exact fun hempty => absurd hempty hne

lemma withAlias_detached (p : Property) (entity : String) :
    withAlias ((withAlias p).ownedBy entity).detached = (withAlias p).detached :=
  withAlias_eq_self (name_of_withAlias p)

lemma withAliases_attached (e : Entity) :
    withAliases (attached e).detached = (withAliases e).detached := by
  unfold withAliases attached Entity.detached
  simp only [List.map_map]
  congr 1
  exact List.map_congr_left fun p _ => withAlias_detached p e.id

lemma attached_detached (e : Entity) : attached (attached e).detached = attached e := by
  unfold attached Entity.detached
  simp only [List.map_map]
  congr 1
  refine List.map_congr_left fun p _ => ?_
  exact congrArg (·.ownedBy e.id) (withAlias_detached p e.id)

lemma replayDeclared_map {f : Entity → Entity} (hid : ∀ e, (f e).id = e.id)
    (hbase : ∀ e, (f e).base = e.base)
    (hadd : ∀ e, Edit.addEntity (withAliases (f e)) = Edit.addEntity (withAliases e))
    (types : List TypeReference) (fragments : List SourceFragment) (entities : List Entity)
    (relations : List Relation) :
    replayDeclared types fragments (entities.map f) relations =
      replayDeclared types fragments entities relations := by
  have hids : (entities.map f).map (·.id) = entities.map (·.id) := by
    rw [List.map_map]
    exact List.map_congr_left fun e _ => hid e
  have hloop : ((basesFirst entities).map f).forM (fun e => Edit.addEntity (withAliases e)) =
      (basesFirst entities).forM fun e => Edit.addEntity (withAliases e) :=
    Edit.forM_map_eq f hadd _
  unfold replayDeclared
  rw [basesFirst_map hid hbase, hloop, hids]

mutual

/-- What a source declares is loaded as the source is. -/
theorem load_source_declared : (source : ModelSource) → source.declared.source.load = source.load
  | ⟨nameSpace, types, fragments, entities, relations, includes, extensions⟩ => by
    have hadd (e : Entity) : Edit.addEntity (withAliases (attached e).detached) =
        Edit.addEntity (withAliases e) := by
      rw [withAliases_attached, Edit.addEntity_detached]
    rw [declared, Model.source, load, load, replayIncludes_declaredForest includes, List.map_map,
      replayDeclared_map (f := Entity.detached ∘ attached) (fun _ => rfl) (fun _ => rfl) hadd]
termination_by structural source => source

theorem replayIncludes_declaredForest : (sources : List ModelSource) →
    replayIncludes (Model.forestSources (declaredForest sources)) = replayIncludes sources
  | [] => rfl
  | source :: rest => by
    rw [declaredForest, Model.forestSources, replayIncludes, replayIncludes,
      load_source_declared source, replayIncludes_declaredForest rest]
termination_by structural sources => sources

end

end ModelSource

end EntityModel
