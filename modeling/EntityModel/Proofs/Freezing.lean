import EntityModel.Proofs.Association
import EntityModel.Proofs.Declarations
import EntityModel.Proofs.Identifiers

/-!
# Freezing a model

A schema keeps the declarations of a model and its includes in flat lists, and the last one of an
identifier counts; in the model the first one does. With unique identifiers that makes no difference,
and every question is answered alike.
-/

namespace EntityModel

section Lookup

variable {α : Type} {key : α → String} {l : List α}

lemma find?_key_eq_some_iff (hdistinct : (l.map key).Nodup) {id : String} {a : α} :
    l.find? (key · == id) = some a ↔ a ∈ l ∧ key a = id := by
  constructor
  · intro hfound
    exact ⟨List.mem_of_find?_eq_some hfound, by simpa using List.find?_some hfound⟩
  · rintro ⟨ha, rfl⟩
    have hsome : (l.find? (key · == key a)).isSome := List.find?_isSome.mpr ⟨a, ha, by simp⟩
    obtain ⟨b, hb⟩ := Option.isSome_iff_exists.mp hsome
    have hkey : key b = key a := by simpa using List.find?_some hb
    rw [hb, List.inj_on_of_nodup_map hdistinct (List.mem_of_find?_eq_some hb) ha hkey]

/-- With distinct keys the last match of a list is the first. -/
lemma findLast?_key_eq (hdistinct : (l.map key).Nodup) (id : String) :
    Schema.findLast? (key · == id) l = l.find? (key · == id) := by
  have hreverse : (l.reverse.map key).Nodup := by
    rw [List.map_reverse, List.nodup_reverse]
    exact hdistinct
  apply Option.ext
  intro a
  unfold Schema.findLast?
  rw [find?_key_eq_some_iff hreverse, find?_key_eq_some_iff hdistinct, List.mem_reverse]

end Lookup

namespace Model

variable {m : Model}

/-- The flat list of a kind of declaration has distinct identifiers. -/
lemma UniqueIds.nodup_map {α : Type} (h : m.UniqueIds) (kind : Identified)
    (parts : Model → List α) (key : α → String)
    (hkind : ∀ part : Model, part.ids kind = (parts part).map key) :
    ((m.tree.flatMap parts).map key).Nodup := by
  have hnodup := h kind
  unfold visibleIds at hnodup
  rw [List.map_flatMap]
  simpa only [hkind] using hnodup

/-- With distinct identifiers the flat list of entities finds what the model finds. -/
lemma entity?_flatten (hdistinct : (m.allEntities.map (·.id)).Nodup) (settings : Settings) :
    (Schema.flatten m settings).entity? = m.entity? :=
  funext fun id => (findLast?_key_eq hdistinct id).trans List.find?_flatMap

/-- What a model flattens to has the declarations that are visible from it. -/
theorem UniqueIds.sameDeclarations (h : m.UniqueIds) (settings : Settings) :
    (Schema.flatten m settings).registry.SameDeclarations m.registry := by
  have hentities := h.nodup_map .entity (·.entities) (·.id) fun _ => rfl
  have htypes := h.nodup_map .type (·.types) (·.id) fun _ => rfl
  have hfragments := h.nodup_map .sourceFragment (·.fragments) (·.id) fun _ => rfl
  refine ⟨rfl, rfl, entity?_flatten hentities settings, funext fun id => ?_, funext fun id => ?_⟩
  · exact (findLast?_key_eq htypes id).trans List.find?_flatMap
  · exact (findLast?_key_eq hfragments id).trans List.find?_flatMap

end Model

namespace Registry

variable {r r' : Registry}

/-- A question about the view of a registered entity, with the error that there is none. -/
def ask {α : Type} (r : Registry) (id : String) (question : EntityView → Except ModelError α) :
    Except ModelError α :=
  r.view id >>= question

lemma SameDeclarations.ask {α : Type} (h : r.SameDeclarations r')
    {question : EntityView → Except ModelError α}
    (hquestion : ∀ e, question ⟨r, e⟩ = question ⟨r', e⟩) (id : String) :
    r.ask id question = r'.ask id question := by
  unfold Registry.ask view
  rw [h.entity?]
  cases r'.entity? id with
  | none => rfl
  | some e => exact hquestion e

end Registry

namespace Schema

lemma answerAfter_relationProperty (s : Schema) (requests : List String)
    (relation : EntityRelation) :
    s.answerAfter requests (Registry.relationPropertyBy s.complete s.registry relation) =
      s.registry.relationProperty relation :=
  (s.reliable_keptAfter requests).relationProperty relation

/-- A schema that narrows as its model does, with unique identifiers in the model and its includes,
answers every question as the model does, whatever it has been asked before. -/
theorem freezing_preserves_answers {m : Model} {settings : Settings} {s : Schema}
    (hunique : m.UniqueIds) (hnarrow : settings.narrowReferences = true)
    (hbuild : m.build settings = .ok s) :
    (∀ id, s.entity? id = m.entity? id ∧ s.type? id = m.type? id ∧
      s.fragment? id = m.fragment? id) ∧
    s.registry.entities = m.registry.entities ∧ s.registry.relations = m.registry.relations ∧
    (∀ asked id, s.answerAfter asked (s.complete id) = m.registry.complete id) ∧
    (∀ id,
      s.registry.ask id (·.sourceFragments) = m.registry.ask id (·.sourceFragments) ∧
      s.registry.ask id (·.completeProperties) = m.registry.ask id (·.completeProperties) ∧
      ∀ withDisabled,
        s.registry.ask id (·.relations withDisabled) = m.registry.ask id (·.relations withDisabled) ∧
        s.registry.ask id (·.selfRelations withDisabled) =
          m.registry.ask id (·.selfRelations withDisabled) ∧
        s.registry.ask id (·.allRelations withDisabled) =
          m.registry.ask id (·.allRelations withDisabled)) ∧
    (∀ asked relation,
      s.answerAfter asked (Registry.relationPropertyBy s.complete s.registry relation) =
        m.registry.relationProperty relation) := by
  obtain ⟨rfl, -, -⟩ := Model.build_eq_ok_iff.mp hbuild
  have hsame := hunique.sameDeclarations settings
  have hoptions : (flatten m settings).registry.options = m.registry.options := by
    change ResolveOptions.mk settings.narrowReferences = ⟨true⟩
    rw [hnarrow]
  refine ⟨fun id => ?_, hsame.entities, hsame.relations, fun asked id => ?_, fun id => ?_,
    fun asked relation => ?_⟩
  · exact ⟨congrFun hsame.entity? id, congrFun hsame.type? id, congrFun hsame.fragment? id⟩
  · rw [answerAfter_complete, hsame.complete hoptions]
  · have hproperties (e : Entity) :
        EntityView.completeProperties ⟨(flatten m settings).registry, e⟩ =
          EntityView.completeProperties ⟨m.registry, e⟩ := by
      unfold EntityView.completeProperties
      rw [hsame.lineage]
    refine ⟨hsame.ask (fun e => congrFun hsame.effectiveFragments e) id,
      hsame.ask hproperties id, fun withDisabled => ⟨?_, ?_, ?_⟩⟩
    · exact hsame.ask (fun e => congrFun₂ hsame.binaryRelations e withDisabled) id
    · exact hsame.ask (fun e => congrFun₂ hsame.selfRelations e withDisabled) id
    · exact hsame.ask (fun e => congrFun₂ hsame.allRelations e withDisabled) id
  · rw [answerAfter_relationProperty, hsame.relationProperty hoptions]

end Schema

namespace Model

namespace BaseFromInclude

def text : TypeReference := ⟨"text", .native ⟨"String", .reference⟩⟩

def toBase : TypeReference := ⟨"base", .entity "Base"⟩

def parent : Property := Property.ofType "parent" toBase

/-- Derived entities are related to base entities by a join table of the included model. -/
def related : BinaryRelation :=
  .ofEnds "links" (.ofField "Derived" "derived") (.ofField "Base" "base")

def shared : Model :=
  { ofNameSpace none with
    types := [text, toBase]
    fragments := [.ofName "main" "main", .ofName "links" "links"]
    entities := [{ Entity.ofName "Base" "Base" with
      fragments := [.primary "main"]
      properties := [Property.ofType "title" text] }] }

/-- An entity whose base is declared by an included model. -/
def model : Model :=
  { ofNameSpace none with
    entities := [{ Entity.ofName "Derived" "Derived" with
      base := some "Base"
      properties := [parent] }]
    relations := [.binary related]
    includes := [shared] }

def schema : Schema := Schema.flatten model .default

lemma build_model : model.build .default = .ok schema :=
  build_of_problems (by decide +kernel) (by decide +kernel)

lemma uniqueIds_model : model.UniqueIds := by
  intro kind
  cases kind with
  | type => decide +kernel
  | sourceFragment => decide +kernel
  | entity => decide +kernel

/-- What the model answers about the derived entity, which inherits through the include. -/
lemma answers_model :
    model.registry.ask "Derived" (·.sourceFragments) = .ok [.primary "main"] ∧
      (model.registry.ask "Derived" (·.completeProperties)).map (·.map (·.name)) =
        .ok ["parent", "title"] ∧
      model.registry.ask "Derived" (·.relations false) = .ok [related] ∧
      (model.registry.complete "Derived").map (·.properties.map (·.name)) =
        .ok ["title", "parent"] ∧
      model.registry.relationProperty (.between "Derived" "Base") =
        .ok (parent.ownedBy "Derived") := by
  decide +kernel

theorem freezing_preserves_answers_model :
    model.UniqueIds ∧ model.build .default = .ok schema ∧
      (schema.entity? "Base").map (·.name) = some "Base" ∧
      schema.registry.ask "Derived" (·.sourceFragments) = .ok [.primary "main"] ∧
      (schema.registry.ask "Derived" (·.completeProperties)).map (·.map (·.name)) =
        .ok ["parent", "title"] ∧
      schema.registry.ask "Derived" (·.relations false) = .ok [related] ∧
      (schema.answerAfter ["Derived"] (schema.complete "Derived")).map
          (·.properties.map (·.name)) =
        .ok ["title", "parent"] ∧
      schema.answerAfter ["Base"] (Registry.relationPropertyBy schema.complete schema.registry
        (.between "Derived" "Base")) = .ok (parent.ownedBy "Derived") := by
  obtain ⟨hlookups, -, -, hcomplete, hviews, hassociated⟩ :=
    Schema.freezing_preserves_answers uniqueIds_model rfl build_model
  obtain ⟨hfragments, hproperties, hrelations⟩ := hviews "Derived"
  rw [(hlookups "Base").1, hfragments, hproperties, (hrelations false).1, hcomplete, hassociated]
  exact ⟨uniqueIds_model, build_model, by decide +kernel, answers_model⟩

end BaseFromInclude

end Model

end EntityModel
