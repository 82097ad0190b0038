import EntityModel.Digest.Content
import EntityModel.Proofs.Loading
import EntityModel.Storage

/-!
# Reading back the text of a model

The text that a model's hash is taken of is the form of a source, but for the name of one member: a
model writes its source fragments as `fragments`, and a source has them as `source_fragments`. What
is not named is not looked at, so the text is read as the model without its fragments, if it can be
loaded at all.
-/

namespace EntityModel

open Decoder Fields

namespace ModelSource

mutual

/-- The form in which a source is read. -/
def toJson : ModelSource → Json
  | ⟨nameSpace, types, fragments, entities, relations, includes, extensions⟩ =>
    .obj [("namespace", .ofString? nameSpace), ("types", .ofList TypeReference.toJson types),
      ("source_fragments", .ofList SourceFragment.toJson fragments),
      ("entities", .ofList Entity.toJson entities),
      ("relations", .ofList Relation.toJson relations), ("includes", .arr (forestToJson includes)),
      ("extensions", Extensions.toJson extensions)]
termination_by structural source => source

def forestToJson : List ModelSource → List Json
  | [] => []
  | source :: rest => source.toJson :: forestToJson rest
termination_by structural sources => sources

end

lemma forestToJson_eq (sources : List ModelSource) : forestToJson sources = sources.map toJson := by
  induction sources with
  | nil => rfl
  | cons source sources ih => rw [forestToJson, ih, List.map_cons]

end ModelSource

namespace Model

lemma forestSources_eq (ms : List Model) : forestSources ms = ms.map source := by
  induction ms with
  | nil => rfl
  | cons m ms ih => rw [forestSources, ih, List.map_cons]

lemma forestToJson_eq (ms : List Model) : forestToJson ms = ms.map toJson := by
  induction ms with
  | nil => rfl
  | cons m ms ih => rw [forestToJson, ih, List.map_cons]

mutual

/-- What a model declares is read as it is written. -/
theorem reads_source : (m : Model) → (levels : Nat) →
    (ModelSource.decoderWithin levels).ReadsAt levels m.source.toJson m.source
  | ⟨nameSpace, types, fragments, entities, relations, includes, extensions⟩, levels => by
    have hnames : ["namespace", "types", "source_fragments", "entities", "relations", "includes",
      "extensions"].Nodup := by decide
    have hincluded := reads_forestSources includes
    obtain ⟨other, hdecoder, hother⟩ :
        ∃ other, ModelSource.decoderWithin levels = ModelSource.decoderOver other ∧ _ :=
      exists_inner rfl rfl (fun _ => rfl) levels
    have hincludes : other.list.ReadsAt (levels - 1)
        (.arr (ModelSource.forestToJson (forestSources includes))) (forestSources includes) := by
      rw [ModelSource.forestToJson_eq]
      exact readsAt_inner hother hincluded
    have hentities := Reads.listAs Entity.reads (entities.map Entity.detached) (levels - 1)
    rw [List.map_map, Function.comp_def] at hentities
    simp only [Entity.detached_detached] at hentities
    rw [hdecoder, source, ModelSource.toJson]
    have hwrites := ((writes_string? "namespace" nameSpace).map ModelSource.mk)
      |>.seq (writes_list "types" TypeReference.reads types)
      |>.seq (writes_list "source_fragments" SourceFragment.reads fragments)
      |>.seq (writes_orElse "entities" [] hentities)
      |>.seq (writes_list "relations" Relation.reads relations)
      |>.seq (writes_orElse "includes" [] hincludes)
      |>.seq (writes_orElse "extensions" .empty (Extensions.reads extensions _))
    simp only [List.cons_append, List.nil_append] at hwrites
    exact readsAt_record hnames hwrites
termination_by structural m => m

theorem reads_forestSources : (ms : List Model) → ∀ source ∈ forestSources ms, ∀ levels,
    (ModelSource.decoderWithin levels).ReadsAt levels source.toJson source
  | [] => fun _ h => (nomatch h)
  | m :: rest => by
    have hfirst := reads_source m
    have hrest := reads_forestSources rest
    rw [forestSources]
    exact List.forall_mem_cons.mpr ⟨hfirst, hrest⟩
termination_by structural ms => ms

end

/-- How what a model declares is written: like the model, but for the name of the fragments. -/
lemma toJson_source (m : Model) : m.source.toJson =
    .obj [("namespace", .ofString? m.nameSpace), ("types", .ofList TypeReference.toJson m.types),
      ("source_fragments", .ofList SourceFragment.toJson m.fragments),
      ("entities", .ofList Entity.toJson m.entities),
      ("relations", .ofList Relation.toJson m.relations),
      ("includes", .ofList (fun m : Model => m.source.toJson) m.includes),
      ("extensions", Extensions.toJson m.extensions)] := by
  have hentities (entities : List Entity) :
      Json.ofList Entity.toJson (entities.map Entity.detached) = .ofList Entity.toJson entities := by
    unfold Json.ofList
    rw [List.map_map]
    exact congrArg Json.arr (List.map_congr_left fun e _ => e.toJson_detached)
  cases m
  rw [source, ModelSource.toJson, hentities, ModelSource.forestToJson_eq, forestSources_eq,
    List.map_map]
  rfl

lemma toJson_eq (m : Model) : m.toJson =
    .obj [("namespace", .ofString? m.nameSpace), ("types", .ofList TypeReference.toJson m.types),
      ("fragments", .ofList SourceFragment.toJson m.fragments),
      ("entities", .ofList Entity.toJson m.entities),
      ("relations", .ofList Relation.toJson m.relations),
      ("includes", .ofList toJson m.includes),
      ("extensions", Extensions.toJson m.extensions)] := by
  cases m
  rw [toJson, forestToJson_eq]
  rfl

mutual

theorem plain_toJson : (m : Model) → m.toJson.Plain
  | ⟨nameSpace, types, fragments, entities, relations, includes, extensions⟩ => by
    have hincludes := plain_forestToJson includes
    rw [toJson]
    refine .obj ?_
    simp only [List.forall_mem_cons]
    exact ⟨(reads_string? nameSpace).plain, (Reads.list TypeReference.reads types).plain,
      (Reads.list SourceFragment.reads fragments).plain,
      (Reads.listAs Entity.reads entities).plain, (Reads.list Relation.reads relations).plain,
      .arr hincludes, (Extensions.reads extensions).plain, fun _ h => (nomatch h)⟩
termination_by structural m => m

theorem plain_forestToJson : (ms : List Model) → ∀ json ∈ forestToJson ms, json.Plain
  | [] => fun _ h => (nomatch h)
  | m :: rest => List.forall_mem_cons.mpr ⟨plain_toJson m, plain_forestToJson rest⟩
termination_by structural ms => ms

end

mutual

theorem depth_toJson_source : (m : Model) → m.source.toJson.depth = m.toJson.depth
  | ⟨nameSpace, types, fragments, entities, relations, includes, extensions⟩ => by
    have hincludes : (Json.ofList (fun m : Model => m.source.toJson) includes).depth =
        (Json.ofList toJson includes).depth := congrArg (· + 1) (depth_forestToJson includes)
    rw [toJson_source, toJson_eq]
    simp only [Json.depth, Json.membersDepth, hincludes]
termination_by structural m => m

theorem depth_forestToJson : (ms : List Model) →
    Json.itemsDepth (ms.map fun m => m.source.toJson) = Json.itemsDepth (ms.map toJson)
  | [] => rfl
  | m :: rest => by
    rw [List.map_cons, List.map_cons, Json.itemsDepth, Json.itemsDepth, depth_toJson_source m,
      depth_forestToJson rest]
termination_by structural ms => ms

end

/-! ### Models without fragments -/

mutual

/-- The model, and all that it includes, with no source fragment. -/
def withoutFragments : Model → Model
  | ⟨nameSpace, types, _, entities, relations, includes, extensions⟩ =>
    ⟨nameSpace, types, [], entities, relations, forestWithoutFragments includes, extensions⟩
termination_by structural m => m

def forestWithoutFragments : List Model → List Model
  | [] => []
  | m :: rest => m.withoutFragments :: forestWithoutFragments rest
termination_by structural ms => ms

end

mutual

theorem withoutFragments_eq_self_iff : (m : Model) →
    (m.withoutFragments = m ↔ ∀ part ∈ m.tree, part.fragments = [])
  | ⟨nameSpace, types, fragments, entities, relations, includes, extensions⟩ => by
    have hincludes := forestWithoutFragments_eq_self_iff includes
    rw [withoutFragments, tree, List.forall_mem_cons, ← hincludes]
    simp [eq_comm]
termination_by structural m => m

theorem forestWithoutFragments_eq_self_iff : (ms : List Model) →
    (forestWithoutFragments ms = ms ↔ ∀ part ∈ forest ms, part.fragments = [])
  | [] => ⟨fun _ _ h => (nomatch h), fun _ => rfl⟩
  | m :: rest => by
    rw [forestWithoutFragments, forest, List.forall_mem_append, ← withoutFragments_eq_self_iff m,
      ← forestWithoutFragments_eq_self_iff rest, List.cons.injEq]
termination_by structural ms => ms

end

mutual

/-- A source does not look at the fragments of a model, at any depth. -/
theorem read_toJson : (m : Model) → (levels : Nat) →
    (ModelSource.decoderWithin levels).read levels m.toJson =
      (ModelSource.decoderWithin levels).read levels m.withoutFragments.source.toJson
  | ⟨nameSpace, types, fragments, entities, relations, includes, extensions⟩, levels => by
    have hincludes := read_forestToJson includes
    rw [toJson_eq, withoutFragments, toJson_source]
    -- Where only one level is left, the member that is missing on one side is not reached: the list
    -- of types fails before it.
    match levels with
    | 0 => rfl
    | 1 => cases nameSpace <;> rfl
    | n + 2 => exact build_seq_congr (build_seq_congr rfl (hincludes n)) rfl
termination_by structural m => m

theorem read_forestToJson : (ms : List Model) → (levels : Nat) →
    (ms.map toJson).mapM ((ModelSource.decoderWithin levels).read levels) =
      ((forestWithoutFragments ms).map fun m => m.source.toJson).mapM
        ((ModelSource.decoderWithin levels).read levels)
  | [], _ => rfl
  | m :: rest, levels => by
    rw [forestWithoutFragments, List.map_cons, List.map_cons, List.mapM_cons, List.mapM_cons,
      read_toJson m levels, read_forestToJson rest levels]
termination_by structural ms => ms

end

lemma sourceOfText_contentText (m : Model) : ModelSource.ofText m.contentText =
    if m.withoutFragments.toJson.depth ≤ textNesting then .ok m.withoutFragments.source
    else .error .malformed := by
  unfold ModelSource.ofText Decoder.ofText contentText
  rw [Json.parse_compact m.plain_toJson]
  change (ModelSource.decoderWithin textNesting).read textNesting m.toJson = _
  rw [read_toJson, (reads_source m.withoutFragments textNesting).read, depth_toJson_source]

lemma ofText_contentText_eq_ok_iff {m m' : Model} : ofText m.contentText = .ok m' ↔
    m.withoutFragments.toJson.depth ≤ textNesting ∧ m.withoutFragments.source.load = .ok m' := by
  unfold ofText
  rw [sourceOfText_contentText]
  by_cases hdeep : m.withoutFragments.toJson.depth ≤ textNesting
  · rw [if_pos hdeep]
    dsimp only
    cases m.withoutFragments.source.load with
    | error err => exact ⟨nofun, fun ⟨_, h⟩ => (nomatch h)⟩
    | ok read => exact ⟨fun h => ⟨hdeep, by cases h; rfl⟩, fun ⟨_, h⟩ => by cases h; rfl⟩
  · rw [if_neg hdeep]
    exact ⟨nofun, fun ⟨h, _⟩ => absurd h hdeep⟩

end Model

namespace ModelSource

mutual

theorem declared_source_withoutFragments : (source : ModelSource) →
    source.declared.withoutFragments.source.declared = source.declared.withoutFragments
  | ⟨nameSpace, types, fragments, entities, relations, includes, extensions⟩ => by
    have hentities : ((entities.map attached).map Entity.detached).map attached =
        entities.map attached := by
      rw [List.map_map, List.map_map]
      exact List.map_congr_left fun e _ => attached_detached e
    rw [declared, Model.withoutFragments, Model.source, declared, hentities,
      declaredForest_forestSources includes]
termination_by structural source => source

theorem declaredForest_forestSources : (sources : List ModelSource) →
    declaredForest (Model.forestSources (Model.forestWithoutFragments (declaredForest sources))) =
      Model.forestWithoutFragments (declaredForest sources)
  | [] => rfl
  | source :: rest => by
    rw [declaredForest, Model.forestWithoutFragments, Model.forestSources, declaredForest,
      declared_source_withoutFragments source, declaredForest_forestSources rest]
termination_by structural sources => sources

end

end ModelSource

namespace Model

/-- A loaded model is read back from its text just when there is no source fragment in it or in an
include, and the text is not nested too deeply. Whatever else is read from it is the model without
its fragments. -/
theorem text_reads_back_iff {source : ModelSource} {m : Model} (h : source.load = .ok m) :
    (ofText m.contentText = .ok m ↔
      (∀ part ∈ m.tree, part.fragments = []) ∧ m.toJson.depth ≤ textNesting) ∧
    ∀ m', ofText m.contentText = .ok m' → m' = m.withoutFragments := by
  have hdeclared := ModelSource.load_eq_declared source h
  have hread (m' : Model) (h' : ofText m.contentText = .ok m') : m' = m.withoutFragments := by
    have hload := (ofText_contentText_eq_ok_iff.mp h').2
    rw [ModelSource.load_eq_declared _ hload, hdeclared,
      ModelSource.declared_source_withoutFragments]
  refine ⟨⟨fun hback => ?_, fun ⟨hnone, hdeep⟩ => ?_⟩, hread⟩
  · have hsame := hread m hback
    have hdeep := (ofText_contentText_eq_ok_iff.mp hback).1
    rw [← hsame] at hdeep
    exact ⟨(withoutFragments_eq_self_iff m).mp hsame.symm, hdeep⟩
  · have hsame := (withoutFragments_eq_self_iff m).mpr hnone
    rw [ofText_contentText_eq_ok_iff, hsame]
    refine ⟨hdeep, ?_⟩
    rw [hdeclared, ModelSource.load_source_declared, h, hdeclared]

namespace Staff

def text : TypeReference := ⟨"text", .native ⟨"String", .reference⟩⟩

def common : ModelSource :=
  { ModelSource.empty with
    types := [text], entities := [{ Entity.ofName "Person" "Person" with
      properties := [{ Property.ofType "name" text with aliasName := "" }] }] }

/-- An entity whose base is in an include. -/
def source : ModelSource :=
  { ModelSource.empty with
    includes := [common]
    entities := [{ Entity.ofName "Employee" "Employee" with base := some "Person" }] }

theorem text_reads_back_iff_staff : source.load = .ok source.declared ∧
    ofText source.declared.contentText = .ok source.declared := by
  have hload : source.load = .ok source.declared := ModelSource.load_of_isOk (by decide +kernel)
  exact ⟨hload, (text_reads_back_iff hload).1.mpr ⟨by decide +kernel, by decide +kernel⟩⟩

end Staff

namespace OneTable

def source : ModelSource :=
  { ModelSource.empty with fragments := [SourceFragment.ofName "tblPerson" "tblPerson"] }

lemma load_source : source.load = .ok source.declared :=
  ModelSource.load_of_isOk (by decide +kernel)

end OneTable

/-- A sound model that has been loaded need not come back from its text. -/
theorem load_not_text_reads_back : ¬ ∀ (source : ModelSource) (m : Model), source.load = .ok m →
    m.registry.validate = .ok () → ofText m.contentText = .ok m := by
  intro h
  have hback := h OneTable.source OneTable.source.declared OneTable.load_source rfl
  have hload := (ofText_contentText_eq_ok_iff.mp hback).2
  have hnone := congrArg fragments (ModelSource.load_eq_declared _ hload)
  cases hnone

end Model

end EntityModel
