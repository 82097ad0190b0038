import EntityModel.Proofs.Loading
import EntityModel.Proofs.Representation
import EntityModel.Proofs.Verdict

/-!
# Checks that stay settled

What loading checks of an entity it checks against the part of the model that is there by then. All
that comes later only adds to it: further entities, and the models that include this one. So none of
these checks fails afterwards, and validation has only entities to report that are not there.
-/

namespace EntityModel

/-- The error that an entity is not there, wherever it is referred to. -/
def ModelError.IsUnknownEntity (err : ModelError) : Prop :=
  ∃ entity referrer, err = .unknownEntity entity referrer

namespace Registry

/-- What the checks of an addition establish of an entity: its types and fragments are registered, its
types are consistent, and what it names as attached is attached. -/
structure Settled (r : Registry) (e : Entity) : Prop where
  fragments : ∀ ref ∈ e.fragments, (r.fragment? ref.fragment).isSome
  anchors : ∀ ref ∈ e.fragments, ∀ anchor ∈ ref.anchor, r.Attaches e anchor
  types : ∀ p ∈ e.properties, ∃ registered, r.type? p.type.id = some registered ∧
    (p.type.kind = registered.kind ∨ ∃ declared target, p.type.kind = .entity declared ∧
      registered.kind = .entity target ∧ r.Descends declared target)
  bindings : ∀ p ∈ e.properties, ∀ fragment ∈ p.sourceFragment, r.Attaches e fragment

/-- A registry whose answers stand in another one. -/
structure GrowsTo (r r' : Registry) : Prop where
  entities : r.Within r'
  types : ∀ id, ∀ type ∈ r.type? id, r'.type? id = some type
  fragments : ∀ id, (r.fragment? id).isSome → (r'.fragment? id).isSome

variable {r r' : Registry} {e : Entity}

lemma Admits.settled (h : r.Admits e) : r.Settled e where
  fragments ref href := by
    obtain ⟨before, -, htakes⟩ := h.takesFragment href
    exact htakes.known
  anchors ref href anchor hanchor := by
    obtain ⟨before, hbefore, htakes⟩ := h.takesFragment href
    apply attaches_iff.mpr
    refine (htakes.anchor anchor hanchor).imp_left ?_
    rintro ⟨other, hother, hsame⟩
    exact ⟨other, hbefore hother, hsame⟩
  types p hp := by
    obtain ⟨before, htakes⟩ := h.takesProperty hp
    obtain ⟨registered, hregistered, hconsistent⟩ := checkPropertyType_eq_ok_iff.mp htakes.type
    refine ⟨registered, hregistered, ?_⟩
    refine (isConsistent_iff_derivesFrom.mp hconsistent).imp_right ?_
    rintro ⟨declared, target, hkind, htarget, hderives⟩
    exact ⟨declared, target, hkind, htarget, descends_of_derivesFrom hderives⟩
  bindings p hp := by
    obtain ⟨before, htakes⟩ := h.takesProperty hp
    exact htakes.binding

/-- Whatever is added to a registry, what has been settled stays so. -/
lemma Settled.mono (h : r.Settled e) (hgrows : r.GrowsTo r') : r'.Settled e where
  fragments ref href := hgrows.fragments _ (h.fragments ref href)
  anchors ref href anchor hanchor := hgrows.entities.attaches (h.anchors ref href anchor hanchor)
  types p hp := by
    obtain ⟨registered, hregistered, hkind⟩ := h.types p hp
    refine ⟨registered, hgrows.types _ registered hregistered, hkind.imp_right ?_⟩
    rintro ⟨declared, target, hdeclared, htarget, hdescends⟩
    exact ⟨declared, target, hdeclared, htarget, hgrows.entities.descends hdescends⟩
  bindings p hp fragment hfragment := hgrows.entities.attaches (h.bindings p hp fragment hfragment)

lemma not_revisits_of_hasLineage (h : r.hasLineage e = true) : ¬ r.Revisits e := by
  unfold hasLineage at h
  split at h
  · next chain hchain => exact not_revisits_of_lineage hchain
  · cases h

/-! ### What validation has left to report -/

lemma isUnknownEntity_of_mem {referrer : Referrer} {id : String} {err : ModelError}
    (h : err ∈ r.unknownEntity referrer id) : err.IsUnknownEntity := by
  unfold Registry.unknownEntity at h
  split at h
  · cases h
  · exact ⟨id, referrer, List.mem_singleton.mp h⟩

lemma isUnknownEntity_of_mem_baseProblems {reported : List (List String)} {entities : List Entity}
    (hends : ∀ e ∈ entities, ¬ r.Revisits e) :
    ∀ err ∈ r.baseProblems reported entities, err.IsUnknownEntity := by
  induction entities generalizing reported with
  | nil => exact fun err herr => absurd herr List.not_mem_nil
  | cons e rest ih =>
    obtain ⟨hend, hrest⟩ := List.forall_mem_cons.mp hends
    obtain ⟨chain, hchain⟩ := lineage_eq_ok_iff.mpr hend
    intro err herr
    rw [baseProblems, hchain] at herr
    rcases List.mem_append.mp herr with herr | herr
    · obtain ⟨base, -, herr⟩ := List.mem_flatMap.mp herr
      exact isUnknownEntity_of_mem herr
    · exact ih hrest err herr

lemma isUnknownEntity_of_mem_typeProblems :
    ∀ err ∈ r.typeProblems, err.IsUnknownEntity := by
  intro err herr
  obtain ⟨p, -, herr⟩ := List.mem_flatMap.mp herr
  split at herr
  · obtain ⟨target, -, herr⟩ := List.mem_flatMap.mp herr
    exact isUnknownEntity_of_mem herr
  · cases herr

lemma not_mem_problemOf {check : Except ModelError Unit} {err : ModelError} (h : check = .ok ()) :
    err ∉ problemOf check := by
  rw [problemOf_eq_nil_iff.mpr h]
  exact List.not_mem_nil

lemma isUnknownEntity_of_mem_entityProblems (hends : ∀ e ∈ r.entities, ¬ r.Revisits e)
    (he : e ∈ r.entities) (hsettled : r.Settled e) :
    ∀ err ∈ r.entityProblems e, err.IsUnknownEntity := by
  obtain ⟨chain, hchain⟩ := lineage_eq_ok_iff.mpr (hends e he)
  have hattached {fragment : String} (h : r.Attaches e fragment) :
      isAttached (gatherFragments [] chain) fragment = true :=
    (isAttached_effectiveFragments hchain).mpr h
  intro err herr
  unfold entityProblems at herr
  rw [effectiveFragments_of_lineage hchain] at herr
  simp only [List.mem_append, List.mem_flatMap] at herr
  rcases herr with ((⟨ref, href, herr⟩ | ⟨ref, href, herr⟩) | ⟨p, hp, herr | herr⟩) |
    ⟨relation, -, id, -, herr⟩
  · rw [if_neg (by simpa [Option.isSome_iff_ne_none] using hsettled.fragments ref href)] at herr
    cases herr
  · refine absurd herr (not_mem_problemOf (checkAnchor_eq_ok_iff.mpr fun anchor hanchor => ?_))
    exact hattached (hsettled.anchors ref href anchor hanchor)
  · obtain ⟨registered, hregistered, hkind⟩ := hsettled.types p hp
    refine absurd herr (not_mem_problemOf (checkPropertyType_eq_ok_iff.mpr ?_))
    exact ⟨registered, hregistered, (isConsistent_iff hends).mpr hkind⟩
  · refine absurd herr (not_mem_problemOf (checkPropertyFragment_eq_ok_iff.mpr fun f hf => ?_))
    exact hattached (hsettled.bindings p hp f hf)
  · exact isUnknownEntity_of_mem herr

lemma isUnknownEntity_of_mem_relationProblems {relation : Relation}
    (hjoin : (r.fragment? relation.sourceFragment).isSome) :
    ∀ err ∈ r.relationProblems relation, err.IsUnknownEntity := by
  intro err herr
  rcases List.mem_append.mp herr with herr | herr
  · rw [if_neg (by simpa [Option.isSome_iff_ne_none] using hjoin)] at herr
    cases herr
  · obtain ⟨id, -, herr⟩ := List.mem_flatMap.mp herr
    exact isUnknownEntity_of_mem herr

/-- A registry with distinct identifiers, chains that end and settled entities has no problem but that
entities are missing. -/
theorem isUnknownEntity_of_mem_problems (hdistinct : (r.entities.map (·.id)).Nodup)
    (hends : ∀ e ∈ r.entities, ¬ r.Revisits e) (hsettled : ∀ e ∈ r.entities, r.Settled e)
    (hjoins : ∀ relation ∈ r.relations, (r.fragment? relation.sourceFragment).isSome) :
    ∀ err ∈ r.problems, err.IsUnknownEntity := by
  intro err herr
  unfold problems at herr
  rw [identifierProblems_eq_nil_iff.mpr hdistinct, List.nil_append] at herr
  simp only [List.mem_append, List.mem_flatMap, List.mem_filter] at herr
  rcases herr with ((hbase | htype) | ⟨e, ⟨he, -⟩, hentity⟩) | ⟨relation, hrelation, herr⟩
  · exact isUnknownEntity_of_mem_baseProblems hends err hbase
  · exact isUnknownEntity_of_mem_typeProblems err htype
  · exact isUnknownEntity_of_mem_entityProblems hends he (hsettled e he) err hentity
  · exact isUnknownEntity_of_mem_relationProblems (hjoins relation hrelation) err herr

end Registry

namespace Model

variable {m part : Model} {e : Entity}

lemma tree_subset_of_mem_tree (h : part ∈ m.tree) : part.tree ⊆ m.tree := by
  induction m using induct with
  | h m ih =>
    have htree := tree_eq m
    rw [htree, List.mem_cons, List.mem_flatMap] at h
    rcases h with rfl | ⟨other, hother, hpart⟩
    · exact List.Subset.refl _
    · intro x hx
      rw [htree]
      exact List.mem_cons_of_mem _ (List.mem_flatMap.mpr ⟨other, hother, ih other hother hpart hx⟩)

/-- What a model has is found by its identifier, when that is unique. -/
lemma UniqueIds.type?_eq_some_iff (h : m.UniqueIds) {id : String} {type : TypeReference} :
    m.type? id = some type ↔ type ∈ m.tree.flatMap (·.types) ∧ type.id = id := by
  have hdistinct := h.nodup_map .type (·.types) (·.id) fun _ => rfl
  rw [← find?_key_eq_some_iff hdistinct, List.find?_flatMap]
  rfl

lemma mem_of_type? {id : String} {type : TypeReference} (h : m.type? id = some type) :
    type ∈ m.tree.flatMap (·.types) ∧ type.id = id := by
  refine ⟨?_, id_of_type? h⟩
  obtain ⟨part, hpart, htype⟩ := List.exists_of_findSome?_eq_some h
  exact List.mem_flatMap.mpr ⟨part, hpart, List.mem_of_find?_eq_some htype⟩

/-- A part of a model, also with fewer entities than it has, answers as the model does. -/
lemma UniqueIds.growsTo (h : m.UniqueIds) (hpart : part ∈ m.tree) {entities : List Entity}
    {relations : List Relation} (hsub : entities ⊆ part.entities) :
    Registry.GrowsTo { part with entities := entities, relations := relations }.registry
      m.registry := by
  let fewer : Model := { part with entities := entities, relations := relations }
  have hsubset := tree_subset_of_mem_tree hpart
  refine ⟨?_, fun id type htype => ?_, fun id hfound => ?_⟩
  · refine Registry.within_of_subset (h.nodup_map .entity (·.entities) (·.id) fun _ => rfl) ?_
    change fewer.allEntities ⊆ m.allEntities
    intro e he
    rw [allEntities_eq, List.mem_append] at he
    rcases he with he | he
    · exact List.mem_flatMap.mpr ⟨part, hpart, hsub he⟩
    · obtain ⟨other, hother, he⟩ := List.mem_flatMap.mp he
      refine List.mem_flatMap.mpr ⟨other, hsubset ?_, he⟩
      rw [tree_eq]
      exact List.mem_cons_of_mem _ hother
  · have hsame : fewer.type? = part.type? := type?_congr rfl rfl
    change fewer.type? id = some type at htype
    rw [hsame] at htype
    obtain ⟨hmem, hid⟩ := mem_of_type? htype
    obtain ⟨other, hother, hmem⟩ := List.mem_flatMap.mp hmem
    exact h.type?_eq_some_iff.mpr ⟨List.mem_flatMap.mpr ⟨other, hsubset hother, hmem⟩, hid⟩
  · have hsame : fewer.fragment? = part.fragment? := fragment?_congr rfl rfl
    change (fewer.fragment? id).isSome at hfound
    rw [hsame] at hfound
    exact (seenFrom_of_mem_tree hpart).fragment? hfound

end Model

namespace ModelSource

variable {source : ModelSource} {m part : Model}

/-- Every part of a model that has been loaded is what some source loads to. -/
lemma Loads.of_mem_tree (h : source.Loads) (hpart : part ∈ source.declared.tree) :
    ∃ inner : ModelSource, inner.Loads ∧ part = inner.declared := by
  generalize hm : source.declared = m at hpart
  induction m using Model.induct generalizing source with
  | h m ih =>
    rw [Model.tree_eq, List.mem_cons, List.mem_flatMap] at hpart
    rcases hpart with rfl | ⟨other, hother, hpart⟩
    · exact ⟨source, h, hm.symm⟩
    · have hincluded := hother
      rw [← hm, declared_eq] at hincluded
      obtain ⟨inner, hinner, rfl⟩ := List.mem_map.mp hincluded
      exact ih _ hother (h.includes inner hinner) rfl hpart

/-- What loading has checked of a part stands in the model that the part ends up in. -/
lemma Loads.settled (h : source.Loads) (hunique : m.UniqueIds) (hpart : source.declared ∈ m.tree) :
    (∀ e ∈ source.declared.entities, m.registry.Settled e) ∧
      ∀ relation ∈ source.declared.relations, (m.fragment? relation.sourceFragment).isSome := by
  have hdeclared := declared_eq source
  constructor
  · intro e he
    rw [hdeclared] at he
    obtain ⟨d, hd, rfl⟩ := List.mem_map.mp he
    obtain ⟨before, after, hplaced⟩ := List.append_of_mem (mem_basesFirst.mpr hd)
    refine (h.adds before d after hplaced).admits.settled.mono (hunique.growsTo hpart ?_)
    rw [hdeclared]
    exact List.map_subset _ (subset_of_placed hplaced)
  · intro relation hrelation
    rw [hdeclared] at hrelation
    exact (hunique.growsTo hpart (List.nil_subset _)).fragments _ (h.joins relation hrelation)

/-- What the loader has checked never has to be reported: of a model that has been loaded, with unique
identifiers and without base cycles, validation reports nothing but unknown entities. -/
theorem validation_reports_only_unknown_entities (hload : source.load = .ok m)
    (hunique : m.UniqueIds) (hends : ∀ e ∈ m.allEntities, ¬ m.registry.Revisits e)
    {errors : List ModelError} (hvalidate : m.registry.validate = .error errors) :
    ∀ err ∈ errors, ∃ entity referrer, err = .unknownEntity entity referrer := by
  obtain ⟨hloads, rfl⟩ := load_eq_ok_iff.mp hload
  obtain ⟨rfl, -⟩ := Registry.validate_eq_error_iff.mp hvalidate
  have hparts : ∀ part ∈ source.declared.tree,
      (∀ e ∈ part.entities, source.declared.registry.Settled e) ∧
        ∀ relation ∈ part.relations,
          (source.declared.fragment? relation.sourceFragment).isSome := by
    intro part hpart
    obtain ⟨inner, hinner, rfl⟩ := hloads.of_mem_tree hpart
    exact hinner.settled hunique hpart
  refine Registry.isUnknownEntity_of_mem_problems
    (hunique.nodup_map .entity (·.entities) (·.id) fun _ => rfl) hends (fun e he => ?_)
    fun relation hrelation => ?_
  · obtain ⟨part, hpart, he⟩ := List.mem_flatMap.mp he
    exact (hparts part hpart).1 e he
  · obtain ⟨part, hpart, hrelation⟩ := List.mem_flatMap.mp hrelation
    exact (hparts part hpart).2 relation hrelation

end ModelSource

namespace ModelSource.BossElsewhere

def text : TypeReference := ⟨"text", .native ⟨"String", .reference⟩⟩

def boss : TypeReference := ⟨"boss", .entity "Boss"⟩

def people : ModelSource :=
  { ModelSource.empty with
    types := [text]
    fragments := [SourceFragment.ofName "tblPerson" "tblPerson"]
    entities := [{ Entity.ofName "Person" "Person" with
      fragments := [FragmentRef.primary "tblPerson"]
      properties := [{ Property.ofType "name" text with sourceFragment := some "tblPerson" }] }] }

/-- An entity with a fragment from the base that it has in an include, and with a reference to an entity
that nothing declares. -/
def source : ModelSource :=
  { ModelSource.empty with
    types := [boss]
    includes := [people]
    entities := [{ Entity.ofName "Employee" "Employee" with
      base := some "Person"
      properties := [{ Property.ofType "boss" boss with sourceFragment := some "tblPerson" }] }] }

theorem validation_reports_only_unknown_entities_source :
    source.load = .ok source.declared ∧ source.declared.UniqueIds ∧
      source.declared.registry.validate = .error [.unknownEntity "Boss" (.type "boss")] ∧
      ∀ err ∈ [ModelError.unknownEntity "Boss" (.type "boss")],
        ∃ entity referrer, err = .unknownEntity entity referrer := by
  have hload : source.load = .ok source.declared := load_of_isOk (by decide +kernel)
  have hunique : source.declared.UniqueIds := by
    intro kind
    cases kind with
    | type => decide +kernel
    | sourceFragment => decide +kernel
    | entity => decide +kernel
  have hchains : ∀ e ∈ source.declared.allEntities,
      source.declared.registry.hasLineage e = true := by decide +kernel
  have hvalidate : source.declared.registry.validate =
      .error [.unknownEntity "Boss" (.type "boss")] := by decide +kernel
  exact ⟨hload, hunique, hvalidate, validation_reports_only_unknown_entities hload hunique
    (fun e he => Registry.not_revisits_of_hasLineage (hchains e he)) hvalidate⟩

end ModelSource.BossElsewhere

end EntityModel
