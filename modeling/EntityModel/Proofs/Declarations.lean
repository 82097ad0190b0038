import EntityModel.Proofs.Ancestry
import EntityModel.Proofs.Resolution
import EntityModel.Validation
import EntityModel.View

/-!
# What depends on declarations alone

Two registries may list and look up the same declarations and still differ in their namespace and
options. Everything about base chains, relations and validation is then the same in both, and
complete views are when the options agree as well.
-/

namespace EntityModel.Registry

lemma checkPropertyType_congr {r r' : Registry} (htype : r.type? = r'.type?)
    (hderives : r.derivesFrom = r'.derivesFrom) : r.checkPropertyType = r'.checkPropertyType := by
  unfold checkPropertyType isConsistent
  rw [htype, hderives]

lemma pushFragment_congr {r r' : Registry} (hfragment : r.fragment? = r'.fragment?) :
    r.pushFragment = r'.pushFragment := by
  unfold pushFragment checkFragment
  rw [hfragment]

lemma pushProperty_congr {r r' : Registry} (htype : r.checkPropertyType = r'.checkPropertyType) :
    r.pushProperty = r'.pushProperty := by
  unfold pushProperty checkProperty
  rw [htype]

lemma insertMissingTables_congr {r r' : Registry} (hfragment : r.fragment? = r'.fragment?) :
    r.insertMissingTables = r'.insertMissingTables := by
  unfold insertMissingTables
  rw [hfragment, pushFragment_congr hfragment]

/-- What a merge asks of a registry: the answers to look-ups of types and fragments, which entities
derive from which, and how references are narrowed. -/
structure SameJudgements (r r' : Registry) : Prop where
  type? : r.type? = r'.type?
  fragment? : r.fragment? = r'.fragment?
  derivesFrom : r.derivesFrom = r'.derivesFrom
  narrow : r.narrow = r'.narrow

namespace SameJudgements

variable {r r' : Registry} (h : r.SameJudgements r')

include h

lemma checkPropertyType : r.checkPropertyType = r'.checkPropertyType :=
  checkPropertyType_congr h.type? h.derivesFrom

lemma pushProperty : r.pushProperty = r'.pushProperty :=
  pushProperty_congr h.checkPropertyType

lemma bequeath : r.bequeath = r'.bequeath := by
  unfold Registry.bequeath inherit place inheritedForm
  rw [insertMissingTables_congr h.fragment?, h.narrow, h.pushProperty]

lemma merge {old : Option Entity} {new : Entity} (hchain : r.lineage new = r'.lineage new) :
    r.merge old new = r'.merge old new := by
  unfold Registry.merge settle effectiveFragments
  rw [hchain, pushFragment_congr h.fragment?, h.pushProperty, h.bequeath]

/-- A complete view is made of the chain of the entity by such judgements. -/
theorem complete {id : String} {e : Entity} {chain : List Entity} (hfound : r.entity? id = some e)
    (hfound' : r'.entity? id = some e) (hchain : r.lineage e = .ok chain)
    (hchain' : r'.lineage e = .ok chain) : r.complete id = r'.complete id := by
  induction chain generalizing id e with
  | nil => exact absurd (mem_lineage_self hchain) List.not_mem_nil
  | cons x rest ih =>
    have hmerge (old : Option Entity) : r.merge old e = r'.merge old e :=
      h.merge (hchain.trans hchain'.symm)
    obtain ⟨_, hcons, hbase, hrest⟩ := lineage_rest hchain
    obtain ⟨_, hcons', hbase', hrest'⟩ := lineage_rest hchain'
    cases hcons
    cases hcons'
    cases hhead : rest.head? with
    | none =>
      rw [complete_root hfound (hbase.trans hhead), complete_root hfound' (hbase'.trans hhead),
        hmerge]
    | some b =>
      have hb := hbase.trans hhead
      have hb' := hbase'.trans hhead
      rw [complete_base hfound hchain hb, complete_base hfound' hchain' hb',
        ih (base?_eq_some hb).2 (base?_eq_some hb').2 (hrest b hb) (hrest' b hb')]
      exact congrArg _ (funext fun old => hmerge (some old))

end SameJudgements

structure SameDeclarations (r r' : Registry) : Prop where
  entities : r.entities = r'.entities
  relations : r.relations = r'.relations
  entity? : r.entity? = r'.entity?
  type? : r.type? = r'.type?
  fragment? : r.fragment? = r'.fragment?

namespace SameDeclarations

variable {r r' : Registry} (h : r.SameDeclarations r')

section Chains

include h

lemma base? : r.base? = r'.base? := base?_congr h.entity?

lemma lineage : r.lineage = r'.lineage :=
  funext fun _ => (lineage_congr fun _ x _ => congrFun h.base?.symm x).symm

lemma superBase? : r.superBase? = r'.superBase? := by
  unfold Registry.superBase?
  rw [h.lineage]

lemma effectiveFragments : r.effectiveFragments = r'.effectiveFragments := by
  unfold Registry.effectiveFragments
  rw [h.lineage]

lemma derivesFrom : r.derivesFrom = r'.derivesFrom := by
  unfold Registry.derivesFrom
  rw [h.entity?, h.lineage]

lemma checkPropertyType : r.checkPropertyType = r'.checkPropertyType :=
  checkPropertyType_congr h.type? h.derivesFrom

lemma settle : r.settle = r'.settle := by
  unfold Registry.settle
  rw [h.effectiveFragments, pushFragment_congr h.fragment?, pushProperty_congr h.checkPropertyType]

end Chains

section Completion

variable (hoptions : r.options = r'.options)

include h hoptions

lemma sameJudgements : r.SameJudgements r' := by
  refine ⟨h.type?, h.fragment?, h.derivesFrom, ?_⟩
  unfold narrow narrowedTarget? activeSubtypes activeEntities
  rw [hoptions, h.entities]

/-- Complete views are made of declarations and options. -/
theorem complete : r.complete = r'.complete := by
  funext id
  cases hfound : r.entity? id with
  | none => rw [complete_unknown hfound, complete_unknown (h.entity? ▸ hfound)]
  | some e =>
    have hfound' : r'.entity? id = some e := h.entity? ▸ hfound
    cases hchain : r.lineage e with
    | error err => rw [complete_cyclic hfound hchain, complete_cyclic hfound' (h.lineage ▸ hchain)]
    | ok chain => exact (h.sameJudgements hoptions).complete hfound hfound' hchain (h.lineage ▸ hchain)

end Completion

section Relations

include h

lemma joinKey : r.joinKey = r'.joinKey := by
  unfold Registry.joinKey rootName
  rw [h.fragment?, h.entity?, h.superBase?]

lemma noteJoin : r.noteJoin = r'.noteJoin := by
  unfold Registry.noteJoin
  rw [h.joinKey]

lemma relationsOf : r.relationsOf = r'.relationsOf := by
  unfold Registry.relationsOf
  rw [h.relations]

lemma checkChain (withDisabled : Bool) (chain : List Entity) :
    r.checkChain withDisabled chain = r'.checkChain withDisabled chain := by
  induction chain with
  | nil => rfl
  | cons e chain ih =>
    unfold Registry.checkChain binaryRelationsOf
    rw [h.relationsOf, h.noteJoin, ih]

lemma checkedBinary : r.checkedBinary = r'.checkedBinary := by
  funext e withDisabled
  unfold Registry.checkedBinary
  rw [h.lineage]
  exact congrArg _ (funext (h.checkChain withDisabled))

lemma binaryRelations : r.binaryRelations = r'.binaryRelations := by
  unfold Registry.binaryRelations
  rw [h.checkedBinary]

lemma selfRelations : r.selfRelations = r'.selfRelations := by
  unfold Registry.selfRelations selfRelationsOf
  rw [h.relationsOf, h.noteJoin, h.base?, h.checkedBinary]

lemma allRelations : r.allRelations = r'.allRelations := by
  unfold Registry.allRelations
  rw [h.checkedBinary, h.relationsOf]

lemma relationProperty (hoptions : r.options = r'.options) :
    r.relationProperty = r'.relationProperty := by
  unfold Registry.relationProperty relationPropertyBy associate refersTo
  rw [h.complete hoptions, h.entity?, h.type?]

end Relations

section Validation

include h

lemma unknownEntity : r.unknownEntity = r'.unknownEntity := by
  unfold Registry.unknownEntity isKnown
  rw [h.entity?]

lemma baseProblems (reported : List (List String)) (entities : List Entity) :
    r.baseProblems reported entities = r'.baseProblems reported entities := by
  induction entities generalizing reported with
  | nil => rfl
  | cons e rest ih =>
    unfold Registry.baseProblems
    simp only [h.lineage, h.unknownEntity, ih]

lemma typeProblems : r.typeProblems = r'.typeProblems := by
  unfold Registry.typeProblems
  rw [h.entities, h.type?, h.unknownEntity]

lemma entityProblems : r.entityProblems = r'.entityProblems := by
  unfold Registry.entityProblems
  rw [h.fragment?, h.effectiveFragments, h.checkPropertyType, h.unknownEntity]

lemma relationProblems : r.relationProblems = r'.relationProblems := by
  unfold Registry.relationProblems
  rw [h.fragment?, h.unknownEntity]

/-- The problems of a registry are those of its declarations. -/
theorem problems : r.problems = r'.problems := by
  unfold Registry.problems identifierProblems hasLineage
  rw [h.entities, h.relations, h.lineage, h.baseProblems, h.typeProblems, h.entityProblems,
    h.relationProblems]

end Validation

end SameDeclarations

end EntityModel.Registry
