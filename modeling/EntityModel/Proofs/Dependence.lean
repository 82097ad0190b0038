import EntityModel.Proofs.Freezing
import EntityModel.Proofs.Reachable

/-!
# What a completed entity depends on

The complete view of an entity is made of its chain. Of the other entities it sees the outlines: how
they are called, what they are derived from and whether they are disabled, in whatever order they are
declared. What else is declared on an entity that is not on the chain does not matter.
-/

namespace EntityModel

/-- What an entity shows to entities that are not derived from it. -/
def Entity.outline (e : Entity) : String × Option String × Bool := (e.id, e.base, e.disabled)

lemma Entity.id_of_outline {e e' : Entity} (h : e.outline = e'.outline) : e.id = e'.id :=
  congrArg (·.1) h

lemma Entity.base_of_outline {e e' : Entity} (h : e.outline = e'.outline) : e.base = e'.base :=
  congrArg (·.2.1) h

namespace Registry

/-- Registries with distinct identifiers whose entities have the same outlines, in any order, and that
agree on all that is not an entity. -/
structure SameOutlines (r r' : Registry) : Prop where
  distinct : (r.entities.map (·.id)).Nodup
  distinct' : (r'.entities.map (·.id)).Nodup
  options : r.options = r'.options
  type? : r.type? = r'.type?
  fragment? : r.fragment? = r'.fragment?
  outlines : ∀ outline,
    outline ∈ r.entities.map (·.outline) ↔ outline ∈ r'.entities.map (·.outline)

/-- Two registries answer alike what the complete entity of an identifier is, with which fragments and
which properties, or why there is none. -/
structure SameViewAt (r r' : Registry) (id : String) : Prop where
  complete : r.complete id = r'.complete id
  sourceFragments : r.ask id (·.sourceFragments) = r'.ask id (·.sourceFragments)
  completeProperties : r.ask id (·.completeProperties) = r'.ask id (·.completeProperties)

variable {r r' : Registry} {e e' : Entity} {id : String}

lemma map_outline_entity?_iff (hdistinct : (r.entities.map (·.id)).Nodup)
    {outline : String × Option String × Bool} :
    (r.entity? id).map (·.outline) = some outline ↔
      outline ∈ r.entities.map (·.outline) ∧ outline.1 = id := by
  rw [Option.map_eq_some_iff, List.mem_map]
  constructor
  · rintro ⟨e, hfound, rfl⟩
    obtain ⟨he, hid⟩ := r.mem_of_entity? hfound
    exact ⟨⟨e, he, rfl⟩, hid⟩
  · rintro ⟨⟨e, he, rfl⟩, rfl⟩
    exact ⟨e, entity?_of_distinct hdistinct he, rfl⟩

lemma mem_activeSubtypes_iff_outline {target : String} :
    id ∈ r.activeSubtypes target ↔ (id, some target, false) ∈ r.entities.map (·.outline) := by
  rw [mem_activeSubtypes, List.mem_map]
  unfold Entity.outline
  simp [and_comm, and_left_comm, and_assoc]

lemma activeSubtypes_nodup (hdistinct : (r.entities.map (·.id)).Nodup) (target : String) :
    (r.activeSubtypes target).Nodup :=
  hdistinct.sublist ((List.filter_sublist.trans List.filter_sublist).map _)

/-- To which subtype a reference is narrowed does not depend on the order in which they are found. -/
lemma narrowedTarget?_of_perm {completing target : String}
    (hperm : (r.activeSubtypes target).Perm (r'.activeSubtypes target)) :
    r.narrowedTarget? completing target = r'.narrowedTarget? completing target := by
  unfold narrowedTarget?
  revert hperm
  generalize r.activeSubtypes target = candidates
  generalize r'.activeSubtypes target = candidates'
  intro hperm
  match candidates, candidates', hperm with
  | [], _, hperm => rw [hperm.nil_eq]
  | [only], _, hperm => rw [hperm.singleton_eq]
  | _ :: _ :: _, [], hperm => cases hperm.length_eq
  | _ :: _ :: _, [_], hperm => cases hperm.length_eq
  | _ :: _ :: _, _ :: _ :: _, hperm =>
    dsimp only
    rw [hperm.contains_eq]

/-- Registries that find entities of the same outlines. -/
def LooksAlike (r r' : Registry) : Prop :=
  ∀ id, (r.entity? id).map (·.outline) = (r'.entity? id).map (·.outline)

namespace LooksAlike

variable (h : r.LooksAlike r')

include h

lemma symm : r'.LooksAlike r := fun id => (h id).symm

lemma base? (hbase : e.base = e'.base) :
    (r.base? e).map (·.outline) = (r'.base? e').map (·.outline) := by
  unfold Registry.base?
  rw [hbase]
  cases e'.base with
  | none => rfl
  | some base => exact h base

/-- Entities of one outline have chains with the same identifiers, or come back along the same way. -/
lemma map_id_chainFrom {seen : List String} (hsame : e.outline = e'.outline) :
    (r.chainFrom seen e).map (·.map (·.id)) = (r'.chainFrom seen e').map (·.map (·.id)) := by
  have hid : e.id = e'.id := Entity.id_of_outline hsame
  have hbases := h.base? (Entity.base_of_outline hsame)
  induction seen, e using chainFrom.induct (r := r) generalizing e' with
  | case1 seen e root =>
    rw [chainFrom_root root, chainFrom_root (eq_none_of_map_eq_map hbases root)]
    simp [Except.map, hid]
  | case2 seen e b base met =>
    obtain ⟨b', base', hb⟩ := exists_of_map_eq_map hbases base
    have hidb : b.id = b'.id := Entity.id_of_outline hb
    rw [chainFrom_met base met, chainFrom_met base' (hidb ▸ met), hidb]
  | case3 seen e b base new ih =>
    -- the bases are found apart in each registry, but their outlines agree again
    obtain ⟨b', base', hb⟩ := exists_of_map_eq_map hbases base
    have hidb : b.id = b'.id := Entity.id_of_outline hb
    have hrest := ih hb hidb (h.base? (Entity.base_of_outline hb))
    have hcons (d : Entity) (chain : Except ModelError (List Entity)) :
        (chain.map (d :: ·)).map (·.map (·.id)) = (chain.map (·.map (·.id))).map (d.id :: ·) := by
      cases chain <;> rfl
    rw [chainFrom_new base new, chainFrom_new base' (hidb ▸ new), ← hidb, hcons, hcons, hrest, hid]

lemma map_id_lineage (hsame : e.outline = e'.outline) :
    (r.lineage e).map (·.map (·.id)) = (r'.lineage e').map (·.map (·.id)) := by
  unfold lineage
  rw [h.map_id_chainFrom hsame, Entity.id_of_outline hsame]

lemma exists_lineage (hsame : e.outline = e'.outline) {chain : List Entity}
    (hchain : r.lineage e = .ok chain) :
    ∃ chain', r'.lineage e' = .ok chain' ∧ chain.map (·.id) = chain'.map (·.id) := by
  have hids := h.map_id_lineage hsame
  rw [hchain] at hids
  cases hchain' : r'.lineage e' with
  | error err =>
    rw [hchain'] at hids
    cases hids
  | ok chain' =>
    rw [hchain'] at hids
    exact ⟨chain', rfl, Except.ok.inj hids⟩

lemma revisits_iff (hsame : e.outline = e'.outline) : r.Revisits e ↔ r'.Revisits e' := by
  rw [← not_iff_not, ← lineage_eq_ok_iff, ← lineage_eq_ok_iff]
  constructor
  · rintro ⟨chain, hchain⟩
    obtain ⟨chain', hchain', -⟩ := h.exists_lineage hsame hchain
    exact ⟨chain', hchain'⟩
  · rintro ⟨chain', hchain'⟩
    obtain ⟨chain, hchain, -⟩ := h.symm.exists_lineage hsame.symm hchain'
    exact ⟨chain, hchain⟩

lemma derivesFrom_of_derivesFrom {derived base : String}
    (hderives : r.derivesFrom derived base = true) : r'.derivesFrom derived base = true := by
  obtain ⟨e, chain, hfound, hchain, hbase⟩ := derivesFrom_eq_true.mp hderives
  obtain ⟨e', hfound', hsame⟩ := exists_of_map_eq_map (h derived) hfound
  obtain ⟨chain', hchain', hids⟩ := h.exists_lineage hsame hchain
  exact derivesFrom_eq_true.mpr ⟨e', chain', hfound', hchain', hids ▸ hbase⟩

/-- Which entities derive from which shows in the outlines. -/
lemma derivesFrom : r.derivesFrom = r'.derivesFrom := by
  funext derived base
  exact Bool.eq_iff_iff.mpr ⟨h.derivesFrom_of_derivesFrom, h.symm.derivesFrom_of_derivesFrom⟩

end LooksAlike

namespace SameOutlines

variable (h : r.SameOutlines r')

include h

lemma looksAlike : r.LooksAlike r' := by
  intro id
  ext outline
  rw [map_outline_entity?_iff h.distinct, map_outline_entity?_iff h.distinct', h.outlines]

lemma sameJudgements : r.SameJudgements r' := by
  refine ⟨h.type?, h.fragment?, h.looksAlike.derivesFrom, ?_⟩
  · have htarget : r.narrowedTarget? = r'.narrowedTarget? := by
      funext completing target
      refine narrowedTarget?_of_perm ((List.perm_ext_iff_of_nodup
        (activeSubtypes_nodup h.distinct target) (activeSubtypes_nodup h.distinct' target)).mpr
        fun id => ?_)
      rw [mem_activeSubtypes_iff_outline, mem_activeSubtypes_iff_outline, h.outlines]
    unfold narrow
    rw [h.options, htarget]

end SameOutlines

lemma ask_of_found {α : Type} {question : EntityView → Except ModelError α}
    (hfound : r.entity? id = some e) : r.ask id question = question ⟨r, e⟩ := by
  unfold ask view
  rw [hfound]
  rfl

lemma ask_of_unknown {α : Type} {question : EntityView → Except ModelError α}
    (hunknown : r.entity? id = none) : r.ask id question = .error (.unknownEntity id .lookup) := by
  unfold ask view
  rw [hunknown]
  rfl

/-- Of an entity that is on the chain all that it declares counts, of the others only the outline. -/
theorem SameOutlines.sameViewAt (h : r.SameOutlines r')
    (hchain : (r.entity? id).map r.lineage = (r'.entity? id).map r'.lineage) :
    r.SameViewAt r' id := by
  cases hfound : r.entity? id with
  | none =>
    have hunknown := eq_none_of_map_eq_map hchain hfound
    refine ⟨?_, ?_, ?_⟩
    · rw [complete_unknown hfound, complete_unknown hunknown]
    · rw [ask_of_unknown hfound, ask_of_unknown hunknown]
    · rw [ask_of_unknown hfound, ask_of_unknown hunknown]
  | some e =>
    obtain ⟨e', hfound', hsame⟩ := exists_of_map_eq_map hchain hfound
    have hfragments : r.ask id (·.sourceFragments) = r'.ask id (·.sourceFragments) := by
      rw [ask_of_found hfound, ask_of_found hfound']
      unfold EntityView.sourceFragments effectiveFragments
      rw [hsame]
    cases hlineage : r.lineage e with
    | error err =>
      refine ⟨?_, hfragments, ?_⟩
      · rw [complete_cyclic hfound hlineage, complete_cyclic hfound' (hsame.symm.trans hlineage)]
      · rw [ask_of_found hfound, ask_of_found hfound']
        unfold EntityView.completeProperties
        rw [← hsame, hlineage]
        rfl
    | ok chain =>
      have hlineage' := hsame.symm.trans hlineage
      obtain ⟨_, rfl, -, -⟩ := lineage_rest hlineage
      obtain ⟨_, hcons, -, -⟩ := lineage_rest hlineage'
      cases hcons
      refine ⟨h.sameJudgements.complete hfound hfound' hlineage hlineage', hfragments, ?_⟩
      rw [ask_of_found hfound, ask_of_found hfound']
      unfold EntityView.completeProperties
      rw [hsame]

/-- Registries that declare the same, the entities in any order. -/
structure SameUpToOrder (r r' : Registry) : Prop where
  distinct : (r.entities.map (·.id)).Nodup
  options : r.options = r'.options
  type? : r.type? = r'.type?
  fragment? : r.fragment? = r'.fragment?
  entities : r.entities.Perm r'.entities

namespace SameUpToOrder

variable (h : r.SameUpToOrder r')

include h

lemma sameOutlines : r.SameOutlines r' :=
  ⟨h.distinct, (h.entities.map _).nodup_iff.mp h.distinct, h.options, h.type?, h.fragment?,
    fun _ => (h.entities.map _).mem_iff⟩

lemma entity? : r.entity? = r'.entity? := by
  funext id
  cases hfound : r.entity? id with
  | none => exact (eq_none_of_map_eq_map (h.sameOutlines.looksAlike id) hfound).symm
  | some e =>
    obtain ⟨he, rfl⟩ := r.mem_of_entity? hfound
    exact (entity?_of_distinct h.sameOutlines.distinct' (h.entities.mem_iff.mp he)).symm

lemma lineage : r.lineage = r'.lineage := by
  funext e
  refine (lineage_congr fun _ x _ => ?_).symm
  unfold base?
  rw [h.entity?]

/-- The order in which entities are declared does not matter. -/
lemma sameViewAt (id : String) : r.SameViewAt r' id :=
  h.sameOutlines.sameViewAt (by rw [h.entity?, h.lineage])

end SameUpToOrder

end Registry

namespace Change

/-- The entity whose properties, fragments or inheritance of these a change is about. -/
def detailOf? : Change → Option String
  | addProperty entity _ | insertProperty entity _ _ | removeProperty entity _
  | suppress entity _ | attachFragment entity _ | insertFragment entity _ _
  | clearFragments entity | setInheritsBaseTables entity _ => some entity
  | _ => none

end Change

namespace Model

/-- A model with the first own entity of an identifier changed, but for its outline. -/
def DetailedAt (m : Model) (entity : String) (m' : Model) : Prop :=
  ∃ change : Entity → Entity, (∀ e, (change e).outline = e.outline) ∧
    m' = m.changeEntity entity change

variable {m m' : Model} {entity : String}

lemma DetailedAt.refl (m : Model) (entity : String) : m.DetailedAt entity m := by
  refine ⟨fun e => e, fun _ => rfl, ?_⟩
  unfold changeEntity
  rw [changeFirst_eq_self fun _ _ => rfl]
  cases m
  rfl

lemma DetailedAt.changeEntity (h : m.DetailedAt entity m') {change : Entity → Entity}
    (hchange : ∀ e, (change e).outline = e.outline) :
    m.DetailedAt entity (m'.changeEntity entity change) := by
  obtain ⟨before, hbefore, rfl⟩ := h
  refine ⟨fun e => change (before e), fun e => (hchange _).trans (hbefore e), ?_⟩
  unfold Model.changeEntity
  rw [changeFirst_changeFirst fun e => Entity.id_of_outline (hbefore e)]

end Model

namespace Edit

variable {m : Model} {entity : String}

lemma keeps_detailedAt_changeEntity {change : Entity → Entity}
    (hchange : ∀ e, (change e).outline = e.outline) :
    Keeps (m.DetailedAt entity) (changeEntity entity change) := by
  refine (isAtomic_changeEntity entity change).keeps fun m _ m' hm h => ?_
  obtain ⟨-, rfl⟩ := run_changeEntity_eq_ok h
  exact hm.changeEntity hchange

lemma keeps_detailedAt_insertProperty (position : Nat) (p : Property) :
    Keeps (m.DetailedAt entity) (insertProperty entity position p) := by
  refine (isAtomic_insertProperty entity position p).keeps fun m _ m' hm h => ?_
  obtain ⟨e, attached, -, -, -, rfl⟩ := insertProperty_eq_ok h
  exact hm.changeEntity fun _ => rfl

lemma keeps_detailedAt_removeProperty (aliasName : String) :
    Keeps (m.DetailedAt entity) (removeProperty entity aliasName) := by
  refine (isAtomic_removeProperty entity aliasName).keeps fun m _ m' hm h => ?_
  obtain ⟨-, rfl⟩ := removeProperty_eq_ok h
  exact hm.changeEntity fun _ => rfl

lemma keeps_detailedAt_insertFragment (position : Nat) (ref : FragmentRef) :
    Keeps (m.DetailedAt entity) (insertFragment entity position ref) := by
  refine (isAtomic_insertFragment entity position ref).keeps fun m _ m' hm h => ?_
  obtain ⟨e, attached, -, -, -, -, rfl⟩ := insertFragment_eq_ok h
  exact hm.changeEntity fun _ => rfl

lemma keeps_detailedAt_suppress (name : String) :
    Keeps (m.DetailedAt entity) (suppress entity name) := by
  refine keeps_detailedAt_changeEntity fun e => ?_
  split <;> rfl

end Edit

open Edit in
/-- A change to the details of an entity leaves all outlines alone, also when it fails. -/
lemma Change.detailedAt {c : Change} {entity : String} (h : c.detailOf? = some entity) (m : Model) :
    m.DetailedAt entity (c.edit.after m) := by
  suffices hkeeps : Keeps (m.DetailedAt entity) c.edit from hkeeps m (.refl m entity)
  cases c <;> cases h
  case addProperty p =>
    exact keeps_bind (keeps_ownEntity entity) fun _ => keeps_detailedAt_insertProperty _ p
  case insertProperty position p => exact keeps_detailedAt_insertProperty position p
  case removeProperty aliasName =>
    exact keeps_bind (keeps_detailedAt_removeProperty aliasName) fun _ => keeps_pure ()
  case attachFragment ref =>
    exact keeps_bind (keeps_ownEntity entity) fun _ => keeps_detailedAt_insertFragment _ ref
  case insertFragment position ref => exact keeps_detailedAt_insertFragment position ref
  case clearFragments => exact keeps_detailedAt_changeEntity fun _ => rfl
  case suppress name => exact keeps_detailedAt_suppress name
  case setInheritsBaseTables inherits => exact keeps_detailedAt_changeEntity fun _ => rfl

namespace Model

variable {m m' : Model} {entity id : String}

lemma DetailedAt.sameOutlines (h : m.DetailedAt entity m')
    (hdistinct : (m.allEntities.map (·.id)).Nodup) : m.registry.SameOutlines m'.registry := by
  obtain ⟨change, hchange, rfl⟩ := h
  have hmap {α : Type} {key : Entity → α} (hkey : ∀ e, key (change e) = key e) :
      (m.changeEntity entity change).allEntities.map key = m.allEntities.map key := by
    rw [allEntities_eq, allEntities_eq m, List.map_append, List.map_append]
    exact congrArg (· ++ _) (map_changeFirst fun e _ => hkey e)
  have hids := hmap fun e => Entity.id_of_outline (hchange e)
  refine ⟨hdistinct, hids ▸ hdistinct, rfl, type?_congr rfl rfl, fragment?_congr rfl rfl,
    fun outline => ?_⟩
  change outline ∈ m.allEntities.map _ ↔ outline ∈ (m.changeEntity entity change).allEntities.map _
  rw [hmap hchange]

/-- Changes to the details of an entity do not show in its outline. -/
lemma DetailedAt.looksAlike (h : m.DetailedAt entity m') : m.registry.LooksAlike m'.registry := by
  obtain ⟨change, hchange, rfl⟩ := h
  have hid (e : Entity) : (change e).id = e.id := Entity.id_of_outline (hchange e)
  intro id
  change (m.entity? id).map _ = ((m.changeEntity entity change).entity? id).map _
  by_cases hne : id = entity
  · subst hne
    rw [entity?_eq, entity?_eq (m.changeEntity id change), ownEntity?_changeEntity hid]
    cases m.ownEntity? id with
    | none => rfl
    | some e => exact congrArg some (hchange e).symm
  · rw [entity?_changeEntity_of_ne hid hne]

/-- Look-ups that do not meet the entity find what they found before. -/
lemma DetailedAt.entity?_eq (h : m.DetailedAt entity m')
    (hapart : ∀ e ∈ m.entity? id, e.id ≠ entity) : m'.entity? id = m.entity? id := by
  cases hfound : m.entity? id with
  | none => exact eq_none_of_map_eq_map (h.looksAlike id) hfound
  | some e =>
    have hne : id ≠ entity := (mem_of_entity? hfound).2 ▸ hapart e hfound
    obtain ⟨change, hchange, rfl⟩ := h
    rw [entity?_changeEntity_of_ne (fun e => Entity.id_of_outline (hchange e)) hne, hfound]

lemma DetailedAt.base?_eq (h : m.DetailedAt entity m') {x : Entity}
    (hapart : ∀ b ∈ m.registry.base? x, b.id ≠ entity) :
    m'.registry.base? x = m.registry.base? x := by
  change x.base.bind m'.entity? = x.base.bind m.entity?
  refine Option.bind_congr fun base hbase => h.entity?_eq fun b hb => hapart b ?_
  exact Option.bind_eq_some_iff.mpr ⟨base, hbase, hb⟩

/-- The chain of an entity is not touched by changes to the details of one that is not on it. -/
lemma DetailedAt.lineage_eq (h : m.DetailedAt entity m')
    (hapart : ∀ e ∈ m.entity? id, ∀ steps, ∀ x ∈ m.registry.ancestor? e steps, x.id ≠ entity) :
    (m.registry.entity? id).map m.registry.lineage =
      (m'.registry.entity? id).map m'.registry.lineage := by
  change (m.entity? id).map m.registry.lineage = (m'.entity? id).map m'.registry.lineage
  rw [h.entity?_eq fun e he => hapart e he 0 e rfl]
  cases hfound : m.entity? id with
  | none => rfl
  | some e =>
    refine congrArg some (Registry.lineage_congr fun steps x hx => h.base?_eq fun b hb => ?_).symm
    -- what is found for the base is one step further up, so it is apart as well
    refine hapart e hfound (steps + 1) b ?_
    rw [Registry.ancestor?_succ, hx, Option.bind_some]
    exact hb

end Model

namespace Registry

/-- What a completed entity depends on. Registries with distinct identifiers that show the same
outlines, types, fragments and options answer alike about an entity whose chain is the same in both.
So the order in which entities are declared does not matter, and neither does what changes about the
properties, fragments and suppressions of an entity that is not on the chain. -/
theorem completed_entity_depends_on_chain_and_outlines :
    (∀ (r r' : Registry) (id : String), r.SameOutlines r' →
      (r.entity? id).map r.lineage = (r'.entity? id).map r'.lineage → r.SameViewAt r' id) ∧
    (∀ (r r' : Registry) (id : String), r.SameUpToOrder r' → r.SameViewAt r' id) ∧
    ∀ (m : Model) (c : Change) (entity id : String), (m.allEntities.map (·.id)).Nodup →
      c.detailOf? = some entity →
      (∀ e ∈ m.entity? id, ∀ steps, ∀ x ∈ m.registry.ancestor? e steps, x.id ≠ entity) →
      m.registry.SameViewAt (c.edit.after m).registry id := by
  refine ⟨fun r r' id h hchain => h.sameViewAt hchain, fun r r' id h => h.sameViewAt id,
    fun m c entity id hdistinct hdetail hapart => ?_⟩
  have hdetailed := Change.detailedAt hdetail m
  exact (hdetailed.sameOutlines hdistinct).sameViewAt (hdetailed.lineage_eq hapart)

end Registry

namespace Model.NarrowedBeside

def reference : TypeReference := ⟨"reference", .entity "Target"⟩

def entities : List Entity :=
  [Entity.ofName "Target" "Target",
    { Entity.ofName "Special" "Special" with base := some "Target" },
    { Entity.ofName "First" "First" with properties := [.ofType "p" reference] },
    { Entity.ofName "Second" "Second" with base := some "First" }]

/-- A reference that is narrowed to an entity off the chain as it is inherited. -/
def model : Model := { ofNameSpace none with types := [reference], entities := entities }

def reversed : Model := { model with entities := entities.reverse }

def extended : Model := (Change.addProperty "Special" (.ofType "q" reference)).edit.after model

lemma nodup_ids : (model.allEntities.map (·.id)).Nodup := by decide +kernel

lemma sameUpToOrder_reversed : model.registry.SameUpToOrder reversed.registry := by
  refine ⟨nodup_ids, rfl, rfl, rfl, ?_⟩
  change model.allEntities.Perm reversed.allEntities
  rw [allEntities_eq, allEntities_eq reversed]
  exact (List.reverse_perm entities).symm.append_right _

lemma apart_special : ∀ e ∈ model.entity? "Second", ∀ steps,
    ∀ x ∈ model.registry.ancestor? e steps, x.id ≠ "Special" := by
  intro e he steps x hx
  have hids : (model.entity? "Second").map (fun e => (model.registry.lineage e).map (·.map (·.id))) =
      some (.ok ["Second", "First"]) := by decide +kernel
  rw [he, Option.map_some] at hids
  cases hchain : model.registry.lineage e with
  | error err =>
    rw [hchain] at hids
    cases hids
  | ok chain =>
    rw [hchain] at hids
    have hsame : chain.map (·.id) = ["Second", "First"] := Except.ok.inj (Option.some.inj hids)
    rw [Registry.ancestor?_of_lineage hchain] at hx
    have hmem : x.id ∈ chain.map (·.id) := List.mem_map_of_mem (List.mem_of_getElem? hx)
    intro hid
    rw [hsame, hid] at hmem
    exact absurd hmem (by decide)

theorem completed_entity_depends_on_chain_and_outlines_second :
    (model.registry.complete "Second").toOption.map (·.properties.map (·.type.kind)) =
        some [.entity "Special"] ∧
      extended.allEntities.map (·.properties.length) = [0, 1, 1, 0] ∧
      model.registry.SameOutlines extended.registry ∧
      model.registry.SameViewAt extended.registry "Second" ∧
      model.registry.SameViewAt reversed.registry "Second" ∧
      model.registry.SameViewAt ((Change.suppress "Special" "p").edit.after model).registry
        "Second" := by
  obtain ⟨houtlines, horder, hdetails⟩ := Registry.completed_entity_depends_on_chain_and_outlines
  have hextended : model.DetailedAt "Special" extended := Change.detailedAt rfl model
  have hsame := hextended.sameOutlines nodup_ids
  have hchain := hextended.lineage_eq apart_special
  exact ⟨by decide +kernel, by decide +kernel, hsame, houtlines _ _ "Second" hsame hchain,
    horder _ _ "Second" sameUpToOrder_reversed,
    hdetails model _ "Special" "Second" nodup_ids rfl apart_special⟩

end Model.NarrowedBeside

end EntityModel
