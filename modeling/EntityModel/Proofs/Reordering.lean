import EntityModel.Proofs.Loading
import EntityModel.Proofs.References
import EntityModel.Proofs.Verdict

/-!
# Declaring entities in another order

When an entity is added, its checks look at its ancestors, and at those of an entity to which one of
its properties narrows a registered reference. The loader places own bases first and nothing else. So
the order in which entities are declared does not matter to whether a source is accepted, as long as
all that the checks of an entity look at is reached from it by own bases, or comes with an include. It
does matter when they look at another entity.
-/

namespace EntityModel

namespace Registry

variable {r r' : Registry} {e : Entity}

lemma EntityRefersSoundly.congr (h : r.EntityRefersSoundly e) (hentity : r.entity? = r'.entity?)
    (htype : r.type? = r'.type?) (hfragment : r.fragment? = r'.fragment?) :
    r'.EntityRefersSoundly e where
  base := hentity ▸ h.base
  chain := revisits_congr hentity ▸ h.chain
  types := by
    rw [← hentity, ← htype, ← descends_congr hentity]
    exact h.types
  fragments := hfragment ▸ h.fragments
  anchors := attaches_congr hentity ▸ h.anchors
  bindings := attaches_congr hentity ▸ h.bindings
  relations := hentity ▸ h.relations

/-- In another order entities refer as soundly as before. -/
lemma SameUpToOrder.sound (h : r.SameUpToOrder r') (hrelations : r.relations = r'.relations)
    (hsound : r.Sound) : r'.Sound := by
  rw [sound_iff_refersSoundly] at hsound ⊢
  refine ⟨h.sameOutlines.distinct', fun e he => ?_, fun relation hrelation => ?_⟩
  · exact (hsound.entities e (h.entities.mem_iff.mpr he)).congr h.entity? h.type? h.fragment?
  · rw [← hrelations] at hrelation
    have hrefers := hsound.relations relation hrelation
    exact ⟨h.fragment? ▸ hrefers.join, h.entity? ▸ hrefers.ends, h.entity? ▸ hrefers.underlying⟩

/-- In another order an entity is admitted as before. -/
lemma SameUpToOrder.admits (h : r.SameUpToOrder r') (hadmits : r.Admits e) : r'.Admits e := by
  have habove : r.SameAbove r' e := fun _ x _ => congrFun (base?_congr h.entity?).symm x
  have htypes : r.checkPropertyType = r'.checkPropertyType :=
    checkPropertyType_congr h.type? h.sameOutlines.looksAlike.derivesFrom
  exact hadmits.congr habove h.fragment? fun p _ hchecked => htypes ▸ hchecked

/-- Kinds are consistent alike where the derivations that a narrowed reference needs are the same. -/
lemma isConsistent_congr {kind registered : TypeKind}
    (hderives : kind ≠ registered → ∀ id, kind = .entity id → r'.derivesFrom id = r.derivesFrom id) :
    r'.isConsistent kind registered = r.isConsistent kind registered := by
  by_cases hsame : kind = registered
  · rw [isConsistent_iff_derivesFrom.mpr (.inl hsame), isConsistent_iff_derivesFrom.mpr (.inl hsame)]
  · unfold isConsistent
    split
    · next declared target =>
      rw [hderives hsame declared rfl]
    · rfl

end Registry

namespace ModelSource

variable {source : ModelSource} {entities before after : List Entity} {settings : Settings}
  {e x : Entity}

/-- The source with entities in place of its own. -/
def withDeclared (source : ModelSource) (entities : List Entity) : ModelSource :=
  { source with entities := entities }

/-- A source is accepted when it can be loaded and the model be built. -/
def Accepted (source : ModelSource) (settings : Settings) : Prop :=
  ∃ m s, source.load = .ok m ∧ m.build settings = .ok s

/-- The entities that the checks of an entity look at: its ancestors, itself included, and where one of
its properties narrows the type that is registered, those of the target. -/
def LooksAt (source : ModelSource) (e x : Entity) : Prop :=
  (∃ steps, source.declared.registry.ancestor? (attached e) steps = some x) ∨
    ∃ p ∈ e.properties, ∃ registered, source.declared.type? p.type.id = some registered ∧
      p.type.kind ≠ registered.kind ∧ ∃ id, p.type.kind = .entity id ∧
        ∃ target, source.declared.entity? id = some target ∧ ∃ steps,
          source.declared.registry.ancestor? target steps = some x

/-- The checks of an entity look at no own entities but those that are reached from it by own bases. -/
def OrderFree (source : ModelSource) : Prop :=
  ∀ e ∈ source.entities, ∀ x, source.LooksAt e x → ∀ d ∈ source.entities, d.id = x.id →
    Relation.ReflTransGen (OwnBase source.entities) e d

lemma accepted_iff : source.Accepted settings ↔
    source.Loads ∧ (Schema.flatten source.declared settings).registry.Sound := by
  unfold Accepted
  constructor
  · rintro ⟨m, s, hload, hbuild⟩
    obtain ⟨hloads, rfl⟩ := load_eq_ok_iff.mp hload
    exact ⟨hloads, Model.exists_build_iff.mp ⟨s, hbuild⟩⟩
  · rintro ⟨hloads, hsound⟩
    obtain ⟨s, hs⟩ := Model.exists_build_iff.mpr hsound
    exact ⟨_, s, hloads.load, hs⟩

/-! ### With some of the entities -/

lemma entities_declared (source : ModelSource) :
    source.declared.entities = source.entities.map attached := by
  rw [declared_eq]

lemma allEntities_declared (source : ModelSource) : source.declared.allEntities =
    source.entities.map attached ++
      (source.declared.includes.flatMap Model.tree).flatMap (·.entities) := by
  rw [Model.allEntities_eq, entities_declared]

lemma allEntities_withEntities (source : ModelSource) (entities : List Entity) :
    (withEntities source.groundwork entities).allEntities = entities.map attached ++
      (source.declared.includes.flatMap Model.tree).flatMap (·.entities) :=
  Model.allEntities_eq _

lemma attached_mem (he : e ∈ source.entities) : attached e ∈ source.declared.allEntities := by
  rw [allEntities_declared]
  exact List.mem_append_left _ (List.mem_map_of_mem he)

lemma type_of_mem_attached {p : Property} (hp : p ∈ (attached e).properties) :
    ∃ q ∈ e.properties, p.type = q.type := by
  obtain ⟨q, hq, rfl⟩ := List.mem_map.mp hp
  refine ⟨q, hq, ?_⟩
  change (withAlias q).type = q.type
  unfold withAlias
  split <;> rfl

section Partial

variable (hdistinct : (source.declared.allEntities.map (·.id)).Nodup)
  (hsub : entities ⊆ source.entities)

include hdistinct hsub

lemma within_declared :
    (withEntities source.groundwork entities).registry.Within source.declared.registry := by
  refine Registry.within_of_subset hdistinct ?_
  change (withEntities source.groundwork entities).allEntities ⊆ source.declared.allEntities
  rw [allEntities_declared, allEntities_withEntities, List.append_subset]
  constructor
  · exact List.subset_append_of_subset_left _ (List.map_subset _ hsub)
  · exact List.subset_append_right _ _

/-- What the whole model finds is found with some of the entities, if its own declaration is among
them. -/
lemma entity?_withEntities {id : String} (hown : ∀ x ∈ source.declared.entity? id,
    ∀ d ∈ source.entities, d.id = x.id → d ∈ entities) :
    (withEntities source.groundwork entities).entity? id = source.declared.entity? id := by
  have hwithin := within_declared hdistinct hsub id
  cases hx : source.declared.entity? id with
  | none =>
    rw [Option.eq_none_iff_forall_not_mem]
    intro y hy
    cases hx.symm.trans (hwithin y hy)
  | some x =>
    obtain ⟨hmem, rfl⟩ := Model.mem_of_entity? hx
    have hthere : x ∈ (withEntities source.groundwork entities).allEntities := by
      rw [allEntities_declared, List.mem_append] at hmem
      rw [allEntities_withEntities, List.mem_append]
      refine hmem.imp_left fun hmem => ?_
      obtain ⟨d, hd, rfl⟩ := List.mem_map.mp hmem
      exact List.mem_map_of_mem (hown _ hx d hd rfl)
    obtain ⟨y, hy⟩ := Option.isSome_iff_exists.mp (Model.isSome_entity? hthere)
    cases hx.symm.trans (hwithin y hy)
    exact hy

lemma sameAbove_withEntities
    (hown : ∀ steps, ∀ x ∈ source.declared.registry.ancestor? e steps,
      ∀ d ∈ source.entities, d.id = x.id → d ∈ entities) :
    source.declared.registry.SameAbove (withEntities source.groundwork entities).registry e := by
  refine (within_declared hdistinct hsub).sameAbove fun steps x hx => ?_
  have hfound : source.declared.entity? x.id = some x :=
    Registry.entity?_of_distinct hdistinct (Registry.mem_of_ancestor?_succ hx)
  change ((withEntities source.groundwork entities).entity? x.id).isSome
  rw [entity?_withEntities hdistinct hsub, hfound]
  · rfl
  · intro y hy
    cases hfound.symm.trans hy
    exact hown (steps + 1) x hx

/-- The type of a property passes with some of the entities as in the whole model, if all own entities
that the checks look at are among them. -/
lemma checkPropertyType_withEntities_iff
    (hown : ∀ x, source.LooksAt e x → ∀ d ∈ source.entities, d.id = x.id → d ∈ entities)
    {p : Property} (hp : p ∈ (attached e).properties) :
    (withEntities source.groundwork entities).registry.checkPropertyType e.id p = .ok () ↔
      source.declared.registry.checkPropertyType e.id p = .ok () := by
  have htypes : (withEntities source.groundwork entities).type? = source.declared.type? :=
    Model.type?_congr rfl rfl
  obtain ⟨q, hq, hsame⟩ := type_of_mem_attached hp
  rw [Registry.checkPropertyType_eq_ok_iff, Registry.checkPropertyType_eq_ok_iff]
  change (∃ registered, (withEntities source.groundwork entities).type? _ = _ ∧ _) ↔
    ∃ registered, source.declared.type? _ = _ ∧ _
  rw [htypes, hsame]
  refine exists_congr fun registered => and_congr_right fun hregistered => ?_
  rw [Registry.isConsistent_congr fun hnarrowed id hid => ?_]
  -- the reference is narrowed, so that its target is looked at with all above it
  have hlooked : ∀ target ∈ source.declared.entity? id, ∀ steps,
      ∀ x ∈ source.declared.registry.ancestor? target steps, source.LooksAt e x :=
    fun target htarget steps x hx =>
      .inr ⟨q, hq, registered, hregistered, hnarrowed, id, hid, target, htarget, steps, hx⟩
  apply Registry.derivesFrom_congr
  · apply entity?_withEntities hdistinct hsub
    intro target htarget
    exact hown target (hlooked target htarget 0 target rfl)
  · intro target htarget
    apply sameAbove_withEntities hdistinct hsub
    intro steps x hx
    exact hown x (hlooked target htarget steps x hx)

/-- With some of the entities an entity is admitted as in the whole model, if all own entities that its
checks look at are among them. -/
lemma admits_withEntities_iff
    (hown : ∀ x, source.LooksAt e x → ∀ d ∈ source.entities, d.id = x.id → d ∈ entities) :
    (withEntities source.groundwork entities).registry.Admits (attached e) ↔
      source.declared.registry.Admits (attached e) := by
  have habove : source.declared.registry.SameAbove
      (withEntities source.groundwork entities).registry (attached e) :=
    sameAbove_withEntities hdistinct hsub fun steps x hx => hown x (.inl ⟨steps, hx⟩)
  have hfragments : (withEntities source.groundwork entities).fragment? = source.declared.fragment? :=
    Model.fragment?_congr rfl rfl
  have htype := fun p hp => checkPropertyType_withEntities_iff hdistinct hsub hown (p := p) hp
  constructor
  · intro h
    exact h.congr habove.symm hfragments fun p hp => (htype p hp).mp
  · intro h
    exact h.congr habove hfragments.symm fun p hp => (htype p hp).mpr

end Partial

/-! ### Placed in order -/

section Placed

variable (hdistinct : (source.declared.allEntities.map (·.id)).Nodup)
  (hends : ∀ e ∈ source.declared.allEntities, ¬ source.declared.registry.Revisits e)

include hdistinct

lemma entity?_declared (he : e ∈ source.entities) :
    source.declared.entity? e.id = some (attached e) :=
  Registry.entity?_of_distinct (r := source.declared.registry) hdistinct (attached_mem he)

/-- Own entities have identifiers of their own, which no include has. -/
lemma nodup_declared : (source.entities.map (·.id)).Nodup ∧ ∀ e ∈ source.entities,
    ∀ x ∈ (source.declared.includes.flatMap Model.tree).flatMap (·.entities), x.id ≠ e.id := by
  rw [allEntities_declared, List.map_append, List.nodup_append, List.map_map] at hdistinct
  obtain ⟨hown, -, hapart⟩ := hdistinct
  refine ⟨hown, fun e he x hx hsame => ?_⟩
  exact hapart e.id (List.mem_map_of_mem (f := (·.id) ∘ attached) he) x.id (List.mem_map_of_mem hx)
    hsame.symm

/-- The identifier of an entity is new where it is placed. -/
lemma entity?_eq_none_of_placed (hplaced : basesFirst source.entities = before ++ e :: after) :
    (withEntities source.groundwork before).entity? e.id = none := by
  obtain ⟨hown, hapart⟩ := nodup_declared hdistinct
  have he : e ∈ source.entities := subset_of_placed hplaced (by simp)
  rw [Option.eq_none_iff_forall_not_mem]
  intro x hx
  obtain ⟨hx, hid⟩ := Model.mem_of_entity? hx
  rw [allEntities_withEntities, List.mem_append] at hx
  rcases hx with hx | hx
  · obtain ⟨d, hd, rfl⟩ := List.mem_map.mp hx
    exact nodup_map_iff_split.mp (nodup_basesFirst_iff.mpr hown) before e after hplaced d hd hid
  · exact hapart e he x hx hid

include hends

/-- Where chains end, their lengths rank an own entity above its base. -/
lemma ranksBases : RanksBases
    (fun id => (source.declared.entity? id).elim 0 source.declared.registry.chainLength)
    (source.entities.map (·.id)) source.entities := by
  intro e he base hbase hdeclared
  obtain ⟨b, hb, rfl⟩ := List.mem_map.mp hdeclared
  obtain ⟨chain, hchain⟩ := Registry.lineage_eq_ok_iff.mpr (hends _ (attached_mem he))
  have hfound : source.declared.registry.base? (attached e) = some (attached b) := by
    change e.base.bind source.declared.entity? = some (attached b)
    rw [hbase, Option.bind_some, entity?_declared hdistinct hb]
  dsimp only
  rw [entity?_declared hdistinct he, entity?_declared hdistinct hb]
  exact Registry.chainLength_base hchain hfound

/-- Where the order is free, an entity may be added when the whole model admits it. -/
lemma adds_iff_admits (hfree : source.OrderFree)
    (hplaced : basesFirst source.entities = before ++ e :: after) :
    Adds source.groundwork before e ↔ source.declared.registry.Admits (attached e) := by
  obtain ⟨hown, -⟩ := nodup_declared hdistinct
  have hsub := subset_of_placed hplaced
  have he : e ∈ source.entities := hsub (by simp)
  have hlooked : ∀ x, source.LooksAt e x → ∀ d ∈ source.entities, d.id = x.id →
      d ∈ before ++ [e] := by
    intro x hx d hd hid
    exact mem_of_basesFirst hown (ranksBases hdistinct hends) hplaced (hfree e he x hx d hd hid)
  rw [← admits_withEntities_iff hdistinct hsub hlooked]
  constructor
  · exact Adds.admits
  · exact fun hadmits => ⟨entity?_eq_none_of_placed hdistinct hplaced, hadmits⟩

lemma forall_adds_iff (hfree : source.OrderFree) :
    (∀ before e after, basesFirst source.entities = before ++ e :: after →
      Adds source.groundwork before e) ↔
      ∀ e ∈ source.entities, source.declared.registry.Admits (attached e) := by
  constructor
  · intro h e he
    obtain ⟨before, after, hplaced⟩ := List.append_of_mem (mem_basesFirst.mpr he)
    exact (adds_iff_admits hdistinct hends hfree hplaced).mp (h before e after hplaced)
  · intro h before e after hplaced
    apply (adds_iff_admits hdistinct hends hfree hplaced).mpr
    exact h e (subset_of_placed hplaced (by simp))

end Placed

/-! ### In another order -/

lemma declared_withDeclared (source : ModelSource) (entities : List Entity) :
    (source.withDeclared entities).declared =
      { source.declared with entities := entities.map attached } := by
  rw [declared_eq, declared_eq source]
  rfl

lemma groundwork_withDeclared (source : ModelSource) (entities : List Entity) :
    (source.withDeclared entities).groundwork = source.groundwork := by
  unfold groundwork
  rw [declared_withDeclared]

/-- The order of the entities does not matter to the flat list of anything else. -/
lemma flatMap_tree_withDeclared {α : Type} (source : ModelSource) (entities : List Entity)
    {f : Model → List α} (hf : f (source.withDeclared entities).declared = f source.declared) :
    (source.withDeclared entities).declared.tree.flatMap f = source.declared.tree.flatMap f := by
  rw [Model.flatMap_tree, Model.flatMap_tree f source.declared, hf, declared_withDeclared]

section Permuted

variable (hperm : entities.Perm source.entities)
  (hdistinct : (source.declared.allEntities.map (·.id)).Nodup)

include hperm

lemma allEntities_perm :
    source.declared.allEntities.Perm (source.withDeclared entities).declared.allEntities := by
  rw [allEntities_declared, allEntities_declared, declared_withDeclared]
  exact (hperm.symm.map attached).append_right _

include hdistinct

lemma sameUpToOrder_declared :
    source.declared.registry.SameUpToOrder (source.withDeclared entities).declared.registry where
  distinct := hdistinct
  options := rfl
  type? := by
    rw [declared_withDeclared]
    exact Model.type?_congr rfl rfl
  fragment? := by
    rw [declared_withDeclared]
    exact Model.fragment?_congr rfl rfl
  entities := allEntities_perm hperm

lemma sameUpToOrder_flatten (settings : Settings) :
    (Schema.flatten source.declared settings).registry.SameUpToOrder
      (Schema.flatten (source.withDeclared entities).declared settings).registry where
  distinct := hdistinct
  options := rfl
  type? := by
    have htypes : (source.withDeclared entities).declared.tree.flatMap (·.types) =
        source.declared.tree.flatMap (·.types) :=
      flatMap_tree_withDeclared source entities (by rw [declared_withDeclared])
    exact funext fun id => congrArg (Schema.findLast? fun (t : TypeReference) => t.id == id) htypes.symm
  fragment? := by
    have hfragments : (source.withDeclared entities).declared.tree.flatMap (·.fragments) =
        source.declared.tree.flatMap (·.fragments) :=
      flatMap_tree_withDeclared source entities (by rw [declared_withDeclared])
    exact funext fun id =>
      congrArg (Schema.findLast? fun (f : SourceFragment) => f.id == id) hfragments.symm
  entities := allEntities_perm hperm

lemma sound_flatten (hsound : (Schema.flatten source.declared settings).registry.Sound) :
    (Schema.flatten (source.withDeclared entities).declared settings).registry.Sound := by
  have hrelations : (source.withDeclared entities).declared.allRelations =
      source.declared.allRelations :=
    flatMap_tree_withDeclared source entities (by rw [declared_withDeclared])
  exact (sameUpToOrder_flatten hperm hdistinct settings).sound hrelations.symm hsound

/-- Whether the order is free does not depend on it. -/
lemma OrderFree.of_perm (hfree : source.OrderFree) : (source.withDeclared entities).OrderFree := by
  have hsame := sameUpToOrder_declared hperm hdistinct
  have hlooks : (source.withDeclared entities).LooksAt = source.LooksAt := by
    have hentity : source.declared.entity? = (source.withDeclared entities).declared.entity? :=
      hsame.entity?
    have htype : source.declared.type? = (source.withDeclared entities).declared.type? :=
      hsame.type?
    unfold LooksAt
    rw [Registry.ancestor?_congr hsame.entity?, hentity, htype]
  have hbase : OwnBase entities = OwnBase source.entities := by
    funext e b
    unfold OwnBase
    rw [hperm.mem_iff]
  intro e he x hx d hd hid
  change Relation.ReflTransGen (OwnBase entities) e d
  rw [hlooks] at hx
  rw [hbase]
  exact hfree e (hperm.mem_iff.mp he) x hx d (hperm.mem_iff.mp hd) hid

end Permuted

/-- An accepted source is accepted with its entities in another order just when each of them may be
added behind those that are then placed before it. -/
lemma Accepted.withDeclared_iff (h : source.Accepted settings)
    (hperm : entities.Perm source.entities) : (source.withDeclared entities).Accepted settings ↔
      ∀ before e after, basesFirst entities = before ++ e :: after →
        Adds source.groundwork before e := by
  obtain ⟨hloads, hsound⟩ := accepted_iff.mp h
  rw [accepted_iff]
  constructor
  · rintro ⟨hloads', -⟩
    have hadds := hloads'.adds
    rw [groundwork_withDeclared] at hadds
    exact hadds
  · intro hadds
    rw [← groundwork_withDeclared source entities] at hadds
    refine ⟨⟨?_, hadds, ?_⟩, sound_flatten hperm hsound.distinct hsound⟩
    · rw [groundwork_withDeclared]
      exact hloads.prepared
    · rw [groundwork_withDeclared]
      exact hloads.joins

lemma Accepted.of_perm (h : source.Accepted settings) (hperm : entities.Perm source.entities)
    (hfree : source.OrderFree) : (source.withDeclared entities).Accepted settings := by
  obtain ⟨hloads, hsound⟩ := accepted_iff.mp h
  have hdistinct : (source.declared.allEntities.map (·.id)).Nodup := hsound.distinct
  have hsame := sameUpToOrder_declared hperm hdistinct
  have hsound' := sound_flatten hperm hdistinct hsound
  have hadmits := (forall_adds_iff hdistinct (fun e => Model.not_revisits_of_sound hsound) hfree).mp
    hloads.adds
  have hadds := (forall_adds_iff hsound'.distinct (fun e => Model.not_revisits_of_sound hsound')
    (hfree.of_perm hperm hdistinct)).mpr fun e he =>
      hsame.admits (hadmits e (hperm.mem_iff.mp he))
  rw [groundwork_withDeclared] at hadds
  exact (h.withDeclared_iff hperm).mpr hadds

/-- The order in which entities are declared does not matter to whether a source is accepted, as long
as what the checks of an entity look at is reached from it by own bases. Beyond that an accepted source
stays so in another order just when each entity may be added where it is then placed. -/
theorem accepted_in_another_order (hperm : entities.Perm source.entities) (settings : Settings) :
    (source.OrderFree →
      (source.Accepted settings ↔ (source.withDeclared entities).Accepted settings)) ∧
    (source.Accepted settings → ((source.withDeclared entities).Accepted settings ↔
      ∀ before e after, basesFirst entities = before ++ e :: after →
        Adds source.groundwork before e)) := by
  refine ⟨fun hfree => ⟨fun h => h.of_perm hperm hfree, fun h => ?_⟩, fun h => h.withDeclared_iff hperm⟩
  have hback : (source.withDeclared entities).withDeclared source.entities = source := by
    cases source
    rfl
  obtain ⟨-, hsound⟩ := accepted_iff.mp h
  have hdistinct : (source.declared.allEntities.map (·.id)).Nodup :=
    ((allEntities_perm hperm).map _).nodup_iff.mpr hsound.distinct
  rw [← hback]
  exact h.of_perm hperm.symm (hfree.of_perm hperm hdistinct)

lemma accepted_of_isOk (hload : source.load.isOk = true)
    (hproblems : (Schema.flatten source.declared settings).registry.problems = []) :
    source.Accepted settings := by
  rw [accepted_iff, ← Registry.problems_eq_nil_iff]
  exact ⟨(load_eq_ok_iff.mp (load_of_isOk hload)).1, hproblems⟩

namespace Narrowed

def reference : TypeReference := ⟨"ref", .entity "Base"⟩

def narrowed : Property := Property.ofType "p" ⟨"ref", .entity "Sub"⟩

def base : Entity := Entity.ofName "Base" "Base"

def root : Entity := Entity.ofName "Root" "Root"

def sub : Entity := { Entity.ofName "Sub" "Sub" with base := some "Base" }

def subToItself : Entity := { sub with properties := [narrowed] }

def holder : Entity :=
  { Entity.ofName "Holder" "Holder" with base := some "Root", properties := [narrowed] }

/-- A reference that an entity narrows to itself. -/
def toItself : ModelSource :=
  { ModelSource.empty with types := [reference], entities := [subToItself, base] }

/-- A reference that an entity narrows to one of another chain. -/
def elsewhere : ModelSource :=
  { ModelSource.empty with types := [reference], entities := [base, root, sub, holder] }

lemma orderFree_toItself : toItself.OrderFree := by
  intro e he x hx d hd hid
  rcases List.mem_pair.mp he with rfl | rfl
  · rcases List.mem_pair.mp hd with rfl | rfl
    · exact .refl
    · exact .single ⟨hd, rfl⟩
  · -- nothing is looked at for the base but the base itself
    have hroot : toItself.declared.registry.base? (attached base) = none := rfl
    rcases hx with ⟨steps, hx⟩ | ⟨p, hp, -⟩
    · cases steps with
      | zero =>
        cases hx
        rcases List.mem_pair.mp hd with rfl | rfl
        · exact absurd hid (by decide)
        · exact .refl
      | succ steps =>
        rw [Registry.ancestor?_succ_of_root hroot] at hx
        cases hx
    · cases hp

lemma accepted_toItself : toItself.Accepted .default :=
  accepted_of_isOk (by decide +kernel) (by decide +kernel)

lemma accepted_elsewhere : elsewhere.Accepted .default :=
  accepted_of_isOk (by decide +kernel) (by decide +kernel)

lemma perm_elsewhere : [base, root, holder, sub].Perm elsewhere.entities :=
  ((List.Perm.swap sub holder []).cons root).cons base

/-- With the target placed behind the entity that refers to it, the reference does not pass for a
narrowed one. -/
lemma not_accepted_reordered :
    ¬ (elsewhere.withDeclared [base, root, holder, sub]).Accepted .default := by
  rintro ⟨m, s, hload, -⟩
  have hrejected : (elsewhere.withDeclared [base, root, holder, sub]).load.isOk = false := by
    decide +kernel
  rw [hload] at hrejected
  cases hrejected

theorem accepted_in_another_order_narrowed :
    ([base, subToItself].Perm toItself.entities ∧ toItself.OrderFree ∧
      (toItself.withDeclared [base, subToItself]).Accepted .default) ∧
    [base, root, holder, sub].Perm elsewhere.entities ∧ elsewhere.Accepted .default ∧
    ¬ ∀ before e after, basesFirst [base, root, holder, sub] = before ++ e :: after →
      Adds elsewhere.groundwork before e := by
  have hperm : [base, subToItself].Perm toItself.entities := .swap _ _ _
  obtain ⟨hfree, -⟩ := accepted_in_another_order hperm .default
  obtain ⟨-, hadds⟩ := accepted_in_another_order perm_elsewhere .default
  refine ⟨⟨hperm, orderFree_toItself, (hfree orderFree_toItself).mp accepted_toItself⟩,
    perm_elsewhere, accepted_elsewhere, fun hall => ?_⟩
  exact not_accepted_reordered ((hadds accepted_elsewhere).mpr hall)

/-- The order does matter where the target of a narrowed reference is not reached by bases. -/
theorem not_accepted_in_every_order :
    ¬ ∀ (source : ModelSource) (entities : List Entity) (settings : Settings),
      entities.Perm source.entities →
        (source.Accepted settings ↔ (source.withDeclared entities).Accepted settings) :=
  fun h => not_accepted_reordered ((h elsewhere _ .default perm_elsewhere).mp accepted_elsewhere)

end Narrowed

end ModelSource

end EntityModel
