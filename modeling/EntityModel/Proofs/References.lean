import EntityModel.Proofs.Ancestry
import EntityModel.Proofs.Soundness

/-!
# Sound references

What validation is for, without its passes: identifiers are distinct, every reference finds what it
refers to, and no base chain loops. A registry is valid just when that holds of it. An entity whose
chain loops is not looked into and a type is looked at once, but no defect gets through that way.
-/

namespace EntityModel.Registry

/-- The entity of an identifier is another one or has it among its ancestors. -/
def Descends (r : Registry) (derived base : String) : Prop :=
  ∃ e steps x, r.entity? derived = some e ∧ r.ancestor? e steps = some x ∧ x.id = base

/-- An entity or an ancestor attaches a fragment, and every entity before that one inherits the tables
of its base. -/
def Attaches (r : Registry) (e : Entity) (fragment : String) : Prop :=
  ∃ steps x, r.ancestor? e steps = some x ∧ (∃ ref ∈ x.fragments, ref.fragment = fragment) ∧
    ∀ before < steps, ∀ y ∈ r.ancestor? e before, y.inheritsBaseTables = true

/-- What an entity refers to is there: its base, the types of its properties with what they refer to
themselves, its fragments, and the entities of its relations. Its base chain does not loop. -/
structure EntityRefersSoundly (r : Registry) (e : Entity) : Prop where
  base : ∀ base ∈ e.base, (r.entity? base).isSome
  chain : ¬ r.Revisits e
  types : ∀ p ∈ e.properties, ∃ registered, r.type? p.type.id = some registered ∧
    (∀ target, registered.kind = .entity target → (r.entity? target).isSome) ∧
    (p.type.kind = registered.kind ∨ ∃ declared target, p.type.kind = .entity declared ∧
      registered.kind = .entity target ∧ r.Descends declared target)
  fragments : ∀ ref ∈ e.fragments, (r.fragment? ref.fragment).isSome
  anchors : ∀ ref ∈ e.fragments, ∀ anchor ∈ ref.anchor, r.Attaches e anchor
  bindings : ∀ p ∈ e.properties, ∀ fragment ∈ p.sourceFragment, r.Attaches e fragment
  relations : ∀ relation ∈ e.entityRelations,
    (r.entity? relation.entity).isSome ∧ (r.entity? relation.sourceEntity).isSome

structure RelationRefersSoundly (r : Registry) (relation : Relation) : Prop where
  join : (r.fragment? relation.sourceFragment).isSome
  ends : ∀ id, relation.takesPart id = true → (r.entity? id).isSome
  underlying : ∀ id ∈ relation.underlyingEntity, (r.entity? id).isSome

/-- The entities of a registry are told apart by their identifiers, and every reference finds what it
refers to. -/
structure RefersSoundly (r : Registry) : Prop where
  distinct : (r.entities.map (·.id)).Nodup
  entities : ∀ e ∈ r.entities, r.EntityRefersSoundly e
  relations : ∀ relation ∈ r.relations, r.RelationRefersSoundly relation

variable {r : Registry} {e b : Entity} {chain : List Entity} {attached : List FragmentRef}
  {fragment : String}

section Lookups

variable {r' : Registry} (hentity : r.entity? = r'.entity?)

include hentity

lemma descends_congr : r.Descends = r'.Descends := by
  unfold Descends
  rw [hentity, ancestor?_congr hentity]

lemma attaches_congr : r.Attaches = r'.Attaches := by
  unfold Attaches
  rw [ancestor?_congr hentity]

end Lookups

lemma descends_of_derivesFrom {derived base : String}
    (h : r.derivesFrom derived base = true) : r.Descends derived base := by
  obtain ⟨e, chain, hfound, hchain, hbase⟩ := derivesFrom_eq_true.mp h
  obtain ⟨x, hx, hid⟩ := List.mem_map.mp hbase
  obtain ⟨steps, hsteps⟩ := List.mem_iff_getElem?.mp hx
  exact ⟨e, steps, x, hfound, (ancestor?_of_lineage hchain steps).trans hsteps, hid⟩

/-- On chains that end, the walk along a chain finds just what the number of steps says. -/
lemma derivesFrom_iff_descends (hends : ∀ e ∈ r.entities, ¬ r.Revisits e) {derived base : String} :
    r.derivesFrom derived base = true ↔ r.Descends derived base := by
  refine ⟨descends_of_derivesFrom, ?_⟩
  rintro ⟨e, steps, x, hfound, hx, hid⟩
  obtain ⟨chain, hchain⟩ := lineage_eq_ok_iff.mpr (hends e (r.mem_of_entity? hfound).1)
  rw [ancestor?_of_lineage hchain] at hx
  exact derivesFrom_eq_true.mpr
    ⟨e, chain, hfound, hchain, List.mem_map.mpr ⟨x, List.mem_of_getElem? hx, hid⟩⟩

lemma attaches_root (hbase : r.base? e = none) :
    r.Attaches e fragment ↔ ∃ ref ∈ e.fragments, ref.fragment = fragment := by
  constructor
  · rintro ⟨steps, x, hx, href, -⟩
    cases steps with
    | zero =>
      cases hx
      exact href
    | succ steps =>
      rw [ancestor?_succ_of_root hbase] at hx
      cases hx
  · exact fun href => ⟨0, e, rfl, href, fun before hlt => absurd hlt (Nat.not_lt_zero before)⟩

lemma attaches_base (hbase : r.base? e = some b) :
    r.Attaches e fragment ↔ (∃ ref ∈ e.fragments, ref.fragment = fragment) ∨
      e.inheritsBaseTables = true ∧ r.Attaches b fragment := by
  constructor
  · rintro ⟨steps, x, hx, href, hbefore⟩
    cases steps with
    | zero =>
      cases hx
      exact .inl href
    | succ steps =>
      rw [ancestor?_succ_of_base hbase] at hx
      refine .inr ⟨hbefore 0 (by omega) e rfl, steps, x, hx, href, fun before hlt y hy => ?_⟩
      exact hbefore (before + 1) (by omega) y (by rwa [ancestor?_succ_of_base hbase])
  · rintro (href | ⟨hinherits, steps, x, hx, href, hbefore⟩)
    · exact ⟨0, e, rfl, href, fun before hlt => absurd hlt (Nat.not_lt_zero before)⟩
    · refine ⟨steps + 1, x, by rwa [ancestor?_succ_of_base hbase], href, fun before hlt y hy => ?_⟩
      cases before with
      | zero =>
        cases hy
        exact hinherits
      | succ before =>
        rw [ancestor?_succ_of_base hbase] at hy
        exact hbefore before (by omega) y hy

lemma isAttached_foldl_addMissing {refs more : List FragmentRef} :
    isAttached (more.foldl addMissing refs) fragment = true ↔
      isAttached refs fragment = true ∨ ∃ ref ∈ more, ref.fragment = fragment := by
  have hmore : (∃ ref ∈ more, ref.fragment = fragment) ↔ fragment ∈ more.map (·.fragment) :=
    List.mem_map.symm
  rw [foldl_addMissing_eq, isAttached_iff_mem, isAttached_iff_mem, List.map_append, List.mem_append,
    mem_map_firsts, hmore]
  by_cases hpresent : fragment ∈ refs.map (·.fragment)
  · simp only [hpresent, true_or]
  · simp only [hpresent, false_or, not_false_eq_true, and_true]

lemma isAttached_gatherFragments : isAttached (gatherFragments [] chain) fragment = true ↔
    ∃ x ∈ tableLevels chain, ∃ ref ∈ x.fragments, ref.fragment = fragment := by
  rw [gatherFragments_eq, List.nil_append, isAttached_iff_mem, mem_map_firsts]
  constructor
  · rintro ⟨hmem, -⟩
    obtain ⟨ref, href, hsame⟩ := List.mem_map.mp hmem
    obtain ⟨x, hx, href⟩ := List.mem_flatMap.mp href
    exact ⟨x, hx, ref, href, hsame⟩
  · rintro ⟨x, hx, ref, href, hsame⟩
    have hmem : ref ∈ (tableLevels chain).flatMap (·.fragments) :=
      List.mem_flatMap.mpr ⟨x, hx, href⟩
    exact ⟨List.mem_map.mpr ⟨ref, hmem, hsame⟩, List.not_mem_nil⟩

lemma isAttached_gatherFragments_cons :
    isAttached (gatherFragments [] (e :: chain)) fragment = true ↔
      (∃ ref ∈ e.fragments, ref.fragment = fragment) ∨
        e.inheritsBaseTables = true ∧ isAttached (gatherFragments [] chain) fragment = true := by
  rw [isAttached_gatherFragments, isAttached_gatherFragments, tableLevels_cons]
  split
  · next hinherits => simp [hinherits]
  · next hinherits => simp [hinherits]

/-- The effective fragments are those that the entity or, through inherited tables, an ancestor
attaches. -/
theorem isAttached_effectiveFragments (hchain : r.lineage e = .ok chain) :
    isAttached (gatherFragments [] chain) fragment = true ↔ r.Attaches e fragment := by
  induction chain generalizing e with
  | nil => exact absurd (mem_lineage_self hchain) List.not_mem_nil
  | cons x rest ih =>
    rw [isAttached_gatherFragments_cons]
    rcases lineage_cases hchain with ⟨hbase, hcons⟩ | ⟨b, rest', hbase, hrest, hcons⟩
    · cases hcons
      rw [attaches_root hbase]
      simp [gatherFragments, isAttached]
    · cases hcons
      rw [attaches_base hbase, ih hrest]

lemma checkAnchor_eq_ok_iff {entity : String} {ref : FragmentRef} :
    checkAnchor entity attached ref = .ok () ↔ ∀ anchor ∈ ref.anchor,
      isAttached attached anchor = true := by
  unfold checkAnchor
  cases ref.anchor with
  | none => simp
  | some anchor =>
    dsimp only
    split <;> simp_all

lemma checkPropertyFragment_eq_ok_iff {entity : String} {p : Property} :
    checkPropertyFragment entity attached p = .ok () ↔ ∀ fragment ∈ p.sourceFragment,
      isAttached attached fragment = true := by
  unfold checkPropertyFragment
  cases p.sourceFragment with
  | none => simp
  | some fragment =>
    dsimp only
    split <;> simp_all

lemma isConsistent_iff_derivesFrom {kind registered : TypeKind} :
    r.isConsistent kind registered = true ↔ kind = registered ∨ ∃ declared target,
      kind = .entity declared ∧ registered = .entity target ∧
        r.derivesFrom declared target = true := by
  cases kind <;> cases registered <;> simp [isConsistent]

lemma isConsistent_iff (hends : ∀ e ∈ r.entities, ¬ r.Revisits e) {kind registered : TypeKind} :
    r.isConsistent kind registered = true ↔ kind = registered ∨ ∃ declared target,
      kind = .entity declared ∧ registered = .entity target ∧ r.Descends declared target := by
  simp only [isConsistent_iff_derivesFrom, derivesFrom_iff_descends hends]

lemma mem_relation_entities {relation : Relation} {id : String} :
    id ∈ relation.entities ↔ relation.takesPart id = true ∨ id ∈ relation.underlyingEntity := by
  unfold Relation.entities Relation.takesPart
  rw [List.mem_append, Option.mem_toList]
  refine or_congr_left ?_
  cases relation <;> simp [@eq_comm _ id]

lemma relationRefersSoundly_iff {relation : Relation} : r.RelationRefersSoundly relation ↔
    (r.fragment? relation.sourceFragment).isSome ∧ ∀ id ∈ relation.entities, r.isKnown id = true := by
  simp only [mem_relation_entities]
  constructor
  · rintro ⟨hjoin, hends, hunderlying⟩
    exact ⟨hjoin, fun id hid => hid.elim (hends id) (hunderlying id)⟩
  · rintro ⟨hjoin, hknown⟩
    exact ⟨hjoin, fun id hid => hknown id (.inl hid), fun id hid => hknown id (.inr hid)⟩

lemma target?_eq_some_iff {type : TypeReference} {target : String} :
    type.target? = some target ↔ type.kind = .entity target := by
  unfold TypeReference.target? TypeKind.target?
  cases type.kind <;> simp

/-- What a sound registry asks of an entity is that it refers soundly, once all chains end. -/
lemma entityRefersSoundly_iff (hends : ∀ e ∈ r.entities, ¬ r.Revisits e)
    (hchain : r.lineage e = .ok chain) : r.EntityRefersSoundly e ↔
      (∀ base ∈ e.base, r.isKnown base = true) ∧
      (∀ p ∈ e.properties, ∀ type ∈ r.type? p.type.id, ∀ target ∈ type.target?,
        r.isKnown target = true) ∧
      r.SoundEntity e (gatherFragments [] chain) := by
  constructor
  · intro h
    refine ⟨h.base, fun p hp type htype target htarget => ?_, h.fragments, fun ref href => ?_,
      fun p hp => ?_, fun p hp => ?_, h.relations⟩
    · obtain ⟨registered, hregistered, hknown, -⟩ := h.types p hp
      cases hregistered.symm.trans htype
      exact hknown target (target?_eq_some_iff.mp htarget)
    · refine checkAnchor_eq_ok_iff.mpr fun anchor hanchor => ?_
      exact (isAttached_effectiveFragments hchain).mpr (h.anchors ref href anchor hanchor)
    · obtain ⟨registered, hregistered, -, hkind⟩ := h.types p hp
      exact checkPropertyType_eq_ok_iff.mpr
        ⟨registered, hregistered, (isConsistent_iff hends).mpr hkind⟩
    · refine checkPropertyFragment_eq_ok_iff.mpr fun fragment hfragment => ?_
      exact (isAttached_effectiveFragments hchain).mpr (h.bindings p hp fragment hfragment)
  · rintro ⟨hbase, htargets, h⟩
    refine ⟨hbase, not_revisits_of_lineage hchain, fun p hp => ?_, h.fragments,
      fun ref href anchor hanchor => ?_, fun p hp fragment hfragment => ?_, h.relations⟩
    · obtain ⟨registered, hregistered, hkind⟩ := checkPropertyType_eq_ok_iff.mp (h.types p hp)
      refine ⟨registered, hregistered, fun target htarget => ?_, (isConsistent_iff hends).mp hkind⟩
      exact htargets p hp registered hregistered target (target?_eq_some_iff.mpr htarget)
    · exact (isAttached_effectiveFragments hchain).mp
        (checkAnchor_eq_ok_iff.mp (h.anchors ref href) anchor hanchor)
    · exact (isAttached_effectiveFragments hchain).mp
        (checkPropertyFragment_eq_ok_iff.mp (h.bindings p hp) fragment hfragment)

/-- What the passes of validation ask for is that every reference is sound. -/
theorem sound_iff_refersSoundly : r.Sound ↔ r.RefersSoundly := by
  constructor
  · intro h
    have hends : ∀ e ∈ r.entities, ¬ r.Revisits e :=
      fun e he => lineage_eq_ok_iff.mp (h.chains e he)
    refine ⟨h.distinct, fun e he => ?_,
      fun relation hrelation => relationRefersSoundly_iff.mpr (h.relations relation hrelation)⟩
    obtain ⟨chain, hchain⟩ := h.chains e he
    exact (entityRefersSoundly_iff hends hchain).mpr ⟨h.bases e he, h.targets e he,
      h.entities e he _ (effectiveFragments_of_lineage hchain)⟩
  · intro h
    have hends : ∀ e ∈ r.entities, ¬ r.Revisits e := fun e he => (h.entities e he).chain
    have hentity {e : Entity} (he : e ∈ r.entities) {chain : List Entity}
        (hchain : r.lineage e = .ok chain) :=
      (entityRefersSoundly_iff hends hchain).mp (h.entities e he)
    have hchains : ∀ e ∈ r.entities, ∃ chain, r.lineage e = .ok chain :=
      fun e he => lineage_eq_ok_iff.mpr (hends e he)
    refine ⟨h.distinct, fun e he => (h.entities e he).base, hchains, fun e he => ?_,
      fun e he attached hattached => ?_,
      fun relation hrelation => relationRefersSoundly_iff.mp (h.relations relation hrelation)⟩
    · obtain ⟨chain, hchain⟩ := hchains e he
      exact (hentity he hchain).2.1
    · obtain ⟨chain, hchain⟩ := hchains e he
      rw [effectiveFragments_of_lineage hchain] at hattached
      cases hattached
      exact (hentity he hchain).2.2

/-- Validation accepts a registry just when all that its declarations refer to is there. This goes for
a model with what it includes as well as for a schema. -/
theorem validate_eq_ok_iff_refersSoundly : r.validate = .ok () ↔ r.RefersSoundly := by
  rw [validate_eq_ok_iff, problems_eq_nil_iff, sound_iff_refersSoundly]

end EntityModel.Registry
