import EntityModel.Proofs.Dependence
import EntityModel.Proofs.Growth
import EntityModel.Proofs.Merge

/-!
# When an entity is added

An entity is added bare and then filled piece by piece, each piece checked against the entity as it
is by then. All of these checks together ask one thing of the entity as a whole, in the model that
has it: `Admits`.
-/

namespace EntityModel

namespace Model

variable {m : Model} {e : Entity} {change : Entity → Entity}

lemma ownEntity?_of_mem (hdistinct : (m.entities.map (·.id)).Nodup) (he : e ∈ m.entities) :
    m.ownEntity? e.id = some e :=
  (find?_key_eq_some_iff hdistinct).mpr ⟨he, rfl⟩

/-- The model with an entity behind the others. -/
def withLast (m : Model) (e : Entity) : Model := { m with entities := m.entities ++ [e] }

lemma ownEntity?_withLast (hnew : ∀ x ∈ m.entities, x.id ≠ e.id) :
    (m.withLast e).ownEntity? e.id = some e := by
  have hnone : m.entities.find? (·.id == e.id) = none := by simpa using hnew
  unfold ownEntity? withLast
  rw [List.find?_append, hnone, Option.none_or, List.find?_cons, beq_self_eq_true]

lemma changeEntity_withLast (hnew : ∀ x ∈ m.entities, x.id ≠ e.id) :
    (m.withLast e).changeEntity e.id change = m.withLast (change e) := by
  unfold changeEntity withLast
  rw [changeFirst_concat hnew rfl]

lemma fragment?_withLast (m : Model) (e : Entity) : (m.withLast e).fragment? = m.fragment? :=
  fragment?_congr rfl rfl

end Model

/-- An entity while it is filled: with some fragments and properties in place of its own. -/
def Entity.filled (e : Entity) (fragments : List FragmentRef) (properties : List Property) : Entity :=
  { e with fragments := fragments, properties := properties }

/-- The entity with properties that are its own. -/
def Entity.owned (e : Entity) : Entity := { e with properties := e.properties.map (·.ownedBy e.id) }

namespace Registry

section Checks

variable (r : Registry) (e : Entity)

/-- The checks that a fragment has to pass, without the list that they are made with. -/
lemma fragment_checks_iff (ref : FragmentRef) :
    (∃ attached, r.effectiveFragments e = .ok attached ∧
        r.checkFragment e.id attached ref = .ok () ∧ checkAnchor e.id attached ref = .ok ()) ↔
      ¬ r.Revisits e ∧ (r.fragment? ref.fragment).isSome ∧ ¬ r.Attaches e ref.fragment ∧
        ∀ anchor ∈ ref.anchor, r.Attaches e anchor := by
  simp only [checkFragment_eq_ok_iff, ← not_isAttached_iff, checkAnchor_eq_ok_iff, and_assoc]
  exact exists_effectiveFragments_iff (P := fun attaches => (r.fragment? ref.fragment).isSome ∧
    ¬ attaches ref.fragment ∧ ∀ anchor ∈ ref.anchor, attaches anchor)

lemma property_checks_iff (p : Property) :
    (∃ attached, r.effectiveFragments e = .ok attached ∧
        r.checkProperty e.id e.properties attached p = .ok ()) ↔
      ¬ r.Revisits e ∧ (∀ q ∈ e.properties, q.aliasName ≠ p.aliasName) ∧
        r.checkPropertyType e.id p = .ok () ∧
        ∀ fragment ∈ p.sourceFragment, r.Attaches e fragment := by
  simp only [checkProperty_eq_ok_iff, checkPropertyFragment_eq_ok_iff]
  exact exists_effectiveFragments_iff (P := fun attaches =>
    (∀ q ∈ e.properties, q.aliasName ≠ p.aliasName) ∧ r.checkPropertyType e.id p = .ok () ∧
      ∀ fragment ∈ p.sourceFragment, attaches fragment)

end Checks

/-- An entity may attach a fragment behind some others. -/
structure TakesFragment (r : Registry) (e : Entity) (before : List FragmentRef) (ref : FragmentRef) :
    Prop where
  chain : ¬ r.Revisits e
  known : (r.fragment? ref.fragment).isSome
  fresh : ∀ other ∈ before, other.fragment ≠ ref.fragment
  notInherited : ¬ r.InheritsFragment e ref.fragment
  anchor : ∀ anchor ∈ ref.anchor,
    (∃ other ∈ before, other.fragment = anchor) ∨ r.InheritsFragment e anchor

/-- An entity may have a property behind some others. -/
structure TakesProperty (r : Registry) (e : Entity) (before : List Property) (p : Property) :
    Prop where
  chain : ¬ r.Revisits e
  fresh : ∀ q ∈ before, q.aliasName ≠ p.aliasName
  type : r.checkPropertyType e.id p = .ok ()
  binding : ∀ fragment ∈ p.sourceFragment, r.Attaches e fragment

/-- An entity may have all its fragments and then all its properties, each behind those before it. -/
structure Admits (r : Registry) (e : Entity) : Prop where
  fragments : ∀ before ref after, e.fragments = before ++ ref :: after → r.TakesFragment e before ref
  properties : ∀ before p after, e.properties = before ++ p :: after → r.TakesProperty e before p

variable {r r' : Registry} {e : Entity}

lemma takesProperty_ownedBy_iff {before : List Property} {p : Property} {entity : String} :
    r.TakesProperty e before (p.ownedBy entity) ↔ r.TakesProperty e before p :=
  ⟨fun h => ⟨h.chain, h.fresh, h.type, h.binding⟩, fun h => ⟨h.chain, h.fresh, h.type, h.binding⟩⟩

lemma Admits.takesFragment (h : r.Admits e) {ref : FragmentRef} (href : ref ∈ e.fragments) :
    ∃ before, before ⊆ e.fragments ∧ r.TakesFragment e before ref := by
  obtain ⟨before, after, he⟩ := List.append_of_mem href
  exact ⟨before, he ▸ List.subset_append_left _ _, h.fragments before ref after he⟩

lemma Admits.takesProperty (h : r.Admits e) {p : Property} (hp : p ∈ e.properties) :
    ∃ before, r.TakesProperty e before p := by
  obtain ⟨before, after, he⟩ := List.append_of_mem hp
  exact ⟨before, h.properties before p after he⟩

/-- An entity is admitted alike where it has the same way up and the same answers about its types and
fragments. -/
lemma Admits.congr (h : r.Admits e) (habove : r.SameAbove r' e) (hfragment : r.fragment? = r'.fragment?)
    (htype : ∀ p ∈ e.properties, r.checkPropertyType e.id p = .ok () →
      r'.checkPropertyType e.id p = .ok ()) : r'.Admits e where
  fragments before ref after he := by
    have htakes := h.fragments before ref after he
    refine ⟨mt habove.revisits_iff.mp htakes.chain, hfragment ▸ htakes.known, htakes.fresh,
      mt habove.inheritsFragment_iff.mp htakes.notInherited, fun anchor hanchor => ?_⟩
    exact (htakes.anchor anchor hanchor).imp_right habove.inheritsFragment_iff.mpr
  properties before p after he := by
    have htakes := h.properties before p after he
    have hp : p ∈ e.properties := he ▸ List.mem_append_right _ List.mem_cons_self
    refine ⟨mt habove.revisits_iff.mp htakes.chain, htakes.fresh, htype p hp htakes.type,
      fun fragment hfragment => ?_⟩
    exact habove.attaches_iff.mpr (htakes.binding fragment hfragment)

end Registry

namespace Model

variable {m m' : Model} {e : Entity} {fragments : List FragmentRef} {properties : List Property}

/-- On a chain that ends, nothing has the entity itself for a base, so that changes to its details make
no difference to the way up. -/
lemma DetailedAt.sameAbove (h : m.DetailedAt e.id m') (hends : ¬ m.registry.Revisits e) :
    m.registry.SameAbove m'.registry e := by
  intro steps x hx
  refine h.base?_eq fun b hb hid => hends ⟨0, steps + 1, e, b, by omega, rfl, ?_, hid.symm⟩
  rw [Registry.ancestor?_succ, hx, Option.bind_some]
  exact hb

lemma DetailedAt.checkPropertyType_eq {entity : String} (h : m.DetailedAt entity m') :
    m'.registry.checkPropertyType = m.registry.checkPropertyType := by
  have hderives := h.looksAlike.symm.derivesFrom
  obtain ⟨change, -, rfl⟩ := h
  exact Registry.checkPropertyType_congr (type?_congr rfl rfl) hderives

lemma DetailedAt.revisits_filled_iff (h : m.DetailedAt e.id m') :
    m'.registry.Revisits (e.filled fragments properties) ↔ m.registry.Revisits e :=
  h.looksAlike.symm.revisits_iff rfl

lemma DetailedAt.attaches_filled_iff (h : m.DetailedAt e.id m')
    (hends : ¬ m.registry.Revisits e) {fragment : String} :
    m'.registry.Attaches (e.filled fragments properties) fragment ↔
      (∃ ref ∈ fragments, ref.fragment = fragment) ∨ m.registry.InheritsFragment e fragment := by
  rw [Registry.attaches_iff, ← (h.sameAbove hends).inheritsFragment_iff]
  rfl

/-- While an entity is filled, only its details change. -/
lemma detailedAt_filled (hunknown : m.entity? e.id = none) :
    (m.withLast e).DetailedAt e.id (m.withLast (e.filled fragments properties)) := by
  refine ⟨(·.filled fragments properties), fun _ => rfl, ?_⟩
  rw [changeEntity_withLast (ne_of_entity?_eq_none hunknown)]

end Model

namespace Edit

variable {m m' : Model} {e : Entity} {fragments : List FragmentRef} {properties : List Property}

/-- A loop over changes that are let through one by one, each given those before it. -/
lemma forM_eq_ok_iff {α : Type} {edit : α → Edit Unit} (state : List α → Model)
    (admits : List α → α → Prop)
    (hstep : ∀ before a m', (edit a).run (state before) = .ok () m' ↔
      admits before a ∧ m' = state (before ++ [a])) (l : List α) :
    (l.forM edit).run (state []) = .ok () m' ↔
      (∀ before a after, l = before ++ a :: after → admits before a) ∧ m' = state l := by
  induction l using List.reverseRecOn generalizing m' with
  | nil =>
    constructor
    · intro h
      cases h
      exact ⟨fun before a after he => absurd he (by simp), rfl⟩
    · rintro ⟨-, rfl⟩
      rfl
  | append_singleton l a ih =>
    have hlast : (l ++ [a]).forM edit = l.forM edit >>= fun _ => edit a := by
      change forM (l ++ [a]) edit = forM l edit >>= fun _ => edit a
      simp
    rw [hlast, run_bind_eq_ok_iff, forall_split_concat]
    constructor
    · rintro ⟨_, mid, hmid, ha⟩
      obtain ⟨hall, rfl⟩ := ih.mp hmid
      obtain ⟨hadmits, rfl⟩ := (hstep l a m').mp ha
      exact ⟨⟨hall, hadmits⟩, rfl⟩
    · rintro ⟨⟨hall, hadmits⟩, rfl⟩
      exact ⟨(), state l, ih.mpr ⟨hall, rfl⟩, (hstep l a _).mpr ⟨hadmits, rfl⟩⟩

lemma run_ownEntity_bind {β : Type} {id : String} {f : Entity → Edit β}
    (hown : m.ownEntity? id = some e) : (ownEntity id >>= f).run m = (f e).run m := by
  rw [run_bind, run_ownEntity, hown]

lemma run_changeEntity_of_own {id : String} {change : Entity → Entity}
    (hown : m.ownEntity? id = some e) :
    (changeEntity id change).run m = .ok () m' ↔ m' = m.changeEntity id change := by
  rw [run_changeEntity, hown]
  exact ⟨fun h => by cases h; rfl, fun h => by rw [h]⟩

/-- What an own entity asks of a fragment that is inserted. -/
lemma insertFragment_eq_ok_iff (hown : m.ownEntity? e.id = some e) {position : Nat}
    {ref : FragmentRef} :
    (insertFragment e.id position ref).run m = .ok () m' ↔
      (¬ m.registry.Revisits e ∧ (m.fragment? ref.fragment).isSome ∧
        ¬ m.registry.Attaches e ref.fragment ∧ ∀ anchor ∈ ref.anchor, m.registry.Attaches e anchor) ∧
      m' = m.changeEntity e.id fun e =>
        { e with fragments := insertWithin e.fragments position ref } := by
  unfold insertFragment
  rw [run_ownEntity_bind hown]
  change (check (m.registry.effectiveFragments e) >>= fun attached =>
    check (m.registry.checkFragment e.id attached ref) >>= fun _ =>
    check (checkAnchor e.id attached ref) >>= fun _ => _).run m = _ ↔ _
  simp only [run_check_bind_eq_ok_iff, run_changeEntity_of_own hown]
  change _ ↔ (_ ∧ (m.registry.fragment? ref.fragment).isSome ∧ _) ∧ _
  rw [← Registry.fragment_checks_iff]
  constructor
  · rintro ⟨attached, heffective, _, hfragment, _, hanchor, h⟩
    exact ⟨⟨attached, heffective, hfragment, hanchor⟩, h⟩
  · rintro ⟨⟨attached, heffective, hfragment, hanchor⟩, h⟩
    exact ⟨attached, heffective, (), hfragment, (), hanchor, h⟩

/-- What an own entity asks of a property that is inserted. -/
lemma insertProperty_eq_ok_iff (hown : m.ownEntity? e.id = some e) {position : Nat} {p : Property} :
    (insertProperty e.id position p).run m = .ok () m' ↔
      (¬ m.registry.Revisits e ∧ (∀ q ∈ e.properties, q.aliasName ≠ p.aliasName) ∧
        m.registry.checkPropertyType e.id p = .ok () ∧
        ∀ fragment ∈ p.sourceFragment, m.registry.Attaches e fragment) ∧
      m' = m.changeEntity e.id fun e =>
        { e with properties := insertWithin e.properties position (p.ownedBy e.id) } := by
  unfold insertProperty
  rw [run_ownEntity_bind hown]
  change (check (m.registry.effectiveFragments e) >>= fun attached =>
    check (m.registry.checkProperty e.id e.properties attached p) >>= fun _ => _).run m = _ ↔ _
  simp only [run_check_bind_eq_ok_iff, run_changeEntity_of_own hown]
  rw [← Registry.property_checks_iff]
  constructor
  · rintro ⟨attached, heffective, _, hcheck, h⟩
    exact ⟨⟨attached, heffective, hcheck⟩, h⟩
  · rintro ⟨⟨attached, heffective, hcheck⟩, h⟩
    exact ⟨attached, heffective, (), hcheck, h⟩

lemma attachFragment_withLast_iff (hnew : ∀ x ∈ m.entities, x.id ≠ e.id) {ref : FragmentRef} :
    (attachFragment e.id ref).run (m.withLast e) = .ok () m' ↔
      (¬ (m.withLast e).registry.Revisits e ∧ (m.fragment? ref.fragment).isSome ∧
        ¬ (m.withLast e).registry.Attaches e ref.fragment ∧
        ∀ anchor ∈ ref.anchor, (m.withLast e).registry.Attaches e anchor) ∧
      m' = m.withLast { e with fragments := e.fragments ++ [ref] } := by
  have hown := Model.ownEntity?_withLast hnew
  unfold attachFragment
  rw [run_ownEntity_bind hown, insertFragment_eq_ok_iff hown, Model.fragment?_withLast,
    Model.changeEntity_withLast hnew, insertWithin_length]

lemma addProperty_withLast_iff (hnew : ∀ x ∈ m.entities, x.id ≠ e.id) {p : Property} :
    (addProperty e.id p).run (m.withLast e) = .ok () m' ↔
      (¬ (m.withLast e).registry.Revisits e ∧ (∀ q ∈ e.properties, q.aliasName ≠ p.aliasName) ∧
        (m.withLast e).registry.checkPropertyType e.id p = .ok () ∧
        ∀ fragment ∈ p.sourceFragment, (m.withLast e).registry.Attaches e fragment) ∧
      m' = m.withLast { e with properties := e.properties ++ [p.ownedBy e.id] } := by
  have hown := Model.ownEntity?_withLast hnew
  unfold addProperty
  rw [run_ownEntity_bind hown, insertProperty_eq_ok_iff hown, Model.changeEntity_withLast hnew,
    insertWithin_length]

lemma attachFragment_filled_iff (hunknown : m.entity? e.id = none) (before : List FragmentRef)
    (ref : FragmentRef) (m' : Model) :
    (attachFragment e.id ref).run (m.withLast (e.filled before [])) = .ok () m' ↔
      (m.withLast e).registry.TakesFragment e before ref ∧
        m' = m.withLast (e.filled (before ++ [ref]) []) := by
  have hfragment : (m.withLast e).registry.fragment? = m.fragment? := Model.fragment?_withLast m e
  have hdetailed : (m.withLast e).DetailedAt e.id (m.withLast (e.filled before [])) :=
    Model.detailedAt_filled hunknown
  have hattaches (hends : ¬ (m.withLast e).registry.Revisits e) (fragment : String) :
      (m.withLast (e.filled before [])).registry.Attaches (e.filled before []) fragment ↔
        (∃ other ∈ before, other.fragment = fragment) ∨
          (m.withLast e).registry.InheritsFragment e fragment :=
    hdetailed.attaches_filled_iff hends
  refine (attachFragment_withLast_iff (e := e.filled before [])
    (Model.ne_of_entity?_eq_none hunknown)).trans (and_congr_left fun _ => ?_)
  rw [hdetailed.revisits_filled_iff]
  constructor
  · rintro ⟨hends, hknown, hnew, hanchor⟩
    rw [hattaches hends, not_or] at hnew
    exact ⟨hends, hfragment ▸ hknown, fun other hother hsame => hnew.1 ⟨other, hother, hsame⟩,
      hnew.2, fun anchor ha => (hattaches hends anchor).mp (hanchor anchor ha)⟩
  · intro h
    refine ⟨h.chain, hfragment ▸ h.known, ?_, fun anchor ha => ?_⟩
    · rw [hattaches h.chain, not_or]
      exact ⟨fun ⟨other, hother, hsame⟩ => h.fresh other hother hsame, h.notInherited⟩
    · exact (hattaches h.chain anchor).mpr (h.anchor anchor ha)

lemma addProperty_filled_iff (hunknown : m.entity? e.id = none) (before : List Property)
    (p : Property) (m' : Model) :
    (addProperty e.id p).run (m.withLast (e.filled e.fragments before)) = .ok () m' ↔
      (m.withLast e).registry.TakesProperty e before p ∧
        m' = m.withLast (e.filled e.fragments (before ++ [p.ownedBy e.id])) := by
  have hdetailed : (m.withLast e).DetailedAt e.id (m.withLast (e.filled e.fragments before)) :=
    Model.detailedAt_filled hunknown
  have hattaches (hends : ¬ (m.withLast e).registry.Revisits e) (fragment : String) :
      (m.withLast (e.filled e.fragments before)).registry.Attaches (e.filled e.fragments before)
        fragment ↔ (m.withLast e).registry.Attaches e fragment :=
    (hdetailed.attaches_filled_iff hends).trans Registry.attaches_iff.symm
  refine (addProperty_withLast_iff (e := e.filled e.fragments before)
    (Model.ne_of_entity?_eq_none hunknown)).trans (and_congr_left fun _ => ?_)
  rw [hdetailed.revisits_filled_iff, hdetailed.checkPropertyType_eq]
  constructor
  · rintro ⟨hends, hnew, htype, hbinding⟩
    exact ⟨hends, hnew, htype, fun fragment hf => (hattaches hends fragment).mp (hbinding fragment hf)⟩
  · intro h
    exact ⟨h.chain, h.fresh, h.type,
      fun fragment hf => (hattaches h.chain fragment).mpr (h.binding fragment hf)⟩

/-- An entity is added when its identifier is new and the model that then has it admits it. -/
theorem addEntity_eq_ok_iff : (addEntity e).run m = .ok () m' ↔
    m.entity? e.id = none ∧ (m.withLast e.owned).registry.Admits e.owned ∧
      m' = m.withLast e.owned := by
  rw [run_addEntity_eq_ok_iff]
  refine and_congr_right fun hunknown => ?_
  have hfragments (mid : Model) :
      (e.fragments.forM (attachFragment e.id)).run (m.withBare e) = .ok () mid ↔
        (∀ before ref after, e.fragments = before ++ ref :: after →
          (m.withLast e.owned).registry.TakesFragment e.owned before ref) ∧
        mid = m.withLast (e.owned.filled e.fragments []) :=
    forM_eq_ok_iff (fun refs => m.withLast (e.owned.filled refs [])) _
      (attachFragment_filled_iff (e := e.owned) hunknown) e.fragments
  have hproperties :
      (e.properties.forM (addProperty e.id)).run (m.withLast (e.owned.filled e.fragments [])) =
          .ok () m' ↔
        (∀ before p after, e.properties = before ++ p :: after →
          (m.withLast e.owned).registry.TakesProperty e.owned (before.map (·.ownedBy e.id))
            (p.ownedBy e.id)) ∧
        m' = m.withLast e.owned := by
    refine forM_eq_ok_iff
      (fun ps => m.withLast (e.owned.filled e.fragments (ps.map (·.ownedBy e.id)))) _
      (fun before p m' => ?_) e.properties
    rw [Registry.takesProperty_ownedBy_iff, List.map_append]
    exact addProperty_filled_iff (e := e.owned) hunknown _ p m'
  unfold attachDeclared
  rw [run_bind_eq_ok_iff]
  constructor
  · rintro ⟨_, mid, hmid, h⟩
    obtain ⟨htaken, rfl⟩ := (hfragments mid).mp hmid
    obtain ⟨hown, rfl⟩ := hproperties.mp h
    exact ⟨⟨htaken, forall_split_map.mpr hown⟩, rfl⟩
  · rintro ⟨⟨htaken, hown⟩, h⟩
    exact ⟨(), _, (hfragments _).mpr ⟨htaken, rfl⟩,
      hproperties.mpr ⟨forall_split_map.mp hown, h⟩⟩

end Edit

end EntityModel
