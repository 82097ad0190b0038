import EntityModel.Completion
import EntityModel.Proofs.Handover
import EntityModel.Proofs.Outcome

/-!
# Merging an entity with its base

What a merge makes of the declarations. Settling an entity copies its declaration with the effective
fragments in place of the own ones, once every piece has passed its check. The properties of the base
are then taken in by the loop of `Handover`, so that the result has its closed form.
-/

namespace EntityModel

open Labelled (label)

lemma insertWithin_length {α : Type} (l : List α) (a : α) : insertWithin l l.length a = l ++ [a] := by
  simp [insertWithin, List.insertIdx_length_self]

lemma insertWithin_append {α : Type} (l l' : List α) (a : α) :
    insertWithin (l ++ l') l.length a = l ++ a :: l' := by
  unfold insertWithin
  rw [Nat.min_eq_left (by simp)]
  induction l with
  | nil => simp
  | cons b l ih => simpa using ih

lemma insertWithin_perm {α : Type} (l : List α) (position : Nat) (a : α) :
    (insertWithin l position a).Perm (a :: l) :=
  List.perm_insertIdx a l (Nat.min_le_right _ _)

lemma mem_insertWithin {α : Type} {l : List α} {position : Nat} {a b : α} :
    b ∈ insertWithin l position a ↔ b = a ∨ b ∈ l := by
  rw [(insertWithin_perm l position a).mem_iff, List.mem_cons]

lemma nodup_map_insertWithin {α : Type} {l : List α} {position : Nat} {a : α} {key : α → String}
    (hdistinct : (l.map key).Nodup) (hnew : ∀ b ∈ l, key b ≠ key a) :
    ((insertWithin l position a).map key).Nodup := by
  rw [((insertWithin_perm l position a).map key).nodup_iff, List.map_cons, List.nodup_cons]
  refine ⟨fun hmem => ?_, hdistinct⟩
  obtain ⟨b, hb, hsame⟩ := List.mem_map.mp hmem
  exact hnew b hb hsame

lemma not_isAttached_iff {attached : List FragmentRef} {fragment : String} :
    ¬ isAttached attached fragment = true ↔ ∀ other ∈ attached, other.fragment ≠ fragment := by
  simp [isAttached]

namespace Registry

variable (r : Registry)

lemma checkFragment_eq_ok_iff {entity : String} {attached : List FragmentRef} {ref : FragmentRef} :
    r.checkFragment entity attached ref = .ok () ↔
      (r.fragment? ref.fragment).isSome ∧ ∀ other ∈ attached, other.fragment ≠ ref.fragment := by
  rw [← not_isAttached_iff]
  unfold checkFragment
  split
  · next h => simp_all
  · next h =>
    split
    · next h' => simp_all
    · next h' => simp_all [Option.isSome_iff_ne_none]

lemma checkProperty_eq_ok_iff {entity : String} {properties : List Property}
    {attached : List FragmentRef} {p : Property} :
    r.checkProperty entity properties attached p = .ok () ↔
      (∀ q ∈ properties, q.aliasName ≠ p.aliasName) ∧ r.checkPropertyType entity p = .ok () ∧
        checkPropertyFragment entity attached p = .ok () := by
  have halias : (∀ q ∈ properties, q.aliasName ≠ p.aliasName) ↔
      ¬ (properties.any (·.aliasName == p.aliasName)) = true := by
    simp
  rw [halias]
  unfold checkProperty
  by_cases h : (properties.any (·.aliasName == p.aliasName)) = true
  · rw [if_pos h]
    exact ⟨fun h' => (nomatch h'), fun h' => absurd h h'.1⟩
  · rw [if_neg h]
    change (r.checkPropertyType entity p >>= fun _ => checkPropertyFragment entity attached p) =
      .ok () ↔ _
    rw [bind_eq_ok_iff]
    exact ⟨fun ⟨_, htype, hfragment⟩ => ⟨h, htype, hfragment⟩,
      fun ⟨_, htype, hfragment⟩ => ⟨(), htype, hfragment⟩⟩

lemma pushFragment_last (entity : String) (refs : List FragmentRef) (ref : FragmentRef) :
    r.pushFragment entity refs refs.length ref =
      r.checkFragment entity refs ref >>= fun _ => .ok (refs ++ [ref]) := by
  unfold pushFragment
  rw [insertWithin_length]
  rfl

lemma pushProperty_last (entity : String) (attached : List FragmentRef) (ps : List Property)
    (p : Property) : r.pushProperty entity attached ps ps.length p =
      r.checkProperty entity ps attached p >>= fun _ => .ok (ps ++ [p.ownedBy entity]) := by
  unfold pushProperty
  rw [insertWithin_length]
  rfl

lemma pushFragments_eq_ok_iff {entity : String} {refs attached : List FragmentRef} :
    refs.foldlM (fun acc ref => r.pushFragment entity acc acc.length ref) [] = .ok attached ↔
      attached = refs ∧ (∀ ref ∈ refs, (r.fragment? ref.fragment).isSome) ∧
        (refs.map (·.fragment)).Nodup := by
  have hcollect := foldlM_collect_iff (r.checkFragment entity) id refs attached
  simp only [pushFragment_last, id_eq, List.map_id] at hcollect ⊢
  rw [hcollect, nodup_map_iff_split]
  refine and_congr_right fun _ => ⟨fun h => ⟨fun ref href => ?_, fun before ref after he => ?_⟩, ?_⟩
  · obtain ⟨before, after, rfl⟩ := List.append_of_mem href
    exact (r.checkFragment_eq_ok_iff.mp (h before ref after rfl)).1
  · exact (r.checkFragment_eq_ok_iff.mp (h before ref after he)).2
  · rintro ⟨hknown, hdistinct⟩ before ref after he
    refine r.checkFragment_eq_ok_iff.mpr ⟨hknown ref (by simp [he]), hdistinct before ref after he⟩

lemma pushProperties_eq_ok_iff {entity : String} {attached : List FragmentRef}
    {ps collected : List Property} :
    ps.foldlM (fun acc p => r.pushProperty entity attached acc acc.length p) [] = .ok collected ↔
      collected = ps.map (·.ownedBy entity) ∧ (ps.map (·.aliasName)).Nodup ∧
        ∀ p ∈ ps, r.checkPropertyType entity p = .ok () ∧
          checkPropertyFragment entity attached p = .ok () := by
  have hcollect := foldlM_collect_iff (fun acc p => r.checkProperty entity acc attached p)
    (·.ownedBy entity) ps collected
  simp only [pushProperty_last]
  rw [hcollect, nodup_map_iff_split]
  have hcheck (before : List Property) (p : Property) :
      r.checkProperty entity (before.map (·.ownedBy entity)) attached p = .ok () ↔
        (∀ q ∈ before, q.aliasName ≠ p.aliasName) ∧ r.checkPropertyType entity p = .ok () ∧
          checkPropertyFragment entity attached p = .ok () := by
    rw [checkProperty_eq_ok_iff, List.forall_mem_map]
    rfl
  simp only [hcheck]
  refine and_congr_right fun _ => ⟨fun h => ⟨fun before p after he => (h before p after he).1, ?_⟩, ?_⟩
  · intro p hp
    obtain ⟨before, after, rfl⟩ := List.append_of_mem hp
    exact (h before p after rfl).2
  · rintro ⟨hdistinct, hsound⟩ before p after he
    exact ⟨hdistinct before p after he, hsound p (by simp [he])⟩

theorem settle_eq_ok_iff {new settled : Entity} :
    r.settle new = .ok settled ↔ ∃ effective, r.effectiveFragments new = .ok effective ∧
      (∀ ref ∈ effective, (r.fragment? ref.fragment).isSome) ∧
      (effective.map (·.fragment)).Nodup ∧ (new.properties.map (·.aliasName)).Nodup ∧
      (∀ p ∈ new.properties, r.checkPropertyType new.id p = .ok () ∧
        checkPropertyFragment new.id effective p = .ok ()) ∧
      settled = { new with
        base := none
        fragments := effective
        properties := new.properties.map (·.ownedBy new.id) } := by
  unfold settle
  simp only [bind_eq_ok_iff, pushFragments_eq_ok_iff, pushProperties_eq_ok_iff]
  constructor
  · rintro ⟨_, heffective, attached, ⟨rfl, hknown, hdistinct⟩, _, ⟨rfl, haliases, hsound⟩, h⟩
    cases h
    exact ⟨attached, heffective, hknown, hdistinct, haliases, hsound, rfl⟩
  · rintro ⟨effective, heffective, hknown, hdistinct, haliases, hsound, rfl⟩
    exact ⟨effective, heffective, effective, ⟨rfl, hknown, hdistinct⟩, _,
      ⟨rfl, haliases, hsound⟩, rfl⟩

end Registry

namespace Handover

/-- A handover as the draft of a merge, where `copy` is the form in which properties are inherited. -/
def draft (copy : Property → Property) (d : Handover Property Property) : Draft :=
  ⟨d.handed.map copy ++ d.own, d.own.length⟩

variable {copy : Property → Property} (hcopy : ∀ p, label (copy p) = label p)
  (d : Handover Property Property) (n : String)

include hcopy

lemma isNamed_copy : isNamed n ∘ copy = isNamed n := isNamed_comp copy hcopy n

omit hcopy in
lemma draft_boundary : (d.draft copy).boundary = (d.handed.map copy).length := by
  simp [draft, Draft.boundary]

lemma find?_draft : ((d.draft copy).properties.find? (isNamed n)).all isDisabled = d.isFree n := by
  have hdisabled : (fun p => isDisabled (copy p)) = isDisabled := isDisabled_comp copy hcopy
  unfold draft isFree leavesFree
  rw [List.find?_append, List.find?_map, isNamed_copy hcopy]
  cases d.handed.find? (isNamed n) with
  | none => rfl
  | some q => exact congrFun hdisabled q

lemma draft_vacate_properties :
    ((d.vacate n).draft copy).properties = (d.draft copy).properties.eraseP (isNamed n) := by
  unfold draft vacate
  simp only [List.eraseP_append, List.eraseP_map, List.any_map, isNamed_copy hcopy]
  cases hany : d.handed.any (isNamed n) with
  | true => rfl
  | false =>
    have hnone : d.handed.eraseP (isNamed n) = d.handed :=
      List.eraseP_of_forall_not fun a ha => by simpa using List.any_eq_false.mp hany a ha
    simp [hnone]

lemma draft_vacate_ownCount {index : Nat}
    (hindex : (d.draft copy).properties.findIdx? (isNamed n) = some index) :
    (d.vacate n).own.length =
      if (d.handed.map copy).length ≤ index then d.own.length - 1 else d.own.length := by
  unfold draft at hindex
  rw [List.findIdx?_append, List.findIdx?_map, isNamed_copy hcopy] at hindex
  unfold vacate
  rw [List.length_map]
  cases hhanded : d.handed.findIdx? (isNamed n) with
  | some i =>
    obtain ⟨hi, hnamed, -⟩ := List.findIdx?_eq_some_iff_getElem.mp hhanded
    have hany : d.handed.any (isNamed n) = true :=
      List.any_eq_true.mpr ⟨_, List.getElem_mem hi, hnamed⟩
    rw [hhanded, Option.some_or] at hindex
    cases hindex
    rw [if_pos hany, if_neg (by omega)]
  | none =>
    have hany : d.handed.any (isNamed n) = false := by
      simpa using List.findIdx?_eq_none_iff.mp hhanded
    rw [hhanded, Option.none_or, List.length_map] at hindex
    obtain ⟨i, hi, rfl⟩ := Option.map_eq_some_iff.mp hindex
    obtain ⟨hlt, hnamed, -⟩ := List.findIdx?_eq_some_iff_getElem.mp hi
    rw [hany, if_neg (by simp), if_pos (by omega)]
    exact List.length_eraseP_of_mem (List.getElem_mem hlt) hnamed

lemma draft_removeAt {index : Nat}
    (hindex : (d.draft copy).properties.findIdx? (isNamed n) = some index) :
    (d.draft copy).removeAt index = (d.vacate n).draft copy := by
  have herase : (d.draft copy).properties.eraseIdx index =
      ((d.vacate n).draft copy).properties := by
    rw [draft_vacate_properties hcopy, List.eraseP_eq_eraseIdx, hindex]
  have hlength : (d.draft copy).properties.length = (d.handed.map copy).length + d.own.length := by
    simp [draft]
  obtain ⟨hlt, -⟩ := List.findIdx?_eq_some_iff_getElem.mp hindex
  have herased := List.length_eraseIdx_of_lt hlt
  have hcount := draft_vacate_ownCount hcopy d n hindex
  have hbound : (d.draft copy).properties.length - 1 + 1 - d.own.length =
      (d.handed.map copy).length := by
    omega
  change (⟨(d.draft copy).properties.eraseIdx index,
    if ((d.draft copy).properties.eraseIdx index).length + 1 - d.own.length ≤ index then
      d.own.length - 1 else d.own.length⟩ : Draft) = _
  rw [herased, hbound, ← hcount, herase]
  rfl

lemma vacate_draft_of_none (hindex : (d.draft copy).properties.findIdx? (isNamed n) = none) :
    d.vacate n = d := by
  have hnone := List.findIdx?_eq_none_iff.mp hindex
  have hhanded : ∀ p ∈ d.handed, ¬ isNamed n p = true := fun p hp => by
    rw [← isNamed_copy hcopy n, Function.comp_apply, Bool.not_eq_true]
    exact hnone _ (List.mem_append_left _ (List.mem_map_of_mem hp))
  have hown : ∀ w ∈ d.own, ¬ isNamed n w = true := fun w hw => by
    rw [Bool.not_eq_true]
    exact hnone w (List.mem_append_right _ hw)
  unfold vacate
  rw [List.eraseP_of_forall_not hhanded, List.eraseP_of_forall_not hown, ite_self]

end Handover

namespace Registry

variable (r : Registry)

/-- A property as it stands in the view of an entity that inherits it. -/
def inheritedCopy (entity : String) (attached : List FragmentRef) (p : Property) : Property :=
  (r.inheritedForm entity attached p).ownedBy entity

lemma label_inheritedCopy (entity : String) (attached : List FragmentRef) (p : Property) :
    label (r.inheritedCopy entity attached p) = label p := rfl

lemma place_draft (entity : String) (attached : List FragmentRef)
    (d : Handover Property Property) (p : Property) :
    r.place entity attached (d.draft (r.inheritedCopy entity attached)) p =
      r.checkProperty entity (d.draft (r.inheritedCopy entity attached)).properties attached
        (r.inheritedForm entity attached p) >>=
      fun _ => .ok (Handover.draft (r.inheritedCopy entity attached)
        ⟨d.handed ++ [p], d.own⟩) := by
  unfold place pushProperty
  rw [Handover.draft_boundary]
  simp only [Handover.draft, bind_assoc]
  rw [insertWithin_append]
  congr 1
  funext _
  simp [inheritedCopy, pure, Except.pure, bind, Except.bind]

/-- One step of the loop, on drafts that come from a handover. -/
theorem inherit_draft (entity : String) (attached : List FragmentRef)
    (d : Handover Property Property) (p : Property) :
    r.inherit entity attached (d.draft (r.inheritedCopy entity attached)) p =
      if d.isFree p.name then
        r.checkProperty entity
          ((d.vacate p.name).draft (r.inheritedCopy entity attached)).properties attached
          (r.inheritedForm entity attached p) >>=
        fun _ => .ok ((d.take p).draft (r.inheritedCopy entity attached))
      else .ok (d.draft (r.inheritedCopy entity attached)) := by
  have hcopy := r.label_inheritedCopy entity attached
  have hfind := Handover.find?_draft hcopy d p.name
  unfold inherit
  rw [List.find?_eq_bind_findIdx?_getElem?] at hfind
  cases hplace : (d.draft (r.inheritedCopy entity attached)).properties.findIdx?
      (·.name == p.name) with
  | none =>
    have hindex : (d.draft (r.inheritedCopy entity attached)).properties.findIdx?
        (Handover.isNamed p.name) = none := hplace
    rw [hindex] at hfind
    have hfree : d.isFree p.name = true := hfind.symm
    have htake : d.take p = ⟨(d.vacate p.name).handed ++ [p], (d.vacate p.name).own⟩ :=
      Handover.take_of_free hfree
    rw [if_pos hfree, htake, Handover.vacate_draft_of_none hcopy d p.name hindex]
    exact r.place_draft entity attached d p
  | some index =>
    have hindex : (d.draft (r.inheritedCopy entity attached)).properties.findIdx?
        (Handover.isNamed p.name) = some index := hplace
    rw [hindex, Option.bind_some] at hfind
    have henabled : ((d.draft (r.inheritedCopy entity attached)).properties[index]?).any
        (! ·.disabled) = !d.isFree p.name := by
      rw [← hfind]
      cases (d.draft (r.inheritedCopy entity attached)).properties[index]? <;> rfl
    dsimp only
    rw [henabled, Handover.draft_removeAt hcopy d p.name hindex]
    by_cases hfree : d.isFree p.name = true
    · rw [if_neg (by simp [hfree]), if_pos hfree, Handover.take_of_free hfree]
      exact r.place_draft entity attached (d.vacate p.name) p
    · rw [if_pos (by simpa using hfree), if_neg hfree]

/-- A loop that succeeds has done what `Handover.takeAll` does. -/
theorem foldlM_inherit_of_ok {entity : String} {attached : List FragmentRef} {old : List Property}
    {d : Handover Property Property} {result : Draft}
    (h : old.foldlM (r.inherit entity attached) (d.draft (r.inheritedCopy entity attached)) =
      .ok result) :
    result = (old.foldl Handover.take d).draft (r.inheritedCopy entity attached) := by
  induction old generalizing d with
  | nil =>
    cases h
    rfl
  | cons p old ih =>
    rw [List.foldlM_cons, inherit_draft] at h
    rw [List.foldl_cons]
    by_cases hfree : d.isFree p.name = true
    · rw [if_pos hfree, bind_assoc, bind_eq_ok_iff] at h
      obtain ⟨_, -, h⟩ := h
      exact ih h
    · rw [if_neg hfree] at h
      rw [Handover.take_of_not_free hfree]
      exact ih h

lemma checkProperty_eq {entity : String} {properties : List Property}
    {attached : List FragmentRef} {p : Property} (htype : r.checkPropertyType entity p = .ok ())
    (hfragment : checkPropertyFragment entity attached p = .ok ()) :
    r.checkProperty entity properties attached p =
      if properties.any (·.aliasName == p.aliasName) then
        .error (.duplicateAlias entity p.aliasName) else .ok () := by
  unfold checkProperty
  split
  · rfl
  · change (r.checkPropertyType entity p >>= fun _ => checkPropertyFragment entity attached p) = _
    rw [htype]
    exact hfragment

lemma checkPropertyFragment_inheritedForm (entity : String) (attached : List FragmentRef)
    (p : Property) :
    checkPropertyFragment entity attached (r.inheritedForm entity attached p) = .ok () := by
  unfold checkPropertyFragment inheritedForm
  dsimp only
  split
  · rfl
  · next fragment h =>
    obtain ⟨-, hattached⟩ := Option.filter_eq_some_iff.mp h
    exact if_pos hattached

lemma labels_nodup {α : Type} [Labelled α] {l : List α}
    (h : (l.map fun a => (label a).aliasName).Nodup) : (l.map label).Nodup := by
  have hmap : (l.map label).map (·.aliasName) = l.map fun a => (label a).aliasName := by
    rw [List.map_map]
    rfl
  exact List.Nodup.of_map (·.aliasName) (hmap ▸ h)

/-- Where a property arrives, only an own one that stays can have its alias already. -/
lemma any_alias_vacate (entity : String) (attached : List FragmentRef)
    {own before : List Property} {p : Property} (hown : (own.map (·.aliasName)).Nodup)
    (hbefore : ((before ++ [p]).map (·.aliasName)).Nodup)
    (harrives : Handover.arrives own before p = true) :
    (((Handover.takeAll own before).vacate p.name).draft
        (r.inheritedCopy entity attached)).properties.any (·.aliasName == p.aliasName) =
      (Handover.kept own (before ++ [p])).any (·.aliasName == p.aliasName) := by
  have hfree : (Handover.takeAll own before).isFree p.name = true :=
    (Handover.isFree_takeAll own before p).trans harrives
  have hkept : ((Handover.takeAll own before).vacate p.name).own =
      Handover.kept own (before ++ [p]) := by
    rw [← Handover.takeAll_own (labels_nodup hown), Handover.takeAll_concat,
      Handover.take_of_free hfree]
    rfl
  have hhanded : ∀ q ∈ ((Handover.takeAll own before).vacate p.name).handed,
      q.aliasName ≠ p.aliasName := by
    intro q hq
    have hmem : q ∈ before :=
      (Handover.takeAll_handed_sublist own before).subset (List.mem_of_mem_eraseP hq)
    rw [List.map_append, List.nodup_append] at hbefore
    exact hbefore.2.2 _ (List.mem_map_of_mem hmem) _ (by simp)
  unfold Handover.draft
  rw [List.any_append, hkept, List.any_map, Bool.or_eq_right_iff_imp]
  intro hany
  obtain ⟨q, hq, he⟩ := List.any_eq_true.mp hany
  exact absurd (beq_iff_eq.mp he) (hhanded q hq)

/-- Where the types of the old properties pass, the loop fails only on aliases that meet. -/
theorem foldlM_inherit_eq {entity : String} {attached : List FragmentRef}
    {own before old : List Property} (hown : (own.map (·.aliasName)).Nodup)
    (hold : ((before ++ old).map (·.aliasName)).Nodup)
    (htype : ∀ p ∈ old,
      r.checkPropertyType entity (r.inheritedForm entity attached p) = .ok ()) :
    old.foldlM (r.inherit entity attached)
        ((Handover.takeAll own before).draft (r.inheritedCopy entity attached)) =
      match Handover.collision? own before old with
      | some p => .error (.duplicateAlias entity p.aliasName)
      | none => .ok ((Handover.takeAll own (before ++ old)).draft
          (r.inheritedCopy entity attached)) := by
  induction old generalizing before with
  | nil =>
    rw [List.append_nil]
    rfl
  | cons p old ih =>
    have hassoc : before ++ p :: old = before ++ [p] ++ old := by simp
    rw [hassoc] at hold
    have ih := ih hold fun q hq => htype q (List.mem_cons_of_mem _ hq)
    have hfree : (Handover.takeAll own before).isFree p.name = Handover.arrives own before p :=
      Handover.isFree_takeAll own before p
    rw [List.foldlM_cons, inherit_draft, Handover.collision?, hassoc, hfree]
    by_cases harrives : Handover.arrives own before p = true
    · have hany := r.any_alias_vacate entity attached hown
        (hold.sublist ((List.sublist_append_left _ old).map _)) harrives
      rw [if_pos harrives, r.checkProperty_eq (htype p List.mem_cons_self)
        (r.checkPropertyFragment_inheritedForm entity attached p)]
      have halias : (r.inheritedForm entity attached p).aliasName = p.aliasName := rfl
      rw [halias, hany, ← Handover.takeAll_concat]
      have hcollides : Handover.collides own before p =
          (Handover.kept own (before ++ [p])).any (·.aliasName == p.aliasName) := by
        rw [Handover.collides, harrives, Bool.true_and]
        rfl
      rw [hcollides]
      split
      · rfl
      · exact ih
    · have hcollides : Handover.collides own before p = false := by
        simp [Handover.collides, harrives]
      rw [if_neg harrives, hcollides]
      rw [Handover.takeAll_concat, Handover.take_of_not_free (hfree ▸ harrives)] at ih
      exact ih

lemma merge_none (new : Entity) : r.merge none new = r.settle new := by
  unfold merge
  cases r.settle new <;> rfl

lemma merge_some (old new : Entity) : r.merge (some old) new = r.settle new >>= r.bequeath old :=
  rfl

/-- A settled entity with the properties and tables of a merge. -/
def bequest (old settled : Entity) (fragments : List FragmentRef) (draft : Draft) : Entity :=
  { settled with
    description := mergeDescriptions old.description settled.description
    properties := draft.properties
    fragments
    suppressed := settled.suppressed ++ old.suppressed
    useGenerics := old.useGenerics
    makeInterface := old.makeInterface
    cacheCheckRequired := old.cacheCheckRequired
    behaviour := old.behaviour }

lemma bequeath_eq (old settled : Entity) : r.bequeath old settled =
    (if settled.inheritsBaseTables then r.insertMissingTables old settled.id settled.fragments
      else .ok settled.fragments) >>= fun fragments =>
    old.properties.foldlM (r.inherit settled.id fragments)
      ⟨settled.properties, settled.properties.length⟩ >>= fun draft =>
    .ok (bequest old settled fragments draft) := by
  unfold bequeath
  split <;> rfl

lemma bequeath_eq_ok {old settled view : Entity} (h : r.bequeath old settled = .ok view) :
    ∃ fragments draft,
      (if settled.inheritsBaseTables then r.insertMissingTables old settled.id settled.fragments
        else .ok settled.fragments) = .ok fragments ∧
      old.properties.foldlM (r.inherit settled.id fragments)
        ⟨settled.properties, settled.properties.length⟩ = .ok draft ∧
      view = bequest old settled fragments draft := by
  rw [bequeath_eq] at h
  obtain ⟨fragments, hfragments, h⟩ := bind_eq_ok_iff.mp h
  obtain ⟨draft, hdraft, h⟩ := bind_eq_ok_iff.mp h
  cases h
  exact ⟨fragments, draft, hfragments, hdraft, rfl⟩

/-- Apart from its properties and fragments, a merge without an old entity has only lost its base. -/
lemma merge_none_scalars {new view : Entity} (h : r.merge none new = .ok view) :
    view = { new with base := none, properties := view.properties, fragments := view.fragments } := by
  rw [merge_none] at h
  obtain ⟨_, -, -, -, -, -, rfl⟩ := r.settle_eq_ok_iff.mp h
  rfl

/-- Apart from its properties and fragments, a merge takes switches, a description and names to
suppress from the old entity. -/
lemma merge_some_scalars {old new view : Entity} (h : r.merge (some old) new = .ok view) :
    view = { new with
      base := none
      description := mergeDescriptions old.description new.description
      suppressed := new.suppressed ++ old.suppressed
      behaviour := old.behaviour
      cacheCheckRequired := old.cacheCheckRequired
      makeInterface := old.makeInterface
      useGenerics := old.useGenerics
      properties := view.properties
      fragments := view.fragments } := by
  rw [merge_some] at h
  obtain ⟨_, hsettle, h⟩ := bind_eq_ok_iff.mp h
  obtain ⟨_, -, -, -, -, -, rfl⟩ := r.settle_eq_ok_iff.mp hsettle
  obtain ⟨_, _, -, -, rfl⟩ := r.bequeath_eq_ok h
  rfl

lemma merge_id {old : Option Entity} {new view : Entity} (h : r.merge old new = .ok view) :
    view.id = new.id := by
  cases old with
  | none => rw [r.merge_none_scalars h]
  | some old => rw [r.merge_some_scalars h]

/-- The properties of a merged entity: what the base hands down, and then the own ones that stay. -/
theorem merge_properties {old new view : Entity} (h : r.merge (some old) new = .ok view)
    (hold : (old.properties.map (·.aliasName)).Nodup) :
    view.properties =
      (Handover.handedDown new.properties old.properties).map
          (r.inheritedCopy new.id view.fragments) ++
        (Handover.kept new.properties old.properties).map (·.ownedBy new.id) := by
  have hlabel (p : Property) : label (p.ownedBy new.id) = label p := rfl
  rw [merge_some] at h
  obtain ⟨settled, hsettle, h⟩ := bind_eq_ok_iff.mp h
  obtain ⟨fragments, draft, -, hdraft, rfl⟩ := r.bequeath_eq_ok h
  obtain ⟨_, -, -, -, haliases, -, rfl⟩ := r.settle_eq_ok_iff.mp hsettle
  have haliases' : ((new.properties.map (·.ownedBy new.id)).map (·.aliasName)).Nodup := by
    simpa [Function.comp_def, Property.ownedBy] using haliases
  have hresult := r.foldlM_inherit_of_ok
    (d := Handover.takeAll (new.properties.map (·.ownedBy new.id)) []) hdraft
  change draft.properties =
    (Handover.handedDown new.properties old.properties).map (r.inheritedCopy new.id fragments) ++
      (Handover.kept new.properties old.properties).map (·.ownedBy new.id)
  rw [hresult]
  change (Handover.draft _ (Handover.takeAll (new.properties.map (·.ownedBy new.id))
    old.properties)).properties = _
  unfold Handover.draft
  rw [Handover.takeAll_handed (labels_nodup hold), Handover.takeAll_own (labels_nodup haliases'),
    Handover.handedDown_map_own _ hlabel, Handover.kept_map_own _ hlabel]

end Registry

end EntityModel
