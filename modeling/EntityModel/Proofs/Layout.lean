import EntityModel.Model
import EntityModel.Proofs.Merge

/-!
# The layout of a merge

While the properties of a base are taken in, the draft has two parts: copies of properties of the
base, and behind them the own properties that are still there. The draft does not keep the parts
apart. It counts the own properties, and the place where they begin is found by subtraction. Every
step of the loop keeps that count exact, so no subtraction goes below zero and a copy is placed just
between the two parts.
-/

namespace EntityModel

namespace Draft

/-- The two parts of a draft: the count is that of the own part, it is within the draft, and the
boundary is where the first part ends. -/
structure LaidOut (d : Draft) (inherited own : List Property) : Prop where
  properties : d.properties = inherited ++ own
  ownCount : d.ownCount = own.length
  within : d.ownCount ≤ d.properties.length
  boundary : d.boundary = inherited.length

/-- What is computed when a property is taken out of a draft whose own part begins at `start`: nothing
is subtracted from less, and an own property is taken off the count only where there is one. -/
structure Removes (d : Draft) (start index : Nat) : Prop where
  within : index < d.properties.length
  subtracts : d.ownCount ≤ (d.properties.eraseIdx index).length + 1
  difference : (d.properties.eraseIdx index).length + 1 - d.ownCount = start
  counted : start ≤ index → 0 < d.ownCount

variable {d d' : Draft} {inherited own : List Property} {index : Nat}

lemma laidOut_of_parts (hproperties : d.properties = inherited ++ own)
    (hcount : d.ownCount = own.length) : d.LaidOut inherited own where
  properties := hproperties
  ownCount := hcount
  within := by simp [hproperties, hcount]
  boundary := by simp [boundary, hproperties, hcount]

namespace LaidOut

lemma removes (h : d.LaidOut inherited own) (hindex : index < d.properties.length) :
    d.Removes inherited.length index := by
  have hlength : d.properties.length = inherited.length + own.length := by
    rw [h.properties, List.length_append]
  have herased := List.length_eraseIdx_of_lt hindex
  have hcount := h.ownCount
  exact ⟨hindex, by omega, by omega, by omega⟩

/-- Taking a property out leaves the two parts, one of them without it. -/
lemma removeAt (h : d.LaidOut inherited own) (hindex : index < d.properties.length) :
    ∃ inherited' own', inherited'.Sublist inherited ∧ own'.Sublist own ∧
      (d.removeAt index).LaidOut inherited' own' := by
  have hlength : d.properties.length = inherited.length + own.length := by
    rw [h.properties, List.length_append]
  unfold Draft.removeAt
  dsimp only
  rw [(h.removes hindex).difference]
  by_cases hown : inherited.length ≤ index
  · rw [if_pos hown]
    refine ⟨inherited, own.eraseIdx (index - inherited.length), List.Sublist.refl _,
      List.eraseIdx_sublist _ _, laidOut_of_parts ?_ ?_⟩
    · dsimp only
      rw [h.properties, List.eraseIdx_append_of_length_le hown]
    · dsimp only
      rw [List.length_eraseIdx_of_lt (by omega), h.ownCount]
  · rw [if_neg hown]
    refine ⟨inherited.eraseIdx index, own, List.eraseIdx_sublist _ _, List.Sublist.refl _,
      laidOut_of_parts ?_ h.ownCount⟩
    dsimp only
    rw [h.properties, List.eraseIdx_append_of_lt_length (by omega)]

variable {r : Registry} {entity : String} {attached : List FragmentRef} {p : Property}

/-- What is placed ends the first part. -/
lemma place (h : d.LaidOut inherited own) (hplace : r.place entity attached d p = .ok d') :
    d'.LaidOut (inherited ++ [r.inheritedCopy entity attached p]) own := by
  unfold Registry.place at hplace
  obtain ⟨properties, hpush, hplace⟩ := bind_eq_ok_iff.mp hplace
  unfold Registry.pushProperty at hpush
  obtain ⟨_, -, hpush⟩ := bind_eq_ok_iff.mp hpush
  rw [h.boundary, h.properties, insertWithin_append] at hpush
  cases hpush
  cases hplace
  apply laidOut_of_parts
  · simp [Registry.inheritedCopy]
  · exact h.ownCount

end LaidOut

end Draft

namespace Handover

variable {own old : List Property} {w : Property}

/-- An own property makes way only when it is disabled and the base has one of its name. -/
lemma mem_kept_or (hw : w ∈ own) :
    w ∈ kept own old ∨ w.disabled = true ∧ ∃ p ∈ old, p.name = w.name := by
  by_cases hkept : w ∈ kept own old
  · exact .inl hkept
  · unfold kept at hkept
    rw [List.mem_filter, not_and, Bool.not_eq_true, Bool.not_eq_false', Bool.and_eq_true,
      Bool.and_eq_true] at hkept
    obtain ⟨⟨hdisabled, hnamed⟩, -⟩ := hkept hw
    obtain ⟨p, hp, hname⟩ := List.any_eq_true.mp hnamed
    exact .inr ⟨hdisabled, p, hp, beq_iff_eq.mp hname⟩

end Handover

namespace Registry

/-- What a step of the loop may do to a draft that has the layout. Where it takes a property out, what
it computes is sound and the draft keeps the layout. It then leaves the draft as it is or places a copy
at the end of the first part. -/
structure StepsWithin (r : Registry) (entity : String) (attached : List FragmentRef) (d : Draft)
    (inherited own : List Property) (p : Property) : Prop where
  removal : ∀ index, d.properties.findIdx? (·.name == p.name) = some index →
    d.Removes inherited.length index ∧
      ∃ inherited' own', inherited'.Sublist inherited ∧ own'.Sublist own ∧
        (d.removeAt index).LaidOut inherited' own'
  result : ∀ d', r.inherit entity attached d p = .ok d' → d' = d ∨
    ∃ inherited' own', inherited'.Sublist inherited ∧ own'.Sublist own ∧
      d'.LaidOut (inherited' ++ [r.inheritedCopy entity attached p]) own'

/-- The draft after some properties of the base have been taken in. -/
def draftAfter (r : Registry) (new : Entity) (attached : List FragmentRef)
    (before : List Property) : Except ModelError Draft :=
  before.foldlM (r.inherit new.id attached)
    ⟨new.properties.map (·.ownedBy new.id), new.properties.length⟩

variable {r : Registry} {attached : List FragmentRef} {d : Draft}

lemma stepsWithin_of_laidOut {entity : String} {inherited own : List Property}
    (h : d.LaidOut inherited own) (p : Property) :
    r.StepsWithin entity attached d inherited own p where
  removal index hfound := by
    obtain ⟨hindex, -⟩ := List.findIdx?_eq_some_iff_getElem.mp hfound
    exact ⟨h.removes hindex, h.removeAt hindex⟩
  result d' hstep := by
    unfold inherit at hstep
    split at hstep
    · exact .inr ⟨inherited, own, List.Sublist.refl _, List.Sublist.refl _, h.place hstep⟩
    · next index hfound =>
      split at hstep
      · cases hstep
        exact .inl rfl
      · obtain ⟨hindex, -⟩ := List.findIdx?_eq_some_iff_getElem.mp hfound
        obtain ⟨inherited', own', hinherited, hown, hlaid⟩ := h.removeAt hindex
        exact .inr ⟨inherited', own', hinherited, hown, hlaid.place hstep⟩

/-- At any point of the loop the draft has the layout, with the own properties that are kept. -/
lemma laidOut_of_draftAfter {new : Entity} {before : List Property}
    (hdistinct : (new.properties.map (·.aliasName)).Nodup)
    (h : r.draftAfter new attached before = .ok d) :
    ∃ inherited : List Property, inherited.Sublist before ∧
      d.LaidOut (inherited.map (r.inheritedCopy new.id attached))
        ((Handover.kept new.properties before).map (·.ownedBy new.id)) := by
  let owned := new.properties.map (·.ownedBy new.id)
  have hlabel (p : Property) : Labelled.label (p.ownedBy new.id) = Labelled.label p := rfl
  have hdistinct' : (owned.map (·.aliasName)).Nodup := by
    simpa [owned, Function.comp_def, Property.ownedBy] using hdistinct
  have hstart : (⟨owned, new.properties.length⟩ : Draft) =
      Handover.draft (r.inheritedCopy new.id attached) (Handover.takeAll owned []) := by
    simp [Handover.draft, owned]
  unfold draftAfter at h
  rw [hstart] at h
  have hdraft : d = (Handover.takeAll owned before).draft (r.inheritedCopy new.id attached) :=
    r.foldlM_inherit_of_ok h
  have hown : (Handover.takeAll owned before).own =
      (Handover.kept new.properties before).map (·.ownedBy new.id) := by
    rw [Handover.takeAll_own (labels_nodup hdistinct'), Handover.kept_map_own _ hlabel]
  refine ⟨_, Handover.takeAll_handed_sublist owned before, ?_⟩
  rw [hdraft, ← hown]
  exact Draft.laidOut_of_parts rfl rfl

/-- The layout of a merge with any old entity. The properties of the result are copies of some of the
old ones and then own ones, each part in its own order. An own property is missing only when it is
disabled and an old one has its name. All the way through the loop the draft is laid out like that,
also while a property has been taken out to make way for the next one. -/
theorem merge_layout {old new view : Entity} (h : r.merge (some old) new = .ok view) :
    (∃ inherited own : List Property,
      inherited.Sublist old.properties ∧ own.Sublist new.properties ∧
      (∀ w ∈ new.properties, w ∈ own ∨
        w.disabled = true ∧ ∃ p ∈ old.properties, p.name = w.name) ∧
      (∀ q ∈ inherited.map (r.inheritedCopy new.id view.fragments), q.fromBase = true) ∧
      view.properties = inherited.map (r.inheritedCopy new.id view.fragments) ++
        own.map (·.ownedBy new.id)) ∧
    ∀ before p after, old.properties = before ++ p :: after →
      ∃ (d : Draft) (inherited own : List Property),
        r.draftAfter new view.fragments before = .ok d ∧
        inherited.Sublist before ∧ own.Sublist new.properties ∧
        d.LaidOut (inherited.map (r.inheritedCopy new.id view.fragments))
          (own.map (·.ownedBy new.id)) ∧
        r.StepsWithin new.id view.fragments d
          (inherited.map (r.inheritedCopy new.id view.fragments)) (own.map (·.ownedBy new.id)) p := by
  rw [merge_some] at h
  obtain ⟨settled, hsettle, h⟩ := bind_eq_ok_iff.mp h
  obtain ⟨fragments, draft, -, hloop, rfl⟩ := r.bequeath_eq_ok h
  obtain ⟨_, -, -, -, hdistinct, -, rfl⟩ := r.settle_eq_ok_iff.mp hsettle
  have hdraft : r.draftAfter new fragments old.properties = .ok draft := by
    unfold draftAfter
    rw [← hloop, List.length_map]
  refine ⟨?_, fun before p after hsplit => ?_⟩
  · obtain ⟨inherited, hinherited, hlaid⟩ := laidOut_of_draftAfter hdistinct hdraft
    refine ⟨inherited, Handover.kept new.properties old.properties, hinherited,
      Handover.kept_sublist _ _, fun w hw => Handover.mem_kept_or hw, ?_, hlaid.properties⟩
    exact List.forall_mem_map.mpr fun q _ => rfl
  · -- the loop over all properties has come past those before `p`
    rw [hsplit, draftAfter, List.foldlM_append] at hdraft
    obtain ⟨d, hd, -⟩ := bind_eq_ok_iff.mp hdraft
    obtain ⟨inherited, hinherited, hlaid⟩ := laidOut_of_draftAfter hdistinct hd
    exact ⟨d, inherited, Handover.kept new.properties before, hd, hinherited,
      Handover.kept_sublist _ _, hlaid, stepsWithin_of_laidOut hlaid p⟩

end Registry

namespace Model.MadeWay

def text : TypeReference := ⟨"text", .native ⟨"String", .reference⟩⟩

/-- The first property is disabled, and a later one has its name. -/
def old : Entity :=
  { Entity.ofName "Old" "Old" with
    properties := [
      { Property.ofType "n" text with aliasName := "first", disabled := true },
      { Property.ofType "m" text with aliasName := "second" },
      { Property.ofType "n" text with aliasName := "third" }] }

/-- The first property is disabled, and `old` has one of its name. -/
def new : Entity :=
  { Entity.ofName "New" "New" with
    properties := [
      { Property.ofType "m" text with aliasName := "fourth", disabled := true },
      { Property.ofType "o" text with aliasName := "fifth" }] }

def registry : Registry := Model.registry { ofNameSpace none with types := [text] }

/-- A property is taken out of each part, with an old entity that is not the base. -/
theorem merge_layout_madeWay : ∃ view, registry.merge (some old) new = .ok view ∧
    view.properties.map (fun q => (q.name, q.aliasName, q.fromBase)) =
      [("m", "second", true), ("n", "third", true), ("o", "fifth", false)] ∧
    (∃ inherited own : List Property, inherited.Sublist old.properties ∧
      own.Sublist new.properties ∧
      view.properties = inherited.map (registry.inheritedCopy "New" view.fragments) ++
        own.map (·.ownedBy "New")) ∧
    ∃ (d : Draft) (inherited own : List Property),
      registry.draftAfter new view.fragments (old.properties.take 2) = .ok d ∧
      d.LaidOut (inherited.map (registry.inheritedCopy "New" view.fragments))
        (own.map (·.ownedBy "New")) := by
  have hshown : (registry.merge (some old) new).toOption.map (fun view =>
      view.properties.map fun q => (q.name, q.aliasName, q.fromBase)) =
        some [("m", "second", true), ("n", "third", true), ("o", "fifth", false)] := by
    decide +kernel
  obtain ⟨view, hview, hshown⟩ := exists_ok_of_map hshown
  obtain ⟨⟨inherited, own, hinherited, hown, -, -, hparts⟩, hloop⟩ := Registry.merge_layout hview
  obtain ⟨d, inherited', own', hd, -, -, hlaid, -⟩ := hloop (old.properties.take 2) _ _ rfl
  exact ⟨view, hview, hshown, ⟨inherited, own, hinherited, hown, hparts⟩, d, inherited', own', hd,
    hlaid⟩

end Model.MadeWay

end EntityModel
