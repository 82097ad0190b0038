import EntityModel.Proofs.Memoization

/-!
# Shadowed properties

Which properties of a base an entity inherits. An own property shadows by its name, but of several
properties of one name only the first own one is looked at, and only one property of the base is
handed down under a name.
-/

namespace EntityModel

namespace Handover

variable {own old : List Property} {p : Property}

/-- No enabled own property has the name. -/
def AllDisabled (own : List Property) (n : String) : Prop :=
  ∀ w ∈ own, w.name = n → w.disabled = true

instance (own : List Property) (n : String) : Decidable (AllDisabled own n) :=
  inferInstanceAs (Decidable (∀ w ∈ own, w.name = n → w.disabled = true))

lemma leavesFree_of_allDisabled {n : String} (h : AllDisabled own n) : leavesFree own n = true := by
  unfold leavesFree
  cases hfind : own.find? (isNamed n) with
  | none => rfl
  | some w =>
    have hname : w.name = n := by simpa [isNamed, Labelled.label] using List.find?_some hfind
    exact h w (List.mem_of_find?_eq_some hfind) hname

lemma leavesFree_eq_false_iff {n : String} : leavesFree own n = false ↔
    ∃ w, own.find? (·.name == n) = some w ∧ w.disabled = false := by
  change (own.find? (·.name == n)).all isDisabled = false ↔ _
  cases own.find? (·.name == n) with
  | none => simp
  | some w => simp [isDisabled, Labelled.label]

lemma mem_handedDown_iff (hold : (old.map (·.aliasName)).Nodup) (hp : p ∈ old) :
    p ∈ handedDown own old ↔ leavesFree own p.name = true ∧ heir? old p.name = some p := by
  rw [handedDown, List.mem_filter, Bool.and_eq_true]
  have hheir := heir?_any_label (Registry.labels_nodup hold) hp
  constructor
  · rintro ⟨-, hfree, hlabel⟩
    exact ⟨hfree, hheir.mp hlabel⟩
  · rintro ⟨hfree, hsome⟩
    exact ⟨hp, hfree, hheir.mpr hsome⟩

lemma exists_heir? (hp : p ∈ old) : ∃ q, heir? old p.name = some q := by
  rw [← Option.isSome_iff_exists, Option.isSome_iff_ne_none, ne_eq, heir?_eq, heirOf_eq_none]
  exact List.ne_nil_of_mem (List.mem_filter.mpr ⟨hp, by simp [isNamed, Labelled.label]⟩)

lemma not_mem_handedDown_iff (hold : (old.map (·.aliasName)).Nodup) (hp : p ∈ old) :
    (∀ q ∈ handedDown own old, q.name ≠ p.name) ↔ leavesFree own p.name = false := by
  constructor
  · intro h
    by_contra hfree
    obtain ⟨q, hq⟩ := exists_heir? hp
    obtain ⟨hmem, hname⟩ : q ∈ old ∧ q.name = p.name := heir?_mem hq
    refine h q ((mem_handedDown_iff hold hmem).mpr ⟨?_, ?_⟩) hname
    · rw [hname]
      simpa using hfree
    · rw [hname, hq]
  · intro h q hq hname
    have hmem : q ∈ old := (List.mem_filter.mp hq).1
    have hfree := ((mem_handedDown_iff hold hmem).mp hq).1
    rw [hname, h] at hfree
    cases hfree

/-- How many properties are copies of one of the base: of its name and alias, and marked as
inherited. -/
def copiesOf (p : Property) (properties : List Property) : Nat :=
  properties.countP fun q => q.name == p.name && q.aliasName == p.aliasName && q.fromBase

lemma copiesOf_handedDown {copy : Property → Property} (hold : (old.map (·.aliasName)).Nodup)
    (hp : p ∈ old) (hcopy : ∀ q, (copy q).name = q.name ∧ (copy q).aliasName = q.aliasName ∧
      (copy q).fromBase = true) :
    copiesOf p ((handedDown own old).map copy) = 1 ↔ p ∈ handedDown own old := by
  have hsame (q : Property) (hq : q ∈ old) :
      ((copy q).name == p.name && (copy q).aliasName == p.aliasName && (copy q).fromBase) = true ↔
        q = p := by
    rw [(hcopy q).1, (hcopy q).2.1, (hcopy q).2.2, Bool.and_true, Bool.and_eq_true, beq_iff_eq,
      beq_iff_eq]
    constructor
    · rintro ⟨-, halias⟩
      exact List.inj_on_of_nodup_map hold hq hp halias
    · rintro rfl
      exact ⟨rfl, rfl⟩
  have hnodup : (handedDown own old).Nodup := hold.of_map.sublist (handedDown_sublist own old)
  have hcount : (handedDown own old).countP (fun q =>
      (copy q).name == p.name && (copy q).aliasName == p.aliasName && (copy q).fromBase) =
        (handedDown own old).count p := by
    unfold List.count
    refine List.countP_congr fun q hq => ?_
    rw [hsame q ((handedDown_sublist own old).subset hq), beq_iff_eq]
  rw [copiesOf, List.countP_map, Function.comp_def, hcount]
  constructor
  · intro h
    exact List.count_pos_iff.mp (by omega)
  · exact List.count_eq_one_of_mem hnodup

end Handover

namespace Schema

/-- What an entity inherits. Its complete view has the properties that come from the base before the
own ones. Where no enabled own property has the name of `p`, there is exactly one copy of `p` just
when `p` is the heir of its name. Where some enabled own property has the name, nothing comes from
the base under it just when the first own property of the name is enabled. -/
theorem inherited_properties {m : Model} {settings : Settings} {s : Schema}
    (hbuild : m.build settings = .ok s) {e b old view : Entity} (he : e ∈ s.entities)
    (hbase : s.registry.base? e = some b) (hold : s.answer b.id = .ok old)
    (hview : s.answer e.id = .ok view) :
    ∃ inherited own : List Property,
      inherited.Sublist old.properties ∧ own.Sublist e.properties ∧
      view.properties = inherited.map (s.registry.inheritedCopy e.id view.fragments) ++
        own.map (·.ownedBy e.id) ∧
      ∀ p ∈ old.properties,
        (Handover.AllDisabled e.properties p.name →
          (Handover.copiesOf p (inherited.map (s.registry.inheritedCopy e.id view.fragments)) = 1 ↔
            Handover.heir? old.properties p.name = some p)) ∧
        (¬ Handover.AllDisabled e.properties p.name →
          ((∀ q ∈ inherited.map (s.registry.inheritedCopy e.id view.fragments), q.name ≠ p.name) ↔
            ∃ w, e.property? p.name = some w ∧ w.disabled = false)) := by
  have hsound := (Model.build_eq_ok_iff.mp hbuild).2.2
  rw [answer_eq] at hold hview
  have hdistinct := Registry.complete_distinct hold
  refine ⟨Handover.handedDown e.properties old.properties,
    Handover.kept e.properties old.properties, Handover.handedDown_sublist _ _,
    Handover.kept_sublist _ _,
    Registry.complete_properties (hsound.entity?_of_mem he) hbase hold hview, ?_⟩
  intro p hp
  constructor
  · intro hown
    have hcopy (q : Property) :
        (s.registry.inheritedCopy e.id view.fragments q).name = q.name ∧
          (s.registry.inheritedCopy e.id view.fragments q).aliasName = q.aliasName ∧
          (s.registry.inheritedCopy e.id view.fragments q).fromBase = true := ⟨rfl, rfl, rfl⟩
    rw [Handover.copiesOf_handedDown hdistinct hp hcopy,
      Handover.mem_handedDown_iff hdistinct hp, Handover.leavesFree_of_allDisabled hown]
    simp
  · intro _
    rw [List.forall_mem_map]
    exact (Handover.not_mem_handedDown_iff hdistinct hp).trans Handover.leavesFree_eq_false_iff

end Schema

namespace Model

namespace SameNames

def text : TypeReference := ⟨"text", .native ⟨"String", .reference⟩⟩

/-- A property named `n` is there twice. -/
def base : Entity :=
  { Entity.ofName "Base" "Base" with
    properties := [
      { Property.ofType "n" text with aliasName := "first" },
      { Property.ofType "n" text with aliasName := "second" },
      { Property.ofType "m" text with aliasName := "third" }] }

/-- A disabled property named `m` stands before an enabled one. -/
def derived : Entity :=
  { Entity.ofName "Derived" "Derived" with
    base := some "Base"
    properties := [
      { Property.ofType "m" text with aliasName := "fourth", disabled := true },
      { Property.ofType "m" text with aliasName := "fifth" }] }

def model : Model := { ofNameSpace none with types := [text], entities := [base, derived] }

def schema : Schema := Schema.flatten model .default

lemma build_model : model.build .default = .ok schema :=
  build_of_problems (by decide +kernel) (by decide +kernel)

/-- The names, aliases and origins that a complete view shows. -/
def shown (id : String) : Option (List (String × String × Bool)) :=
  (schema.answer id).toOption.map fun view =>
    view.properties.map fun q => (q.name, q.aliasName, q.fromBase)

lemma shown_base : shown "Base" =
    some [("n", "first", false), ("n", "second", false), ("m", "third", false)] := by
  rw [shown, Schema.answer_eq]
  decide +kernel

lemma shown_derived : shown "Derived" =
    some [("n", "first", true), ("m", "third", true), ("m", "fifth", false)] := by
  rw [shown, Schema.answer_eq]
  decide +kernel

lemma exists_answer {id : String} {l : List (String × String × Bool)} (h : shown id = some l) :
    ∃ view, schema.answer id = .ok view ∧
      view.properties.map (fun q => (q.name, q.aliasName, q.fromBase)) = l :=
  exists_ok_of_map h

lemma base?_derived : schema.registry.base? derived = some base := rfl

lemma properties_base : (schema.answer "Base").toOption.map (·.properties) =
    some (base.properties.map (·.ownedBy "Base")) := by
  rw [Schema.answer_eq]
  decide +kernel

/-- Of the two properties named `n` the first is inherited and the second is not. Something comes from
the base under the name `m` although an enabled own property has it. -/
theorem inherited_properties_derived :
    ∃ old view, schema.answer "Base" = .ok old ∧ schema.answer "Derived" = .ok view ∧
      view.properties.map (fun q => (q.name, q.aliasName, q.fromBase)) =
        [("n", "first", true), ("m", "third", true), ("m", "fifth", false)] ∧
      ∃ inherited own : List Property, inherited.Sublist old.properties ∧
        own.Sublist derived.properties ∧
        view.properties = inherited.map (schema.registry.inheritedCopy "Derived" view.fragments) ++
          own.map (·.ownedBy "Derived") ∧
        (∃ first ∈ old.properties, (first.name, first.aliasName) = ("n", "first") ∧
          Handover.copiesOf first
            (inherited.map (schema.registry.inheritedCopy "Derived" view.fragments)) = 1) ∧
        (∃ second ∈ old.properties, (second.name, second.aliasName) = ("n", "second") ∧
          Handover.copiesOf second
            (inherited.map (schema.registry.inheritedCopy "Derived" view.fragments)) ≠ 1) ∧
        ∃ q ∈ inherited.map (schema.registry.inheritedCopy "Derived" view.fragments),
          q.name = "m" := by
  obtain ⟨old, hold, hshown⟩ := exists_ok_of_map properties_base
  obtain ⟨view, hview, hlabels⟩ := exists_answer shown_derived
  obtain ⟨inherited, own, hinherited, hown, hproperties, hdecided⟩ := Schema.inherited_properties
    build_model (List.mem_cons_of_mem _ List.mem_cons_self) base?_derived hold hview
  refine ⟨old, view, hold, hview, hlabels, inherited, own, hinherited, hown, hproperties, ?_⟩
  rw [hshown] at hdecided ⊢
  refine ⟨⟨_, List.mem_cons_self, rfl, ?_⟩,
    ⟨_, List.mem_cons_of_mem _ List.mem_cons_self, rfl, ?_⟩, ?_⟩
  · exact ((hdecided _ List.mem_cons_self).1 (by decide)).mpr (by decide)
  · have hsecond := (hdecided _ (List.mem_cons_of_mem _ List.mem_cons_self)).1 (by decide)
    exact mt hsecond.mp (by decide)
  · have hthird := (hdecided _ (List.mem_cons_of_mem _ (List.mem_cons_of_mem _
      List.mem_cons_self))).2 (by decide)
    have hdisabled : ¬ ∃ w, derived.property? "m" = some w ∧ w.disabled = false := by
      rintro ⟨w, hw, henabled⟩
      cases hw
      cases henabled
    have hsome := mt hthird.mp hdisabled
    push Not at hsome
    exact hsome

end SameNames

end Model

namespace Schema

/-- Inheritance by name alone: what no enabled own property shadows is inherited, and what one
shadows is not. -/
def InheritsByName (s : Schema) : Prop :=
  ∀ e ∈ s.entities, ∀ b old view, s.registry.base? e = some b → s.answer b.id = .ok old →
    s.answer e.id = .ok view → ∀ p ∈ old.properties,
      (Handover.AllDisabled e.properties p.name → Handover.copiesOf p view.properties = 1) ∧
      (¬ Handover.AllDisabled e.properties p.name →
        ∀ q ∈ view.properties, q.name = p.name → q.fromBase = false)

end Schema

namespace Model

/-- Names alone do not decide: of two properties with one name the second is not inherited. -/
theorem build_not_inheritsByName :
    ¬ ∀ (m : Model) (settings : Settings) (s : Schema), m.build settings = .ok s →
      s.InheritsByName := by
  intro h
  obtain ⟨old, hold, hbase⟩ := SameNames.exists_answer SameNames.shown_base
  obtain ⟨view, hview, hderived⟩ := SameNames.exists_answer SameNames.shown_derived
  have hsecond : ("n", "second", false) ∈
      old.properties.map (fun q => (q.name, q.aliasName, q.fromBase)) := by
    rw [hbase]
    decide
  obtain ⟨p, hp, hlabel⟩ := List.mem_map.mp hsecond
  obtain ⟨hname, halias, -⟩ : p.name = "n" ∧ p.aliasName = "second" ∧ p.fromBase = false := by
    simpa using hlabel
  obtain ⟨hfree, -⟩ := h _ _ _ SameNames.build_model SameNames.derived
    (List.mem_cons_of_mem _ List.mem_cons_self) _ old view SameNames.base?_derived hold hview p hp
  have hnone : Handover.AllDisabled SameNames.derived.properties p.name := by
    rw [hname]
    decide
  have hcopies : Handover.copiesOf p view.properties =
      (view.properties.map fun q => (q.name, q.aliasName, q.fromBase)).countP
        fun q => q.1 == p.name && q.2.1 == p.aliasName && q.2.2 := by
    rw [List.countP_map]
    rfl
  rw [hderived, hname, halias] at hcopies
  exact absurd (hcopies.symm.trans (hfree hnone)) (by decide)

end Model

end EntityModel
