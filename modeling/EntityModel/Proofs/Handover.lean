import EntityModel.Property
import Mathlib.Data.List.Induction
import Mathlib.Data.List.Nodup

/-!
# Handing properties down

When an entity is merged with its base, the properties of the base are taken in one by one beside
the own ones. What becomes of them is decided by labels alone: the name, the alias, and whether the
property is disabled. This file states the loop on labels and proves its closed form: under each name
that the own properties leave free, exactly one property of the base is handed down.
-/

namespace EntityModel

/-- What decides whether a property is inherited. -/
structure Label where
  name : String
  aliasName : String
  disabled : Bool
  deriving DecidableEq

class Labelled (α : Type) where
  label : α → Label

open Labelled (label)

instance : Labelled Label := ⟨id⟩

instance : Labelled Property := ⟨fun p => ⟨p.name, p.aliasName, p.disabled⟩⟩

/-- The properties taken in so far, and the own ones that are still there. -/
structure Handover (α β : Type) where
  handed : List α
  own : List β

namespace Handover

variable {α β γ : Type} [Labelled α] [Labelled β] [Labelled γ]

def isNamed (n : String) (a : α) : Bool := (label a).name == n

def isDisabled (a : α) : Bool := (label a).disabled

/-- The first of the properties under a name does not stand in the way of another one. -/
def leavesFree (l : List α) (n : String) : Bool := (l.find? (isNamed n)).all isDisabled

/-- The one property of the base that is handed down under a name: the first that is enabled, or the
last one when none is. -/
def heir? (old : List α) (n : String) : Option α :=
  ((old.filter (isNamed n)).find? (! isDisabled ·)).or (old.filter (isNamed n)).getLast?

def isFree (d : Handover α β) (n : String) : Bool :=
  match d.handed.find? (isNamed n) with
  | some q => isDisabled q
  | none => leavesFree d.own n

/-- Takes the first property under a name out. -/
def vacate (d : Handover α β) (n : String) : Handover α β where
  handed := d.handed.eraseP (isNamed n)
  own := if d.handed.any (isNamed n) then d.own else d.own.eraseP (isNamed n)

def take (d : Handover α β) (p : α) : Handover α β :=
  let n := (label p).name
  if d.isFree n then ⟨(d.vacate n).handed ++ [p], (d.vacate n).own⟩ else d

/-- The loop over the properties of the base. -/
def takeAll (own : List β) (old : List α) : Handover α β := old.foldl take ⟨[], own⟩

/-- The properties of the base that are inherited. -/
def handedDown (own : List β) (old : List α) : List α :=
  old.filter fun p => leavesFree own (label p).name &&
    (heir? old (label p).name).any (label · == label p)

/-- The own properties that stay. One that is disabled and first of its name makes way when the base
has a property of that name. -/
def kept (own : List β) (old : List α) : List β :=
  own.filter fun w => !(isDisabled w && old.any (isNamed (label w).name) &&
    (own.find? (isNamed (label w).name)).any (label · == label w))

lemma handedDown_sublist (own : List β) (old : List α) : (handedDown own old).Sublist old :=
  List.filter_sublist

lemma kept_sublist (own : List β) (old : List α) : (kept own old).Sublist own :=
  List.filter_sublist

@[simp] theorem takeAll_nil (own : List β) : takeAll own ([] : List α) = ⟨[], own⟩ := rfl

@[simp] theorem takeAll_concat (own : List β) (old : List α) (p : α) :
    takeAll own (old ++ [p]) = (takeAll own old).take p := by
  simp [takeAll]

lemma take_of_free {d : Handover α β} {p : α} (h : d.isFree (label p).name = true) :
    d.take p = ⟨(d.vacate (label p).name).handed ++ [p], (d.vacate (label p).name).own⟩ :=
  if_pos h

lemma take_of_not_free {d : Handover α β} {p : α} (h : ¬ d.isFree (label p).name = true) :
    d.take p = d :=
  if_neg h

/-! ### One name at a time -/

lemma isNamed_of_ne {m n : String} (hne : m ≠ n) {a : α} (h : isNamed m a = true) :
    isNamed n a = false := by
  simp only [isNamed, beq_iff_eq] at h
  simp [isNamed, h, hne]

lemma filter_eraseP_ne {m n : String} (hne : m ≠ n) (l : List α) :
    (l.eraseP (isNamed m)).filter (isNamed n) = l.filter (isNamed n) := by
  induction l with
  | nil => rfl
  | cons a l ih =>
    by_cases h : isNamed m a = true
    · simp [h, isNamed_of_ne hne h]
    · simp [h, List.filter_cons, ih]

lemma filter_eraseP_self (n : String) (l : List α) :
    (l.eraseP (isNamed n)).filter (isNamed n) = (l.filter (isNamed n)).tail := by
  induction l with
  | nil => rfl
  | cons a l ih =>
    by_cases h : isNamed n a = true
    · simp [h]
    · simp [h, ih]

lemma isEmpty_filter_isNamed (n : String) (l : List α) :
    (l.filter (isNamed n)).isEmpty = !l.any (isNamed n) := by
  induction l with
  | nil => rfl
  | cons a l ih => by_cases h : isNamed n a = true <;> simp_all

def heirOf (named : List α) : Option α := (named.find? (! isDisabled ·)).or named.getLast?

lemma heir?_eq (old : List α) (n : String) : heir? old n = heirOf (old.filter (isNamed n)) := rfl

/-- A later property takes the place of a disabled heir. -/
lemma heirOf_concat (named : List α) (p : α) :
    heirOf (named ++ [p]) = some (((heirOf named).filter (! isDisabled ·)).getD p) := by
  unfold heirOf
  cases hfind : named.find? (! isDisabled ·) with
  | some h =>
    have henabled := List.find?_some hfind
    simp [List.find?_append, hfind, Option.filter, henabled]
  | none =>
    have hlast : (named.getLast?).filter (! isDisabled ·) = none := by
      rw [Option.filter_eq_none_iff]
      intro a ha
      exact List.find?_eq_none.mp hfind a (List.mem_of_getLast? ha)
    by_cases h : isDisabled p = true <;> simp [List.find?_append, hfind, hlast, h]

/-- What a handover holds under one name. -/
def under (d : Handover α β) (n : String) : List α × List β :=
  (d.handed.filter (isNamed n), d.own.filter (isNamed n))

/-- The effect of `take` on the properties of its name. -/
def takeUnder (p : α) : List α × List β → List α × List β
  | (q :: handed, own) => if isDisabled q then (handed ++ [p], own) else (q :: handed, own)
  | ([], w :: own) => if isDisabled w then ([p], own) else ([], w :: own)
  | ([], []) => ([p], [])

lemma isFree_eq_under (d : Handover α β) (n : String) :
    d.isFree n = ((d.under n).1.head?.map isDisabled).getD ((d.under n).2.head?.all isDisabled) := by
  unfold isFree leavesFree under
  rw [← List.head?_filter, ← List.head?_filter]
  cases (d.handed.filter (isNamed n)).head? <;> rfl

lemma under_vacate (d : Handover α β) (n : String) :
    (d.vacate n).under n =
      ((d.under n).1.tail, if (d.under n).1.isEmpty then (d.under n).2.tail else (d.under n).2) := by
  unfold vacate under
  rw [filter_eraseP_self, isEmpty_filter_isNamed]
  cases h : d.handed.any (isNamed n) <;> simp [filter_eraseP_self]

lemma under_take_ne (d : Handover α β) {p : α} {n : String} (hne : (label p).name ≠ n) :
    (d.take p).under n = d.under n := by
  have hp : isNamed n p = false := isNamed_of_ne hne (by simp [isNamed])
  unfold take
  dsimp only
  split
  · simp only [under, vacate, List.filter_append, filter_eraseP_ne hne, Prod.mk.injEq]
    refine ⟨by simp [hp], ?_⟩
    split
    · rfl
    · exact filter_eraseP_ne hne _
  · rfl

lemma under_take (d : Handover α β) (p : α) :
    (d.take p).under (label p).name = takeUnder p (d.under (label p).name) := by
  have hp : isNamed (label p).name p = true := by simp [isNamed]
  have hconcat (e : Handover α β) : Handover.under ⟨e.handed ++ [p], e.own⟩ (label p).name =
      ((e.under (label p).name).1 ++ [p], (e.under (label p).name).2) := by
    simp [under, hp]
  unfold take
  dsimp only
  rw [isFree_eq_under, apply_ite (Handover.under · (label p).name), hconcat, under_vacate]
  rcases d.under (label p).name with ⟨_ | ⟨q, handed⟩, own⟩
  · cases own <;> simp [takeUnder]
  · simp [takeUnder]

/-- What is left under one name, where the own properties and those of the base are given by name. -/
def settledUnder (own : List β) (old : List α) : List α × List β :=
  if own.head?.all isDisabled then ((heirOf old).toList, if old.isEmpty then own else own.tail)
  else ([], own)

lemma settledUnder_concat (own : List β) (old : List α) (p : α) :
    settledUnder own (old ++ [p]) = takeUnder p (settledUnder own old) := by
  unfold settledUnder
  cases own with
  | nil =>
    cases h : heirOf old with
    | none => simp [takeUnder, heirOf_concat, h]
    | some q => cases hq : isDisabled q <;> simp [takeUnder, heirOf_concat, h, hq, Option.filter]
  | cons w own =>
    cases hw : isDisabled w with
    | false => simp [takeUnder, hw]
    | true =>
      cases old with
      | nil => cases hp : isDisabled p <;> simp [takeUnder, hw, heirOf, hp]
      | cons a old =>
        obtain ⟨q, hq⟩ : ∃ q, heirOf (a :: old) = some q :=
          Option.isSome_iff_exists.mp (by simp [heirOf])
        simp only [List.head?_cons, Option.all_some, hw, if_true, heirOf_concat, hq]
        cases hd : isDisabled q <;> simp [takeUnder, hd, Option.filter]

theorem under_takeAll (own : List β) (old : List α) (n : String) :
    (takeAll own old).under n =
      settledUnder (own.filter (isNamed n)) (old.filter (isNamed n)) := by
  induction old using List.reverseRecOn with
  | nil =>
    unfold settledUnder
    split <;> simp [under, heirOf]
  | append_singleton old p ih =>
    rw [takeAll_concat, List.filter_append]
    by_cases hn : (label p).name = n
    · subst hn
      have hp : isNamed (label p).name p = true := by simp [isNamed]
      rw [under_take, ih, ← settledUnder_concat]
      simp [hp]
    · rw [under_take_ne _ hn, ih]
      simp [isNamed_of_ne hn (a := p) (by simp [isNamed])]

/-! ### The closed form -/

lemma take_handed_sublist (d : Handover α β) (p : α) :
    (d.take p).handed.Sublist (d.handed ++ [p]) := by
  unfold take
  dsimp only
  split
  · exact List.eraseP_sublist.append_right _
  · exact List.sublist_append_left _ _

lemma take_own_sublist (d : Handover α β) (p : α) : (d.take p).own.Sublist d.own := by
  unfold take vacate
  dsimp only
  split
  · split
    · exact List.Sublist.refl _
    · exact List.eraseP_sublist
  · exact List.Sublist.refl _

theorem takeAll_handed_sublist (own : List β) (old : List α) :
    (takeAll own old).handed.Sublist old := by
  induction old using List.reverseRecOn with
  | nil => exact List.Sublist.refl _
  | append_singleton old p ih =>
    rw [takeAll_concat]
    exact (take_handed_sublist _ p).trans (ih.append_right _)

theorem takeAll_own_sublist (own : List β) (old : List α) :
    (takeAll own old).own.Sublist own := by
  induction old using List.reverseRecOn with
  | nil => exact List.Sublist.refl _
  | append_singleton old p ih =>
    rw [takeAll_concat]
    exact (take_own_sublist _ p).trans ih

lemma label_inj {l : List α} (hl : (l.map label).Nodup) {a b : α} (ha : a ∈ l) (hb : b ∈ l)
    (h : label a = label b) : a = b :=
  List.inj_on_of_nodup_map hl ha hb h

omit [Labelled α] in
lemma sublist_eq_filter {s l : List α} (hs : s.Sublist l) (hl : l.Nodup) {q : α → Bool}
    (hq : ∀ a ∈ l, a ∈ s ↔ q a = true) : s = l.filter q := by
  induction hs with
  | slnil => rfl
  | @cons s l a hs ih =>
    obtain ⟨ha, hl⟩ := List.nodup_cons.mp hl
    have hqa : q a = false := by
      by_contra h
      exact ha (hs.subset ((hq a List.mem_cons_self).mpr (by simpa using h)))
    rw [List.filter_cons_of_neg (by simp [hqa])]
    exact ih hl fun b hb => hq b (List.mem_cons_of_mem _ hb)
  | @cons_cons s l a hs ih =>
    obtain ⟨ha, hl⟩ := List.nodup_cons.mp hl
    rw [List.filter_cons_of_pos ((hq a List.mem_cons_self).mp List.mem_cons_self)]
    congr 1
    refine ih hl fun b hb => ?_
    rw [← hq b (List.mem_cons_of_mem _ hb), List.mem_cons]
    exact ⟨.inr, fun h => h.resolve_left fun he => ha (he ▸ hb)⟩

lemma heir?_mem {old : List α} {n : String} {p : α} (h : heir? old n = some p) :
    p ∈ old ∧ (label p).name = n := by
  have hp : p ∈ old.filter (isNamed n) := by
    rw [heir?_eq, heirOf, Option.or_eq_some_iff] at h
    rcases h with h | ⟨-, h⟩
    · exact List.mem_of_find?_eq_some h
    · exact List.mem_of_getLast? h
  obtain ⟨hmem, hname⟩ := List.mem_filter.mp hp
  exact ⟨hmem, by simpa [isNamed] using hname⟩

lemma heir?_any_label {old : List α} (hold : (old.map label).Nodup) {p : α} (hp : p ∈ old) :
    (heir? old (label p).name).any (label · == label p) = true ↔
      heir? old (label p).name = some p := by
  rw [Option.any_eq_true]
  constructor
  · rintro ⟨q, hq, hl⟩
    have he := label_inj hold (heir?_mem hq).1 hp (by simpa using hl)
    rw [hq, he]
  · intro h
    exact ⟨p, h, by simp⟩

lemma mem_under {d : Handover α β} {p : α} :
    p ∈ d.handed ↔ p ∈ (d.under (label p).name).1 := by
  simp [under, isNamed]

theorem takeAll_handed {own : List β} {old : List α} (hold : (old.map label).Nodup) :
    (takeAll own old).handed = handedDown own old := by
  refine sublist_eq_filter (takeAll_handed_sublist own old) hold.of_map fun p hp => ?_
  rw [mem_under, under_takeAll, Bool.and_eq_true, heir?_any_label hold hp, heir?_eq]
  unfold settledUnder leavesFree
  rw [List.head?_filter]
  split <;> simp_all

lemma mem_under_own {d : Handover α β} {w : β} :
    w ∈ d.own ↔ w ∈ (d.under (label w).name).2 := by
  simp [under, isNamed]

lemma mem_tail_filter_isNamed {own : List β} (hown : (own.map label).Nodup) {w : β}
    (hw : w ∈ own) : w ∈ (own.filter (isNamed (label w).name)).tail ↔
      (own.find? (isNamed (label w).name)).any (label · == label w) = false := by
  have hmem : w ∈ own.filter (isNamed (label w).name) := by simp [hw, isNamed]
  have hnodup := hown.of_map.filter (isNamed (label w).name)
  rw [← List.head?_filter]
  cases hl : own.filter (isNamed (label w).name) with
  | nil => simp [hl] at hmem
  | cons v rest =>
    have hv : v ∈ own := (List.mem_filter.mp (hl ▸ List.mem_cons_self)).1
    rw [hl] at hmem hnodup
    obtain ⟨hvrest, -⟩ := List.nodup_cons.mp hnodup
    simp only [List.tail_cons, List.head?_cons, Option.any_some, beq_eq_false_iff_ne]
    constructor
    · rintro hrest he
      exact hvrest (label_inj hown hv hw he ▸ hrest)
    · intro hne
      exact (List.mem_cons.mp hmem).resolve_left fun he => hne (he ▸ rfl)

theorem takeAll_own {own : List β} {old : List α} (hown : (own.map label).Nodup) :
    (takeAll own old).own = kept own old := by
  refine sublist_eq_filter (takeAll_own_sublist own old) hown.of_map fun w hw => ?_
  rw [mem_under_own, under_takeAll]
  have hmem : w ∈ own.filter (isNamed (label w).name) := by simp [hw, isNamed]
  have htail := mem_tail_filter_isNamed hown hw
  unfold settledUnder
  rw [List.head?_filter, isEmpty_filter_isNamed]
  cases hany : (own.find? (isNamed (label w).name)).any (label · == label w) with
  | false =>
    rw [hany] at htail
    simp only [Bool.and_false, Bool.not_false, iff_true]
    split
    · split <;> simp_all
    · exact hmem
  | true =>
    -- the first own property of the name is `w` itself
    obtain ⟨v, hv, hl⟩ := (Option.any_eq_true _ _).mp hany
    have hdisabled : isDisabled v = isDisabled w := by
      rw [isDisabled, isDisabled, beq_iff_eq.mp hl]
    rw [hany] at htail
    simp only [hv, Option.all_some, hdisabled, Bool.and_true]
    cases isDisabled w <;> cases old.any (isNamed (label w).name) <;> simp_all

/-! ### Aliases that meet -/

/-- Whether a property is taken in, where `before` are those that come before it. -/
def arrives (own : List β) (before : List α) (p : α) : Bool :=
  leavesFree own (label p).name &&
    before.all fun q => !isNamed (label p).name q || isDisabled q

/-- Whether a property is taken in while an own one of its alias is there. -/
def collides (own : List β) (before : List α) (p : α) : Bool :=
  arrives own before p &&
    (kept own (before ++ [p])).any fun w => (label w).aliasName == (label p).aliasName

def collision? (own : List β) (before : List α) : List α → Option α
  | [] => none
  | p :: rest => if collides own before p then some p else collision? own (before ++ [p]) rest

lemma heirOf_all_isDisabled (named : List α) :
    (heirOf named).all isDisabled = named.all isDisabled := by
  unfold heirOf
  cases hfind : named.find? (! isDisabled ·) with
  | some h =>
    have henabled : isDisabled h = false := by simpa using List.find?_some hfind
    have hall : named.all isDisabled = false :=
      List.all_eq_false.mpr ⟨h, List.mem_of_find?_eq_some hfind, by simp [henabled]⟩
    simp [henabled, hall]
  | none =>
    have hall : ∀ a ∈ named, isDisabled a = true := fun a ha => by
      simpa using List.find?_eq_none.mp hfind a ha
    rw [List.all_eq_true.mpr hall, Option.none_or]
    cases hlast : named.getLast? with
    | none => rfl
    | some a => exact hall a (List.mem_of_getLast? hlast)

lemma heirOf_eq_none {named : List α} : heirOf named = none ↔ named = [] := by
  unfold heirOf
  rw [Option.or_eq_none_iff, List.getLast?_eq_none_iff]
  exact ⟨And.right, fun h => ⟨h ▸ rfl, h⟩⟩

theorem isFree_takeAll (own : List β) (before : List α) (p : α) :
    (takeAll own before).isFree (label p).name = arrives own before p := by
  have hall : (before.all fun q => !isNamed (label p).name q || isDisabled q) =
      (before.filter (isNamed (label p).name)).all isDisabled := by
    simp [List.all_filter]
  rw [isFree_eq_under, under_takeAll, arrives, hall, leavesFree, ← List.head?_filter,
    ← heirOf_all_isDisabled]
  unfold settledUnder
  by_cases hfree : ((own.filter (isNamed (label p).name)).head?).all isDisabled = true
  · rw [if_pos hfree, hfree, Bool.true_and]
    cases hheir : heirOf (before.filter (isNamed (label p).name)) with
    | none => simpa [heirOf_eq_none.mp hheir] using hfree
    | some q => simp
  · have hshadowed := Bool.not_eq_true _ ▸ hfree
    rw [if_neg hfree, hshadowed, Bool.false_and]
    rfl

/-! ### Only labels count -/

section Map

variable (f : α → γ) (hf : ∀ a, label (f a) = label a)

include hf

lemma isNamed_comp (n : String) : isNamed n ∘ f = isNamed (α := α) n := by
  funext a
  simp [isNamed, hf]

lemma isDisabled_comp : isDisabled ∘ f = isDisabled (α := α) := by
  funext a
  simp [isDisabled, hf]

lemma isDisabled_apply (a : α) : isDisabled (f a) = isDisabled a :=
  congrFun (isDisabled_comp f hf) a

lemma leavesFree_map (l : List α) (n : String) : leavesFree (l.map f) n = leavesFree l n := by
  unfold leavesFree
  rw [List.find?_map, isNamed_comp f hf]
  cases l.find? (isNamed n) with
  | none => rfl
  | some a => exact isDisabled_apply f hf a

lemma heir?_map (old : List α) (n : String) : heir? (old.map f) n = (heir? old n).map f := by
  have henabled : (fun a => !isDisabled a) ∘ f = fun a : α => !isDisabled a := by
    funext a
    rw [Function.comp_apply, isDisabled_apply f hf]
  unfold heir?
  rw [List.filter_map, isNamed_comp f hf, List.find?_map, henabled, List.getLast?_map,
    Option.map_or]

lemma handedDown_map (own : List β) (old : List α) :
    handedDown own (old.map f) = (handedDown own old).map f := by
  simp [handedDown, List.filter_map, Function.comp_def, hf, heir?_map f hf,
    Option.any_map]

lemma handedDown_map_own (own : List α) (old : List β) :
    handedDown (own.map f) old = handedDown own old := by
  simp [handedDown, leavesFree_map f hf]

lemma kept_map (own : List β) (old : List α) : kept own (old.map f) = kept own old := by
  simp [kept, List.any_map, isNamed_comp f hf]

lemma kept_map_own (own : List α) (old : List β) :
    kept (own.map f) old = (kept own old).map f := by
  have hfirst (n : String) (l : Label) : ((own.map f).find? (isNamed n)).any (label · == l) =
      (own.find? (isNamed n)).any (label · == l) := by
    rw [List.find?_map, isNamed_comp f hf]
    cases own.find? (isNamed n) with
    | none => rfl
    | some a => rw [Option.map_some, Option.any_some, Option.any_some, hf]
  unfold kept
  rw [List.filter_map]
  simp only [Function.comp_def, hfirst, isDisabled_apply f hf, hf]

lemma collides_map (own : List β) (before : List α) (p : α) :
    collides own (before.map f) (f p) = collides own before p := by
  have hconcat : before.map f ++ [f p] = (before ++ [p]).map f := by simp
  unfold collides arrives
  rw [hconcat, kept_map f hf, List.all_map]
  simp [Function.comp_def, isNamed, isDisabled, hf]

lemma collision?_map (own : List β) (before rest : List α) :
    collision? own (before.map f) (rest.map f) = (collision? own before rest).map f := by
  induction rest generalizing before with
  | nil => rfl
  | cons p rest ih =>
    have hconcat : before.map f ++ [f p] = (before ++ [p]).map f := by simp
    simp only [List.map_cons, collision?, collides_map f hf, hconcat, ih]
    split <;> rfl

lemma collision?_map_own (own : List α) (before rest : List β) :
    collision? (own.map f) before rest = collision? own before rest := by
  induction rest generalizing before with
  | nil => rfl
  | cons p rest ih =>
    have hcollides : collides (own.map f) before p = collides own before p := by
      simp [collides, arrives, leavesFree_map f hf, kept_map_own f hf, List.any_map,
        Function.comp_def, hf]
    simp only [collision?, hcollides, ih]

end Map

end Handover

end EntityModel
