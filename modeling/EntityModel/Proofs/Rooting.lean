import EntityModel.Proofs.Collision
import EntityModel.Proofs.Growth
import Mathlib.Order.WellFoundedSet

/-!
# Rooted fragments

A secondary fragment is joined to its anchor, which may be secondary itself. A fragment is rooted when
following anchors from it comes to a primary one. Where every anchor is attached, all fragments are
rooted unless anchors lead in a circle. All effective fragments of a registry are rooted once those are
that an entity attaches itself. They stay so in a registry that knows the same entities, where an entity
may attach a fragment that was not attached to it, with an anchor that was.
-/

namespace EntityModel

variable {own inherited attached attached' : List FragmentRef} {fragment : String} {ref : FragmentRef}

/-- The reference by which a fragment is attached. -/
def refTo? (attached : List FragmentRef) (fragment : String) : Option FragmentRef :=
  attached.find? (·.fragment == fragment)

/-- Following anchors from a fragment comes to a primary one. -/
inductive RootedIn (attached : List FragmentRef) : String → Prop where
  | primary {fragment : String} {ref : FragmentRef} (hfound : refTo? attached fragment = some ref)
      (hprimary : ref.anchor = none) : RootedIn attached fragment
  | secondary {fragment anchor : String} {ref : FragmentRef}
      (hfound : refTo? attached fragment = some ref) (hanchor : ref.anchor = some anchor)
      (hrooted : RootedIn attached anchor) : RootedIn attached fragment

lemma mem_of_refTo? (h : refTo? attached fragment = some ref) :
    ref ∈ attached ∧ ref.fragment = fragment :=
  ⟨List.mem_of_find?_eq_some h, by simpa using List.find?_some h⟩

/-- From a fragment to the one it is joined to. -/
def AnchorLink (attached : List FragmentRef) (fragment anchor : String) : Prop :=
  ∃ ref, refTo? attached fragment = some ref ∧ ref.anchor = some anchor

/-- Following anchors never comes back to where it started. -/
def CircleFree (attached : List FragmentRef) : Prop :=
  ∀ fragment, ¬ Relation.TransGen (AnchorLink attached) fragment fragment

lemma exists_refTo?_iff :
    (∃ ref, refTo? attached fragment = some ref) ↔ ∃ ref ∈ attached, ref.fragment = fragment := by
  rw [← Option.isSome_iff_exists]
  simp [refTo?]

lemma refTo?_append (l l' : List FragmentRef) (fragment : String) :
    refTo? (l ++ l') fragment = (refTo? l fragment).or (refTo? l' fragment) :=
  List.find?_append

lemma RootedIn.mono (h : RootedIn attached fragment)
    (hkept : ∀ f, ∀ ref ∈ refTo? attached f, refTo? attached' f = some ref) :
    RootedIn attached' fragment := by
  induction h with
  | primary hfound hprimary => exact .primary (hkept _ _ hfound) hprimary
  | secondary hfound hanchor hrooted ih => exact .secondary (hkept _ _ hfound) hanchor ih

/-- Fragments before others leave those rooted, when they are rooted themselves. -/
lemma RootedIn.overlaid (h : RootedIn inherited fragment)
    (hrefs : ∀ f, refTo? attached f = (refTo? own f).or (refTo? inherited f))
    (hown : ∀ ref ∈ own, RootedIn attached ref.fragment) : RootedIn attached fragment := by
  have hcases (f : String) : RootedIn attached f ∨ refTo? attached f = refTo? inherited f := by
    rw [hrefs f]
    cases hfound : refTo? own f with
    | none => exact .inr Option.none_or
    | some ref =>
      obtain ⟨href, rfl⟩ := mem_of_refTo? hfound
      exact .inl (hown ref href)
  induction h with
  | @primary f ref hfound hprimary =>
    exact (hcases f).elim id fun hsame => .primary (hsame.trans hfound) hprimary
  | @secondary f anchor ref hfound hanchor hrooted ih =>
    exact (hcases f).elim id fun hsame => .secondary (hsame.trans hfound) hanchor ih

/-! ### Circles of anchors -/

lemma RootedIn.not_circle (h : RootedIn attached fragment) :
    ¬ Relation.TransGen (AnchorLink attached) fragment fragment := by
  intro hcircle
  induction h with
  | primary hfound hprimary =>
    obtain ⟨next, ⟨ref, hfound', hanchor⟩, hback⟩ := Relation.TransGen.head'_iff.mp hcircle
    cases hfound.symm.trans hfound'
    cases hprimary.symm.trans hanchor
  | secondary hfound hanchor hrooted ih =>
    -- There is one link only, and the circle can be entered at its other end as well.
    obtain ⟨next, ⟨ref, hfound', hanchor'⟩, hback⟩ := Relation.TransGen.head'_iff.mp hcircle
    cases hfound.symm.trans hfound'
    cases hanchor.symm.trans hanchor'
    exact ih (.tail' hback ⟨_, hfound, hanchor⟩)

/-- Only finitely many fragments are attached. When the anchors are among them, following anchors must
end, and it can only end at a primary one. -/
lemma CircleFree.rootedIn (h : CircleFree attached)
    (hanchors : ∀ ref ∈ attached, ∀ anchor ∈ ref.anchor, isAttached attached anchor = true)
    (href : ref ∈ attached) : RootedIn attached ref.fragment := by
  let leads (anchor fragment : String) := Relation.TransGen (AnchorLink attached) fragment anchor
  have : Std.Irrefl leads := ⟨h⟩
  have : IsTrans String leads := ⟨fun _ _ _ hlast hfirst => hfirst.trans hlast⟩
  have : IsStrictOrder String leads := {}
  have hends : Set.WellFoundedOn {fragment | fragment ∈ attached.map (·.fragment)} leads :=
    (List.finite_toSet _).wellFoundedOn
  refine hends.induction (List.mem_map_of_mem href) fun fragment hmem ih => ?_
  obtain ⟨found, hfound⟩ := exists_refTo?_iff.mpr (List.mem_map.mp hmem)
  cases hanchor : found.anchor with
  | none => exact .primary hfound hanchor
  | some anchor =>
    have hattached := hanchors found (mem_of_refTo? hfound).1 anchor hanchor
    have hlink : AnchorLink attached fragment anchor := ⟨found, hfound, hanchor⟩
    exact .secondary hfound hanchor
      (ih anchor (Registry.isAttached_iff_mem.mp hattached) (.single hlink))

lemma rootedIn_iff_circleFree
    (hanchors : ∀ ref ∈ attached, ∀ anchor ∈ ref.anchor, isAttached attached anchor = true) :
    (∀ ref ∈ attached, RootedIn attached ref.fragment) ↔ CircleFree attached := by
  refine ⟨fun h fragment hcircle => ?_, fun h ref href => h.rootedIn hanchors href⟩
  obtain ⟨next, ⟨ref, hfound, hanchor⟩, hback⟩ := Relation.TransGen.head'_iff.mp hcircle
  obtain ⟨href, rfl⟩ := mem_of_refTo? hfound
  exact (h ref href).not_circle hcircle

namespace Registry

variable {r r' : Registry} {e e' b x : Entity} {chain chain' rest : List Entity} {steps : Nat}

/-! ### Gathered fragments, looked up -/

lemma refTo?_gatherFragments (chain : List Entity) (fragment : String) :
    refTo? (gatherFragments [] chain) fragment =
      refTo? ((tableLevels chain).flatMap (·.fragments)) fragment := by
  rw [gatherFragments_eq, List.nil_append]
  exact find?_firsts List.not_mem_nil

/-- A fragment is attached as the first entity attaches it, and else as it is inherited. -/
lemma refTo?_gatherFragments_cons (e : Entity) (chain : List Entity) (fragment : String) :
    refTo? (gatherFragments [] (e :: chain)) fragment = (refTo? e.fragments fragment).or
      (if e.inheritsBaseTables then refTo? (gatherFragments [] chain) fragment else none) := by
  rw [refTo?_gatherFragments, tableLevels_cons, List.flatMap_cons, refTo?_append]
  split
  · rw [refTo?_gatherFragments]
  · rfl

lemma effectiveFragments_congr (hentity : r.entity? = r'.entity?) :
    r.effectiveFragments = r'.effectiveFragments := by
  funext e
  unfold effectiveFragments
  rw [lineage_congr fun _ x _ => congrFun (base?_congr hentity) x]

/-! ### Rooted registries -/

/-- Every effective fragment of every entity is rooted. -/
def Rooted (r : Registry) : Prop :=
  ∀ e ∈ r.entities, ∀ attached, r.effectiveFragments e = .ok attached →
    ∀ ref ∈ attached, RootedIn attached ref.fragment

lemma Rooted.congr (h : r.Rooted) (hentities : r'.entities = r.entities)
    (hentity : r'.entity? = r.entity?) : r'.Rooted := by
  unfold Rooted
  rw [hentities, effectiveFragments_congr hentity]
  exact h

/-- Every fragment that an entity attaches itself is rooted. -/
def OwnRooted (r : Registry) : Prop :=
  ∀ e ∈ r.entities, ∀ attached, r.effectiveFragments e = .ok attached →
    ∀ ref ∈ e.fragments, RootedIn attached ref.fragment

/-- What is inherited is rooted where it comes from, and stays so behind what an entity attaches. -/
theorem OwnRooted.rooted (h : r.OwnRooted) : r.Rooted := by
  intro e he attached heffective
  obtain ⟨chain, hchain, rfl⟩ := effectiveFragments_eq_ok_iff.mp heffective
  clear heffective
  induction chain generalizing e with
  | nil => exact fun ref href => absurd href List.not_mem_nil
  | cons x rest ih =>
    obtain ⟨_, hcons, hbase, hrest⟩ := lineage_rest hchain
    cases hcons
    have hown := h x he _ (effectiveFragments_of_lineage hchain)
    have hrefs := refTo?_gatherFragments_cons x rest
    intro ref href
    obtain ⟨found, hfound⟩ := exists_refTo?_iff.mpr ⟨ref, href, rfl⟩
    rw [hrefs, Option.or_eq_some_iff] at hfound
    rcases hfound with hfound | ⟨-, hfound⟩
    · obtain ⟨hmem, hsame⟩ := mem_of_refTo? hfound
      exact hsame ▸ hown found hmem
    · split at hfound
      · next hinherits =>
        obtain ⟨hmem, hsame⟩ := mem_of_refTo? hfound
        have hinherited : RootedIn (gatherFragments [] rest) ref.fragment := by
          cases rest with
          | nil => exact absurd hmem List.not_mem_nil
          | cons b rest => exact hsame ▸ ih b (mem_of_base? hbase) (hrest b hbase) found hmem
        refine hinherited.overlaid (fun f => ?_) hown
        rw [hrefs, if_pos hinherits]
      · cases hfound

/-- What an entity attaches itself is effective. -/
lemma Rooted.ownRooted (h : r.Rooted) : r.OwnRooted := by
  intro e he attached heffective ref href
  obtain ⟨chain, hchain, rfl⟩ := effectiveFragments_eq_ok_iff.mp heffective
  obtain ⟨rest, rfl, -⟩ := lineage_rest hchain
  obtain ⟨found, hfound⟩ := exists_refTo?_iff.mpr ⟨ref, href, rfl⟩
  have heffective' : refTo? (gatherFragments [] (e :: rest)) ref.fragment = some found := by
    rw [refTo?_gatherFragments_cons, hfound, Option.some_or]
  obtain ⟨hmem, hsame⟩ := mem_of_refTo? heffective'
  exact hsame ▸ h e he _ heffective found hmem

/-! ### Attaching more -/

/-- An entity in place of another one with the same base. It attaches the fragments of that one as they
were attached, and others only when their anchors were attached. -/
structure Widens (r : Registry) (e e' : Entity) : Prop where
  id : e'.id = e.id
  base : e'.base = e.base
  inherits : e'.inheritsBaseTables = e.inheritsBaseTables
  kept : ∀ attached, r.effectiveFragments e = .ok attached → ∀ fragment,
    isAttached attached fragment = true → refTo? e'.fragments fragment = refTo? e.fragments fragment
  anchors : ∀ attached, r.effectiveFragments e = .ok attached → ∀ ref ∈ e'.fragments,
    ref ∈ e.fragments ∨ ∀ anchor ∈ ref.anchor, isAttached attached anchor = true

/-- What a registry finds is found widened in another one. -/
def WidensTo (r r' : Registry) : Prop := ∀ id, ∀ e ∈ r.entity? id, ∃ e' ∈ r'.entity? id, r.Widens e e'

lemma Widens.of_fragments (hid : e'.id = e.id) (hbase : e'.base = e.base)
    (hinherits : e'.inheritsBaseTables = e.inheritsBaseTables)
    (hfragments : e'.fragments = e.fragments) : r.Widens e e' where
  id := hid
  base := hbase
  inherits := hinherits
  kept _ _ _ _ := by rw [hfragments]
  anchors _ _ _ href := .inl (hfragments ▸ href)

lemma Widens.refl (r : Registry) (e : Entity) : r.Widens e e := .of_fragments rfl rfl rfl rfl

lemma Within.widensTo (h : r.Within r') : r.WidensTo r' :=
  fun id e he => ⟨e, h id e he, .refl r e⟩

/-- With distinct identifiers it is enough to look for the wider entities in the list. -/
lemma widensTo_of_entities (hdistinct : (r'.entities.map (·.id)).Nodup)
    (hwidens : ∀ e ∈ r.entities, ∃ e' ∈ r'.entities, r.Widens e e') : r.WidensTo r' := by
  intro id e hfound
  obtain ⟨he, rfl⟩ := r.mem_of_entity? hfound
  obtain ⟨e', he', hwide⟩ := hwidens e he
  exact ⟨e', hwide.id ▸ entity?_of_distinct hdistinct he', hwide⟩

lemma refTo?_insertWithin {refs : List FragmentRef} {ref : FragmentRef} {fragment : String}
    (position : Nat) (hne : ref.fragment ≠ fragment) :
    refTo? (insertWithin refs position ref) fragment = refTo? refs fragment := by
  have hinsert : insertWithin refs position ref =
      insertWithin (refs.take position ++ refs.drop position) (refs.take position).length ref := by
    rw [List.take_append_drop, List.length_take]
    unfold insertWithin
    rw [Nat.min_eq_left (Nat.min_le_right _ _)]
  rw [hinsert, insertWithin_append, refTo?_append]
  conv_rhs => rw [← List.take_append_drop position refs, refTo?_append]
  simp [refTo?, hne]

/-- An entity is widened by a fragment that was not attached to it, with an anchor that was. -/
lemma widens_insertFragment {e : Entity} {attached : List FragmentRef} {ref : FragmentRef}
    (position : Nat) (heffective : r.effectiveFragments e = .ok attached)
    (hfresh : ∀ other ∈ attached, other.fragment ≠ ref.fragment)
    (hanchor : ∀ anchor ∈ ref.anchor, isAttached attached anchor = true) :
    r.Widens e { e with fragments := insertWithin e.fragments position ref } where
  id := rfl
  base := rfl
  inherits := rfl
  kept attached' heffective' fragment hattached := by
    cases heffective.symm.trans heffective'
    refine refTo?_insertWithin position fun hsame => ?_
    exact not_isAttached_iff.mpr hfresh (hsame ▸ hattached)
  anchors attached' heffective' x hx := by
    cases heffective.symm.trans heffective'
    rcases List.mem_cons.mp ((insertWithin_perm _ _ _).mem_iff.mp hx) with rfl | hx
    · exact .inr hanchor
    · exact .inl hx

namespace WidensTo

variable (h : r.WidensTo r')

include h

lemma base? (hwidens : r.Widens e e') (hbase : r.base? e = some b) :
    ∃ b', r'.base? e' = some b' ∧ r.Widens b b' := by
  obtain ⟨id, hid, hb⟩ := Option.bind_eq_some_iff.mp hbase
  obtain ⟨b', hb', hwidens'⟩ := h id b hb
  exact ⟨b', Option.bind_eq_some_iff.mpr ⟨id, hwidens.base.trans hid, hb'⟩, hwidens'⟩

lemma ancestor? (hwidens : r.Widens e e') (hx : r.ancestor? e steps = some x) :
    ∃ x', r'.ancestor? e' steps = some x' ∧ r.Widens x x' := by
  induction steps generalizing x with
  | zero =>
    cases hx
    exact ⟨e', rfl, hwidens⟩
  | succ steps ih =>
    rw [ancestor?_succ] at hx ⊢
    obtain ⟨y, hy, hbase⟩ := Option.bind_eq_some_iff.mp hx
    obtain ⟨y', hy', hwidens'⟩ := ih hy
    rw [hy', Option.bind_some]
    exact h.base? hwidens' hbase

/-- A chain that ends in the wider registry ended before. -/
lemma exists_lineage (hwidens : r.Widens e e') (hchain' : r'.lineage e' = .ok chain') :
    ∃ chain, r.lineage e = .ok chain := by
  refine lineage_eq_ok_iff.mpr fun hrevisits => not_revisits_of_lineage hchain' ?_
  obtain ⟨i, j, x, y, hij, hx, hy, hid⟩ := hrevisits
  obtain ⟨x', hx', hwidensx⟩ := h.ancestor? hwidens hx
  obtain ⟨y', hy', hwidensy⟩ := h.ancestor? hwidens hy
  exact ⟨i, j, x', y', hij, hx', hy', by rw [hwidensx.id, hwidensy.id, hid]⟩

/-- What was attached is attached by the same reference. -/
lemma refTo? (hwidens : r.Widens e e') (hchain : r.lineage e = .ok chain)
    (hchain' : r'.lineage e' = .ok chain') :
    ∀ ref ∈ refTo? (gatherFragments [] chain) fragment,
      EntityModel.refTo? (gatherFragments [] chain') fragment = some ref := by
  induction chain generalizing e e' chain' with
  | nil => exact fun ref href => nomatch href
  | cons x rest ih =>
    obtain ⟨_, hcons, hbase, hrest⟩ := lineage_rest hchain
    cases hcons
    obtain ⟨rest', rfl, -, hrest'⟩ := lineage_rest hchain'
    intro ref href
    have hattached : isAttached (gatherFragments [] (x :: rest)) fragment = true := by
      obtain ⟨hmem, hsame⟩ := mem_of_refTo? href
      exact List.any_eq_true.mpr ⟨ref, hmem, by simpa using hsame⟩
    have hkept := hwidens.kept _ (effectiveFragments_of_lineage hchain) fragment hattached
    rw [Option.mem_def, refTo?_gatherFragments_cons, Option.or_eq_some_iff] at href
    rw [refTo?_gatherFragments_cons, hkept, hwidens.inherits, Option.or_eq_some_iff]
    refine href.imp_right fun ⟨hnone, hinherited⟩ => ⟨hnone, ?_⟩
    split at hinherited
    · next hinherits =>
      rw [if_pos hinherits]
      cases rest with
      | nil => cases hinherited
      | cons b rest =>
        obtain ⟨b', hbase', hwidens'⟩ := h.base? hwidens hbase
        exact ih hwidens' (hrest b hbase) (hrest' b' hbase') ref hinherited
    · cases hinherited

end WidensTo

/-- The entities of a registry come from rooted ones, in which they attach no more than they could, or
attach nothing themselves. -/
theorem ownRooted_of_origins (h : ∀ e' ∈ r'.entities, e'.fragments = [] ∨ ∃ (r : Registry) (e : Entity),
    r.WidensTo r' ∧ r.OwnRooted ∧ e ∈ r.entities ∧ r.Widens e e') : r'.OwnRooted := by
  intro e' he' attached' heffective' ref href
  rcases h e' he' with hnone | ⟨r, e, hto, hrooted, he, hwidens⟩
  · rw [hnone] at href
    cases href
  · obtain ⟨chain', hchain', rfl⟩ := effectiveFragments_eq_ok_iff.mp heffective'
    obtain ⟨chain, hchain⟩ := hto.exists_lineage hwidens hchain'
    have heffective := effectiveFragments_of_lineage hchain
    have hkept : ∀ f, ∀ ref ∈ refTo? (gatherFragments [] chain) f,
        refTo? (gatherFragments [] chain') f = some ref :=
      fun f => hto.refTo? hwidens hchain hchain'
    -- the entity attaches the fragment by a reference that it had, or by one with an attached anchor
    obtain ⟨found, hfound⟩ := exists_refTo?_iff.mpr ⟨ref, href, rfl⟩
    have hfound' : refTo? (gatherFragments [] chain') ref.fragment = some found := by
      obtain ⟨rest', rfl, -⟩ := lineage_rest hchain'
      rw [refTo?_gatherFragments_cons, hfound, Option.some_or]
    obtain ⟨hmem, hsame⟩ := mem_of_refTo? hfound
    rcases hwidens.anchors _ heffective found hmem with hold | hanchors
    · exact hsame ▸ (hrooted e he _ heffective found hold).mono hkept
    · cases hanchor : found.anchor with
      | none => exact .primary hfound' hanchor
      | some anchor =>
        obtain ⟨x, hx, hxa⟩ := List.any_eq_true.mp (hanchors anchor hanchor)
        have hrooted := hrooted.rooted e he _ heffective x hx
        rw [beq_iff_eq.mp hxa] at hrooted
        exact .secondary hfound' hanchor (hrooted.mono hkept)

end Registry

end EntityModel
