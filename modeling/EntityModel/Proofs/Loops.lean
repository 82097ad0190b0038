import EntityModel.Proofs.Ancestry
import Mathlib.Data.List.Chain
import Mathlib.Data.Set.Basic

/-!
# Loops

Where everything has at most one successor, a way that comes back goes round from then on: nothing but
the loop is reached from any of its members. A base chain that fails has come back to an entity that it
has passed, and the path of the failure shows the loop behind what leads into it.
-/

namespace EntityModel

section Successors

variable {α : Type} {R : α → α → Prop} {a b c : α} {l : List α}

lemma reaches_of_mem (hway : (a :: l).IsChain R) (hb : b ∈ a :: l) :
    Relation.ReflTransGen R a b := by
  induction l generalizing a with
  | nil =>
    cases List.mem_singleton.mp hb
    exact .refl
  | cons c l ih =>
    obtain ⟨hac, hrest⟩ := List.isChain_cons_cons.mp hway
    rcases List.mem_cons.mp hb with rfl | hb
    · exact .refl
    · exact .head hac (ih hrest hb)

section Iterates

variable {f : α → Option α}

/-- What is reached is what some number of steps comes to. -/
lemma reaches_iff_iterate : Relation.ReflTransGen (fun a b => f a = some b) a b ↔
    ∃ steps, (·.bind f)^[steps] (some a) = some b := by
  constructor
  · intro h
    induction h with
    | refl => exact ⟨0, rfl⟩
    | tail _ hnext ih =>
      obtain ⟨steps, hsteps⟩ := ih
      exact ⟨steps + 1, by rw [Function.iterate_succ_apply', hsteps]; exact hnext⟩
  · rintro ⟨steps, hsteps⟩
    induction steps generalizing b with
    | zero =>
      cases hsteps
      exact .refl
    | succ steps ih =>
      rw [Function.iterate_succ_apply'] at hsteps
      obtain ⟨c, hc, hnext⟩ := Option.bind_eq_some_iff.mp hsteps
      exact (ih hc).tail hnext

lemma returns_iff_iterate : Relation.TransGen (fun a b => f a = some b) a a ↔
    ∃ steps, (·.bind f)^[steps + 1] (some a) = some a := by
  constructor
  · intro h
    obtain ⟨b, hback, hnext⟩ := Relation.TransGen.tail'_iff.mp h
    obtain ⟨steps, hsteps⟩ := reaches_iff_iterate.mp hback
    exact ⟨steps, by rw [Function.iterate_succ_apply', hsteps]; exact hnext⟩
  · rintro ⟨steps, hsteps⟩
    rw [Function.iterate_succ_apply'] at hsteps
    obtain ⟨b, hb, hnext⟩ := Option.bind_eq_some_iff.mp hsteps
    exact .tail' (reaches_iff_iterate.mpr ⟨steps, hb⟩) hnext

end Iterates

section Unique

variable (hunique : Relator.RightUnique R)

include hunique

/-- What comes back to itself is come back to from all that it reaches. -/
lemma reaches_back (hloop : Relation.TransGen R a a) (h : Relation.ReflTransGen R a b) :
    Relation.ReflTransGen R b a := by
  induction h with
  | refl => exact .refl
  | @tail b c hab hbc ih =>
    have hround : Relation.TransGen R b a := .trans_right ih hloop
    obtain ⟨d, hbd, hda⟩ := Relation.TransGen.head'_iff.mp hround
    cases hunique hbd hbc
    exact hda

/-- A way that has come back to its start has shown all that is reached from there. -/
lemma mem_of_reaches (hway : (a :: (l ++ [a])).IsChain R) (h : Relation.ReflTransGen R a b) :
    b ∈ a :: l := by
  induction h with
  | refl => exact List.mem_cons_self
  | @tail b c hab hbc ih =>
    obtain ⟨before, after, hsplit⟩ := List.append_of_mem ih
    have hrest : (b :: (after ++ [a])).IsChain R := by
      have hwhole : a :: (l ++ [a]) = before ++ b :: (after ++ [a]) := by
        rw [← List.cons_append, hsplit, List.append_assoc, List.cons_append]
      rw [hwhole] at hway
      exact hway.right_of_append
    cases after with
    | nil =>
      cases hunique hbc (List.isChain_cons_cons.mp hrest).1
      exact List.mem_cons_self
    | cons d after =>
      cases hunique hbc (List.isChain_cons_cons.mp hrest).1
      rw [hsplit]
      simp

/-- A way that shows its target only at its end passes nothing twice: it would go round before it. -/
lemma nodup_of_ends (hway : (l ++ [c]).IsChain R) (hnew : c ∉ l) : (l ++ [c]).Nodup := by
  induction l with
  | nil => exact List.nodup_singleton c
  | cons a l ih =>
    obtain ⟨hne, hnew⟩ : c ≠ a ∧ c ∉ l := by simpa using hnew
    rw [List.cons_append] at hway ⊢
    refine List.nodup_cons.mpr ⟨fun hmem => ?_, ih hway.tail hnew⟩
    rcases List.mem_append.mp hmem with ha | ha
    · obtain ⟨loop, after, rfl⟩ := List.append_of_mem ha
      have hround : (a :: (loop ++ [a])).IsChain R := by
        refine hway.prefix ⟨after ++ [c], ?_⟩
        simp
      have hreached : Relation.ReflTransGen R a c := reaches_of_mem hway (by simp)
      rcases List.mem_cons.mp (mem_of_reaches hunique hround hreached) with rfl | hc
      · exact hne rfl
      · exact hnew (List.mem_append_left _ hc)
    · exact hne (List.mem_singleton.mp ha).symm

end Unique

end Successors

namespace Registry

/-- The base of an entity. -/
def HasBase (r : Registry) (e b : Entity) : Prop := r.base? e = some b

/-- Following bases leads from an entity back to it. -/
def OnLoop (r : Registry) (e : Entity) : Prop := Relation.TransGen r.HasBase e e

/-- The identifiers of all that is reached from an entity on a loop make up that loop. -/
def IsLoop (r : Registry) (members : Set String) : Prop :=
  ∃ e, r.OnLoop e ∧ members = {id | ∃ x, Relation.ReflTransGen r.HasBase e x ∧ x.id = id}

/-- The entity that is found by an identifier declares the next one as its base. -/
def BaseLink (r : Registry) (id next : String) : Prop :=
  ∃ e, r.entity? id = some e ∧ e.base = some next

/-- The way of bases from an entity `e`, which comes back to `x`: first what leads to `x`, if anything,
then what lies between the two times. -/
structure Lasso (r : Registry) (e : Entity) (lead : List Entity) (x : Entity)
    (loop : List Entity) : Prop where
  start : (lead ++ [x]).head? = some e
  way : (lead ++ x :: (loop ++ [x])).IsChain r.HasBase
  distinct : ((lead ++ x :: loop).map (·.id)).Nodup

variable {r : Registry} {e b x y : Entity} {seen : List String} {lead loop : List Entity}
  {err : ModelError}

lemma rightUnique_hasBase : Relator.RightUnique r.HasBase :=
  fun _ _ _ hb hc => Option.some.inj (hb.symm.trans hc)

lemma HasBase.found (h : r.HasBase e b) : r.entity? b.id = some b := (base?_eq_some h).2

lemma HasBase.link (hfound : r.entity? e.id = some e) (h : r.HasBase e b) : r.BaseLink e.id b.id :=
  ⟨e, hfound, (base?_eq_some h).1⟩

lemma OnLoop.found (h : r.OnLoop e) : r.entity? e.id = some e := by
  obtain ⟨b, -, hb⟩ := Relation.TransGen.tail'_iff.mp h
  exact HasBase.found hb

lemma onLoop_iff_ancestor? : r.OnLoop e ↔ ∃ steps, r.ancestor? e (steps + 1) = some e :=
  returns_iff_iterate

lemma OnLoop.revisits (h : r.OnLoop e) : r.Revisits e := by
  obtain ⟨steps, hsteps⟩ := onLoop_iff_ancestor?.mp h
  exact ⟨0, steps + 1, e, e, by omega, rfl, hsteps, rfl⟩

lemma isChain_baseLink {l : List Entity} (hfound : r.entity? e.id = some e)
    (hway : (e :: l).IsChain r.HasBase) : ((e :: l).map (·.id)).IsChain r.BaseLink := by
  induction l generalizing e with
  | nil => exact List.isChain_singleton _
  | cons b l ih =>
    obtain ⟨hbase, hrest⟩ := List.isChain_cons_cons.mp hway
    exact List.isChain_cons_cons.mpr ⟨hbase.link hfound, ih hbase.found hrest⟩

lemma found_of_mem {l : List Entity} (hfound : r.entity? e.id = some e)
    (hway : (e :: l).IsChain r.HasBase) (hx : x ∈ e :: l) : r.entity? x.id = some x := by
  induction l generalizing e with
  | nil =>
    cases List.mem_singleton.mp hx
    exact hfound
  | cons b l ih =>
    obtain ⟨hbase, hrest⟩ := List.isChain_cons_cons.mp hway
    rcases List.mem_cons.mp hx with rfl | hx
    · exact hfound
    · exact ih hbase.found hrest hx

/-- A walk that fails ends at the first identifier that it meets again. -/
lemma chainFrom_error_way (hseen : seen.Nodup) (h : r.chainFrom seen e = .error err) :
    ∃ way b, (e :: (way ++ [b])).IsChain r.HasBase ∧ (seen ++ way.map (·.id)).Nodup ∧
      b.id ∈ seen ++ way.map (·.id) ∧
      err = .cyclicInheritance (seen ++ (way ++ [b]).map (·.id)) := by
  induction seen, e using chainFrom.induct (r := r) with
  | case1 seen e root =>
    rw [chainFrom_root root] at h
    cases h
  | case2 seen e b base met =>
    rw [chainFrom_met base met] at h
    cases h
    exact ⟨[], b, List.isChain_pair.mpr base, by simpa using hseen, by simpa using met, rfl⟩
  | case3 seen e b base new ih =>
    rw [chainFrom_new base new] at h
    cases htail : r.chainFrom (seen ++ [b.id]) b with
    | ok tail =>
      rw [htail] at h
      cases h
    | error err' =>
      rw [htail] at h
      cases h
      have hnext : (seen ++ [b.id]).Nodup :=
        hseen.append (List.nodup_singleton _) (List.disjoint_singleton.mpr new)
      obtain ⟨way, last, hway, hdistinct, hmet, rfl⟩ := ih hnext htail
      refine ⟨b :: way, last, List.isChain_cons_cons.mpr ⟨base, hway⟩, ?_, ?_, ?_⟩
      · simpa using hdistinct
      · simpa using hmet
      · simp

/-- A lineage that fails is a way that comes back to one of its entities. -/
theorem lineage_error_lasso (hfound : r.entity? e.id = some e) (h : r.lineage e = .error err) :
    ∃ lead x loop, r.Lasso e lead x loop ∧
      err = .cyclicInheritance ((lead ++ x :: (loop ++ [x])).map (·.id)) := by
  obtain ⟨way, b, hway, hdistinct, hmet, rfl⟩ := chainFrom_error_way (List.nodup_singleton _) h
  obtain ⟨x, hx, hid⟩ : ∃ x ∈ e :: way, x.id = b.id := List.mem_map.mp hmet
  have hwhole : (e :: way ++ [b]).IsChain r.HasBase := hway
  have hx' : r.entity? x.id = some x := found_of_mem hfound hwhole.left_of_append hx
  have hb : r.entity? b.id = some b := found_of_mem hfound hway (by simp)
  -- the look-up gives one entity for the identifier that is met again
  obtain rfl : x = b := Option.some.inj (hx'.symm.trans (hid ▸ hb))
  obtain ⟨lead, loop, hsplit⟩ := List.append_of_mem hx
  refine ⟨lead, x, loop, ⟨?_, ?_, ?_⟩, ?_⟩
  · cases lead <;> cases hsplit <;> rfl
  · simpa [hsplit] using hwhole
  · rw [← hsplit]
    exact hdistinct
  · rw [← List.cons_append, ← List.append_assoc, ← hsplit]
    rfl

namespace Lasso

lemma round (h : r.Lasso e lead x loop) : (x :: (loop ++ [x])).IsChain r.HasBase :=
  h.way.right_of_append

lemma onLoop (h : r.Lasso e lead x loop) : r.OnLoop x := by
  cases loop with
  | nil => exact .single (List.isChain_pair.mp h.round)
  | cons b loop =>
    obtain ⟨hbase, hrest⟩ := List.isChain_cons_cons.mp h.round
    exact .head' hbase (reaches_of_mem hrest (by simp))

lemma reaches_iff (h : r.Lasso e lead x loop) :
    Relation.ReflTransGen r.HasBase x y ↔ y ∈ x :: loop := by
  refine ⟨mem_of_reaches rightUnique_hasBase h.round, fun hy => ?_⟩
  have hround : (x :: loop ++ [x]).IsChain r.HasBase := h.round
  exact reaches_of_mem hround.left_of_append hy

lemma reaches (h : r.Lasso e lead x loop) : Relation.ReflTransGen r.HasBase e x := by
  have hstart := h.start
  have hway := h.way
  cases lead with
  | nil =>
    cases hstart
    exact .refl
  | cons a lead =>
    cases hstart
    exact reaches_of_mem hway (by simp)

end Lasso

end Registry

end EntityModel
