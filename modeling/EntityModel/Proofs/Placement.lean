import EntityModel.Model.Source
import Mathlib.Data.List.Nodup
import Mathlib.Logic.Relation

/-!
# Bases are placed first

Entities are placed in rounds, and an entity has to wait for a base that is declared along with it. As
long as bases do not lead round in a circle, which ranks that go down with each base rule out, every
round takes some, so that in the end each entity stands behind all that it is derived from.
-/

namespace EntityModel.ModelSource

variable {declared placed : List String} {waiting entities before after : List Entity} {e d : Entity}
  {rank : String → Nat} {base : String}

lemma placeBases_perm (declared placed : List String) (waiting : List Entity) :
    (placeBases declared placed waiting).Perm waiting := by
  induction placed, waiting using placeBases.induct declared with
  | case1 placed waiting done =>
    rw [placeBases, dif_pos done]
  | case2 placed waiting done ih =>
    rw [placeBases, dif_neg done]
    exact (ih.append_left _).trans (List.filter_append_perm _ waiting)

lemma basesFirst_perm (entities : List Entity) : (basesFirst entities).Perm entities :=
  placeBases_perm _ _ _

lemma mem_basesFirst : e ∈ basesFirst entities ↔ e ∈ entities := (basesFirst_perm entities).mem_iff

lemma nodup_basesFirst_iff :
    ((basesFirst entities).map (·.id)).Nodup ↔ (entities.map (·.id)).Nodup :=
  ((basesFirst_perm entities).map _).nodup_iff

lemma subset_of_placed (h : basesFirst entities = before ++ e :: after) : before ++ [e] ⊆ entities := by
  intro d hd
  rw [← mem_basesFirst, h, List.append_cons]
  exact List.mem_append_left _ hd

section Maps

variable {f : Entity → Entity}

lemma nextRound_map (hbase : ∀ e, (f e).base = e.base) (declared placed : List String)
    (waiting : List Entity) :
    nextRound declared placed (waiting.map f) = (nextRound declared placed waiting).map f := by
  have hready : isReady declared placed ∘ f = isReady declared placed := by
    funext e
    rw [Function.comp_apply, isReady, isReady, hbase]
  rw [nextRound, List.filter_map, hready, nextRound]

lemma laterRounds_map (hbase : ∀ e, (f e).base = e.base) (declared placed : List String)
    (waiting : List Entity) :
    laterRounds declared placed (waiting.map f) = (laterRounds declared placed waiting).map f := by
  have hwaits : (! isReady declared placed ·) ∘ f = (! isReady declared placed ·) := by
    funext e
    rw [Function.comp_apply, isReady, isReady, hbase]
  rw [laterRounds, List.filter_map, hwaits, laterRounds]

/-- Placing entities looks at their identifiers and bases only. -/
lemma placeBases_map (hid : ∀ e, (f e).id = e.id) (hbase : ∀ e, (f e).base = e.base)
    (declared placed : List String) (waiting : List Entity) :
    placeBases declared placed (waiting.map f) = (placeBases declared placed waiting).map f := by
  induction placed, waiting using placeBases.induct declared with
  | case1 placed waiting done =>
    have done' : nextRound declared placed (waiting.map f) = [] := by
      rw [nextRound_map hbase, done, List.map_nil]
    rw [placeBases, dif_pos done', placeBases, dif_pos done]
  | case2 placed waiting done ih =>
    have done' : nextRound declared placed (waiting.map f) ≠ [] := by
      rw [nextRound_map hbase]
      exact mt List.map_eq_nil_iff.mp done
    have hids : ((nextRound declared placed waiting).map f).map (·.id) =
        (nextRound declared placed waiting).map (·.id) := by
      rw [List.map_map]
      exact List.map_congr_left fun e _ => hid e
    conv_lhs => rw [placeBases, dif_neg done']
    conv_rhs => rw [placeBases, dif_neg done]
    rw [nextRound_map hbase, laterRounds_map hbase, hids, ih, List.map_append]

lemma basesFirst_map (hid : ∀ e, (f e).id = e.id) (hbase : ∀ e, (f e).base = e.base)
    (entities : List Entity) : basesFirst (entities.map f) = (basesFirst entities).map f := by
  have hids : (entities.map f).map (·.id) = entities.map (·.id) := by
    rw [List.map_map]
    exact List.map_congr_left fun e _ => hid e
  rw [basesFirst, hids, placeBases_map hid hbase, basesFirst]

end Maps

lemma isReady_iff : isReady declared placed e = true ↔ ∀ base ∈ e.base, base ∈ declared →
    base ∈ placed := by
  unfold isReady
  cases e.base with
  | none => simp
  | some base => simp [Classical.or_iff_not_imp_left]

/-- Ranks of identifiers that go down from an entity to its base, where that is declared. -/
def RanksBases (rank : String → Nat) (declared : List String) (entities : List Entity) : Prop :=
  ∀ e ∈ entities, ∀ base ∈ e.base, base ∈ declared → rank base < rank e.id

/-- All declared identifiers belong to entities that are placed or waiting. -/
def Covers (placed declared : List String) (waiting : List Entity) : Prop :=
  ∀ id ∈ declared, id ∈ placed ∨ id ∈ waiting.map (·.id)

/-- Among entities that wait, one of the least rank is ready. -/
lemma nextRound_ne_nil (hrank : RanksBases rank declared waiting)
    (hcover : Covers placed declared waiting) (hne : waiting ≠ []) :
    nextRound declared placed waiting ≠ [] := by
  intro hstuck
  have hwaits : ∀ e ∈ waiting, ¬ isReady declared placed e = true :=
    List.filter_eq_nil_iff.mp hstuck
  have hnone (n : Nat) : ∀ e ∈ waiting, rank e.id ≠ n := by
    induction n using Nat.strongRecOn with
    | ind n ih =>
      rintro e he rfl
      apply hwaits e he
      apply isReady_iff.mpr
      intro base hbase hdeclared
      by_contra hnot
      obtain ⟨b, hb, rfl⟩ := List.mem_map.mp ((hcover base hdeclared).resolve_left hnot)
      exact ih (rank b.id) (hrank e he b.id hbase hdeclared) b hb rfl
  obtain ⟨e, he⟩ := List.exists_mem_of_ne_nil waiting hne
  exact hnone (rank e.id) e he rfl

lemma Covers.laterRounds (h : Covers placed declared waiting) :
    Covers (placed ++ (nextRound declared placed waiting).map (·.id)) declared
      (laterRounds declared placed waiting) := by
  intro id hid
  rcases h id hid with hplaced | hwaiting
  · exact .inl (List.mem_append_left _ hplaced)
  · obtain ⟨e, he, rfl⟩ := List.mem_map.mp hwaiting
    by_cases hready : isReady declared placed e = true
    · refine .inl (List.mem_append_right _ (List.mem_map_of_mem ?_))
      exact List.mem_filter.mpr ⟨he, hready⟩
    · refine .inr (List.mem_map_of_mem (List.mem_filter.mpr ⟨he, ?_⟩))
      simpa using hready

/-- Where an entity is placed, its base is placed already. -/
lemma mem_of_placeBases (hrank : RanksBases rank declared waiting)
    (hcover : Covers placed declared waiting)
    (h : placeBases declared placed waiting = before ++ e :: after) (hbase : base ∈ e.base)
    (hdeclared : base ∈ declared) : base ∈ placed ∨ base ∈ before.map (·.id) := by
  induction placed, waiting using placeBases.induct declared generalizing before with
  | case1 placed waiting done =>
    have hnil : waiting = [] := by
      by_contra hne
      exact nextRound_ne_nil hrank hcover hne done
    rw [placeBases, dif_pos done, hnil] at h
    exact absurd h.symm (by simp)
  | case2 placed waiting done ih =>
    rw [placeBases, dif_neg done] at h
    have hlater (earlier : List Entity)
        (hearlier : before = nextRound declared placed waiting ++ earlier)
        (hrest : placeBases declared (placed ++ (nextRound declared placed waiting).map (·.id))
          (laterRounds declared placed waiting) = earlier ++ e :: after) :
        base ∈ placed ∨ base ∈ before.map (·.id) := by
      have hrank' : RanksBases rank declared (laterRounds declared placed waiting) :=
        fun x hx => hrank x (List.mem_filter.mp hx).1
      rw [hearlier, List.map_append, List.mem_append, ← or_assoc, ← List.mem_append]
      exact ih hrank' hcover.laterRounds hrest
    rcases List.append_eq_append_iff.mp h with ⟨earlier, hearlier, hrest⟩ | ⟨later, hround, hrest⟩
    · exact hlater earlier hearlier hrest
    · cases later with
      | nil => exact hlater [] (by simpa using hround.symm) (by simpa using hrest.symm)
      | cons x later =>
        obtain ⟨rfl, -⟩ := List.cons.inj hrest
        have hround' : e ∈ nextRound declared placed waiting := by simp [hround]
        exact .inl (isReady_iff.mp (List.mem_filter.mp hround').2 base hbase hdeclared)

/-- An entity of the source is the base of another one. -/
def OwnBase (entities : List Entity) (e b : Entity) : Prop := b ∈ entities ∧ e.base = some b.id

/-- Entities with distinct identifiers are placed behind all that they are derived from, as long as the
bases on the way are declared along with them. -/
theorem mem_of_basesFirst (hdistinct : (entities.map (·.id)).Nodup)
    (hrank : RanksBases rank (entities.map (·.id)) entities)
    (h : basesFirst entities = before ++ e :: after)
    (hreaches : Relation.ReflTransGen (OwnBase entities) e d) : d ∈ before ++ [e] := by
  induction hreaches using Relation.ReflTransGen.head_induction_on generalizing before after with
  | refl => exact List.mem_append_right _ (List.mem_singleton_self d)
  | @head e b hbase hreaches ih =>
    obtain ⟨hb, hbase⟩ := hbase
    have hcover : Covers [] (entities.map (·.id)) entities := fun id hid => .inr hid
    have hplaced := (mem_of_placeBases hrank hcover h hbase
      (List.mem_map_of_mem hb)).resolve_left List.not_mem_nil
    obtain ⟨b', hb', hid⟩ := List.mem_map.mp hplaced
    have hown : b' ∈ entities := subset_of_placed h (List.mem_append_left _ hb')
    obtain rfl : b' = b := List.inj_on_of_nodup_map hdistinct hown hb hid
    -- the base splits what comes before into a shorter beginning and a rest
    obtain ⟨earlier, between, rfl⟩ := List.append_of_mem hb'
    have hsplit : basesFirst entities = earlier ++ b' :: (between ++ e :: after) := by
      rw [h, List.append_assoc, List.cons_append]
    have hd := ih hsplit
    rw [List.append_cons earlier b' between]
    exact List.mem_append_left _ (List.mem_append_left _ hd)

end EntityModel.ModelSource
