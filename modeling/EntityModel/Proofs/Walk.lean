import EntityModel.Model
import EntityModel.Proofs.Loops

/-!
# The walk along a base chain

Each step of the walk looks for the base of the entity that it has come to. The walk ends where there is
none to be found, and where the base has an identifier that it has come to before. Every other base is
registered and new, so that the walk ends after at most one step more than there are registered entities.
The way that it has taken tells how it ends, and how it ends tells the way.
-/

namespace EntityModel

namespace Registry

/-- The walk along a base chain: under way, with the entities behind it and the one that it has come to,
or ended with an outcome. -/
inductive Walk where
  | underway (behind : List Entity) (e : Entity)
  | ended (outcome : Except ModelError (List Entity))

def walkStep (r : Registry) : Walk → Walk
  | .underway behind e =>
    match r.base? e with
    | none => .ended (.ok (behind ++ [e]))
    | some b =>
      if b.id ∈ (behind ++ [e]).map (·.id) then
        .ended (.error (.cyclicInheritance ((behind ++ [e, b]).map (·.id))))
      else .underway (behind ++ [e]) b
  | .ended outcome => .ended outcome

/-- A whole base chain: from the entity each time to the registered entity that the base names, to no
identifier twice, until there is no base or none that is registered. -/
structure IsBaseChain (r : Registry) (e : Entity) (chain : List Entity) : Prop where
  start : chain.head? = some e
  links : chain.IsChain r.HasBase
  distinct : (chain.map (·.id)).Nodup
  ends : ∀ last ∈ chain.getLast?, ∀ base ∈ last.base, r.entity? base = none

/-- A base chain that comes to no identifier twice, and the next base after it, whose identifier it has
come to. -/
structure ComesBack (r : Registry) (e : Entity) (way : List Entity) (b : Entity) : Prop where
  start : way.head? = some e
  links : (way ++ [b]).IsChain r.HasBase
  distinct : (way.map (·.id)).Nodup
  met : b.id ∈ way.map (·.id)

variable {r : Registry} {e b x : Entity} {chain way behind : List Entity} {seen : List String}
  {err : ModelError}

lemma walkStep_root (hroot : r.base? e = none) :
    r.walkStep (.underway behind e) = .ended (.ok (behind ++ [e])) := by
  rw [walkStep, hroot]

lemma walkStep_met (hbase : r.base? e = some b) (hmet : b.id ∈ (behind ++ [e]).map (·.id)) :
    r.walkStep (.underway behind e) =
      .ended (.error (.cyclicInheritance ((behind ++ [e, b]).map (·.id)))) := by
  rw [walkStep, hbase]
  exact if_pos hmet

lemma walkStep_new (hbase : r.base? e = some b) (hnew : b.id ∉ (behind ++ [e]).map (·.id)) :
    r.walkStep (.underway behind e) = .underway (behind ++ [e]) b := by
  rw [walkStep, hbase]
  exact if_neg hnew

lemma map_nil_append (outcome : Except ModelError (List Entity)) :
    outcome.map ([] ++ ·) = outcome := by
  cases outcome <;> rfl

/-- A walk that is under way ends as what is left of the chain does, after at most one step more than there
are entities that it has not come to. -/
lemma walk_ends (hseen : seen = (behind ++ [e]).map (·.id)) :
    ∃ steps ≤ r.unseen seen + 1, r.walkStep^[steps] (.underway behind e) =
      .ended ((r.chainFrom seen e).map (behind ++ ·)) := by
  induction seen, e using chainFrom.induct (r := r) generalizing behind with
  | case1 seen e root =>
    refine ⟨1, by omega, ?_⟩
    rw [Function.iterate_one, walkStep_root root, chainFrom_root root]
    rfl
  | case2 seen e b base met =>
    refine ⟨1, by omega, ?_⟩
    rw [Function.iterate_one, walkStep_met base (hseen ▸ met), chainFrom_met base met, hseen]
    simp [Except.map]
  | case3 seen e b base new ih =>
    have hfewer : r.unseen (seen ++ [b.id]) < r.unseen seen := unseen_lt (mem_of_base? base) new
    have hseen' : seen ++ [b.id] = (behind ++ [e] ++ [b]).map (·.id) := by simp [hseen]
    obtain ⟨steps, hsteps, hends⟩ := ih hseen'
    refine ⟨steps + 1, by omega, ?_⟩
    rw [Function.iterate_succ_apply, walkStep_new base (hseen ▸ new), hends, chainFrom_new base new]
    cases r.chainFrom (seen ++ [b.id]) b with
    | ok rest => simp [Except.map]
    | error err => rfl

/-- Along entities that are new to it the walk goes on to the last of them. -/
lemma chainFrom_along (hway : (e :: (way ++ [x])).IsChain r.HasBase)
    (hnew : (seen ++ (way ++ [x]).map (·.id)).Nodup) :
    r.chainFrom seen e =
      (r.chainFrom (seen ++ (way ++ [x]).map (·.id)) x).map (e :: way ++ ·) := by
  induction way generalizing e seen with
  | nil =>
    have hbase : r.HasBase e x := List.isChain_pair.mp hway
    have hx : x.id ∉ seen := List.disjoint_singleton.mp (List.disjoint_of_nodup_append hnew)
    exact chainFrom_new hbase hx
  | cons b way ih =>
    obtain ⟨hbase, hrest⟩ := List.isChain_cons_cons.mp hway
    have hsplit : seen ++ (b :: way ++ [x]).map (·.id) =
        seen ++ [b.id] ++ (way ++ [x]).map (·.id) := by simp
    rw [hsplit] at hnew ⊢
    have hb : b.id ∉ seen := List.disjoint_singleton.mp
      (List.disjoint_of_nodup_append (List.Nodup.of_append_left hnew))
    rw [chainFrom_new hbase hb, ih hrest hnew]
    cases r.chainFrom (seen ++ [b.id] ++ (way ++ [x]).map (·.id)) x with
    | ok rest => rfl
    | error err => rfl

/-- The walk that has come along a way with distinct identifiers is at its end. -/
lemma lineage_along (hstart : (way ++ [x]).head? = some e) (hway : (way ++ [x]).IsChain r.HasBase)
    (hdistinct : ((way ++ [x]).map (·.id)).Nodup) :
    r.lineage e = (r.chainFrom ((way ++ [x]).map (·.id)) x).map (way ++ ·) := by
  cases way with
  | nil =>
    cases hstart
    exact (map_nil_append _).symm
  | cons a way =>
    cases hstart
    exact chainFrom_along hway hdistinct

lemma isChain_lineage (h : r.lineage e = .ok chain) : chain.IsChain r.HasBase := by
  induction chain generalizing e with
  | nil => exact List.isChain_nil
  | cons a chain ih =>
    rcases lineage_cases h with ⟨-, hchain⟩ | ⟨b, rest, hbase, hrest, hchain⟩
    · cases hchain
      exact List.isChain_singleton _
    · cases hchain
      obtain ⟨rest, rfl, -⟩ := lineage_rest hrest
      exact List.isChain_cons_cons.mpr ⟨hbase, ih hrest⟩

/-- A look-up of the base finds nothing just when no base is declared or an unregistered one. -/
lemma base?_eq_none : r.base? e = none ↔ ∀ base ∈ e.base, r.entity? base = none :=
  Option.bind_eq_none_iff

lemma lineage_eq_ok_iff_isBaseChain : r.lineage e = .ok chain ↔ r.IsBaseChain e chain := by
  constructor
  · intro h
    obtain ⟨rest, rfl, -⟩ := lineage_rest h
    exact ⟨rfl, isChain_lineage h, lineage_distinct h,
      fun last hlast => base?_eq_none.mp (base?_of_getLast? h hlast)⟩
  · rintro ⟨hstart, hlinks, hdistinct, hends⟩
    obtain rfl | ⟨way, x, rfl⟩ := chain.eq_nil_or_concat'
    · cases hstart
    · have hroot : r.base? x = none := base?_eq_none.mpr (hends x (by simp))
      rw [lineage_along hstart hlinks hdistinct, chainFrom_root hroot]
      rfl

lemma lineage_eq_error_iff_comesBack : r.lineage e = .error err ↔
    ∃ way b, r.ComesBack e way b ∧ err = .cyclicInheritance ((way ++ [b]).map (·.id)) := by
  constructor
  · intro h
    obtain ⟨way, b, hlinks, hdistinct, hmet, rfl⟩ := chainFrom_error_way (List.nodup_singleton _) h
    exact ⟨e :: way, b, ⟨rfl, hlinks, hdistinct, hmet⟩, rfl⟩
  · rintro ⟨way, b, ⟨hstart, hlinks, hdistinct, hmet⟩, rfl⟩
    obtain rfl | ⟨way, x, rfl⟩ := way.eq_nil_or_concat'
    · cases hstart
    · have hbase : r.HasBase x b := by
        rw [List.append_assoc] at hlinks
        exact List.isChain_pair.mp hlinks.right_of_append
      have hpath : (way ++ [x] ++ [b]).map (·.id) = (way ++ [x]).map (·.id) ++ [b.id] :=
        List.map_append
      rw [lineage_along hstart hlinks.left_of_append hdistinct, chainFrom_met hbase hmet, hpath]
      rfl

/-- What the chain of an entity is. The walk along it ends after at most one step more than there are
registered entities, whatever they declare and also when the entity is not one of them. It succeeds with
the base chain where that ends, and otherwise fails with the identifiers up to the first one that it comes
to again. Where it succeeds it does so from the base on, with the rest of the chain. -/
theorem lineage_walks_base_chain (r : Registry) (e : Entity) :
    (∃ steps ≤ r.entities.length + 1, r.walkStep^[steps] (.underway [] e) = .ended (r.lineage e)) ∧
    (∀ chain, r.lineage e = .ok chain ↔ r.IsBaseChain e chain) ∧
    (∀ err, r.lineage e = .error err ↔ ∃ way b, r.ComesBack e way b ∧
      err = .cyclicInheritance ((way ++ [b]).map (·.id))) ∧
    ∀ chain b, r.lineage e = .ok chain → r.HasBase e b → r.lineage b = .ok chain.tail := by
  refine ⟨?_, fun _ => lineage_eq_ok_iff_isBaseChain, fun _ => lineage_eq_error_iff_comesBack,
    fun chain b h hbase => ?_⟩
  · obtain ⟨steps, hsteps, hends⟩ : ∃ steps ≤ r.unseen [e.id] + 1,
        r.walkStep^[steps] (.underway [] e) = .ended ((r.lineage e).map ([] ++ ·)) := walk_ends rfl
    have hunseen : r.unseen [e.id] ≤ r.entities.length := List.length_filter_le _ _
    exact ⟨steps, by omega, hends.trans (congrArg _ (map_nil_append _))⟩
  · obtain ⟨rest, hrest, rfl⟩ := lineage_base h hbase
    exact hrest

end Registry

namespace Model.LoopAndLooseEnd

def low : Entity := { Entity.ofName "Low" "Low" with base := some "Gone" }

def left : Entity := { Entity.ofName "Left" "Left" with base := some "Right" }

def right : Entity := { Entity.ofName "Right" "Right" with base := some "Left" }

/-- An entity whose base is not registered, and two that are derived from each other. -/
def model : Model := { ofNameSpace none with entities := [low, left, right] }

/-- An entity that the model does not have. -/
def draft : Entity := { Entity.ofName "Draft" "Draft" with base := some "Low" }

/-- An entity that goes by the identifier of one that the model has. -/
def double : Entity := { Entity.ofName "Left" "Double" with base := some "Right" }

theorem lineage_walks_base_chain_unregistered :
    model.registry.lineage draft = .ok [draft, low] ∧ model.registry.lineage low = .ok [low] ∧
      model.registry.lineage double = .error (.cyclicInheritance ["Left", "Right", "Left"]) ∧
      ∃ steps ≤ 4, model.registry.walkStep^[steps] (.underway [] double) =
        .ended (model.registry.lineage double) := by
  obtain ⟨-, hdraft, -, hrest⟩ := Registry.lineage_walks_base_chain model.registry draft
  obtain ⟨hsteps, -, hdouble, -⟩ := Registry.lineage_walks_base_chain model.registry double
  have hbase : model.registry.HasBase draft low := rfl
  have hchain : model.registry.lineage draft = .ok [draft, low] := by
    refine (hdraft _).mpr ⟨rfl, List.isChain_pair.mpr hbase, by decide, ?_⟩
    rintro last ⟨⟩ base ⟨⟩
    rfl
  refine ⟨hchain, hrest _ _ hchain hbase, (hdouble _).mpr ⟨[double, right], left, ?_, rfl⟩, hsteps⟩
  exact ⟨rfl, List.isChain_cons_cons.mpr ⟨rfl, List.isChain_pair.mpr rfl⟩, by decide, by decide⟩

end Model.LoopAndLooseEnd

end EntityModel
