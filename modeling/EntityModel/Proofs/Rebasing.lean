import EntityModel.Proofs.Adding
import EntityModel.Proofs.Growth
import EntityModel.Proofs.Uniqueness

/-!
# Changing a base

Setting a base follows one chain only, that of the entity itself. The ways of all others stay what they
were until they come to that entity, and go on along its new chain from there. Such a way comes back to
an identifier only where the new chain meets an entity that look-ups do not find.
-/

namespace EntityModel

/-- The entity with another base. -/
def Entity.rebased (e : Entity) (base : Option String) : Entity := { e with base := base }

namespace Registry

/-- The bases of an entity lead to an identifier, after one step at least. -/
def Passes (r : Registry) (x : Entity) (id : String) : Prop :=
  ∃ steps y, r.ancestor? x (steps + 1) = some y ∧ y.id = id

/-- For the identifier of `e` one registry finds `e` and the other one `e'`; for all others they find
the same. -/
structure Rerouted (r r' : Registry) (e e' : Entity) : Prop where
  sameId : e'.id = e.id
  old : r.entity? e.id = some e
  new : r'.entity? e.id = some e'
  others : ∀ id, id ≠ e.id → r'.entity? id = r.entity? id

variable {r r' : Registry} {e e' x y : Entity} {id : String}

lemma ancestor?_add {first : Nat} (hfirst : r.ancestor? x first = some y) (steps : Nat) :
    r.ancestor? x (first + steps) = r.ancestor? y steps :=
  iterate_bind_add hfirst steps

lemma found_of_ancestor?_succ {steps : Nat} (hy : r.ancestor? x (steps + 1) = some y) :
    r.entity? y.id = some y := by
  rw [ancestor?_succ] at hy
  obtain ⟨z, -, hbase⟩ := Option.bind_eq_some_iff.mp hy
  exact (base?_eq_some hbase).2

lemma Passes.trans {steps : Nat} (hy : r.ancestor? x steps = some y) (h : r.Passes y id) :
    r.Passes x id := by
  obtain ⟨more, z, hz, hid⟩ := h
  exact ⟨steps + more, z, (ancestor?_add hy (more + 1)).trans hz, hid⟩

lemma Passes.revisits (h : r.Passes x x.id) : r.Revisits x := by
  obtain ⟨steps, y, hy, hid⟩ := h
  exact ⟨0, steps + 1, x, y, by omega, rfl, hy, hid.symm⟩

/-- Let a way come to an entity of the identifier of `e'`. What it has in common with the chain of `e'`
can only be the identifier from which it has set out. -/
lemma passes_of_shared {a b : Entity} {i k n : Nat} (hx : ¬ r.Revisits x) (he : ¬ r.Revisits e')
    (hy : r.ancestor? x (n + 1) = some y) (hid : y.id = e'.id) (hi : i ≤ n)
    (ha : r.ancestor? x i = some a) (hb : r.ancestor? e' k = some b) (hab : a.id = b.id) :
    r.Passes e' x.id := by
  cases k with
  | zero =>
    cases hb
    exact absurd ⟨i, n + 1, a, y, by omega, ha, hy, hab.trans hid.symm⟩ hx
  | succ k =>
    cases i with
    | zero =>
      cases ha
      exact ⟨k, b, hb, hab.symm⟩
    | succ i =>
      -- look-ups find both, so that it is one entity, and leads from the chain back to its start
      obtain rfl : a = b := Option.some.inj
        ((found_of_ancestor?_succ ha).symm.trans (hab ▸ found_of_ancestor?_succ hb))
      have hrest : r.Passes a e'.id := by
        refine ⟨n - (i + 1), y, ?_, hid⟩
        rw [← ancestor?_add ha, ← hy]
        congr 1
        omega
      exact absurd (hrest.trans hb).revisits he

namespace Rerouted

variable (h : r.Rerouted r' e e')

include h

lemma symm : r'.Rerouted r e' e :=
  ⟨h.sameId.symm, h.sameId ▸ h.new, h.sameId ▸ h.old,
    fun id hne => (h.others id (h.sameId ▸ hne)).symm⟩

lemma base?_of_apart (hapart : ∀ b ∈ r.base? x, b.id ≠ e.id) : r'.base? x = r.base? x := by
  unfold base? at hapart ⊢
  cases hbase : x.base with
  | none => rfl
  | some id =>
    rw [hbase] at hapart
    refine h.others id ?_
    rintro rfl
    exact hapart e h.old rfl

lemma base?_of_meets (hbase : r.base? x = some y) (hid : y.id = e.id) : r'.base? x = some e' := by
  have hx := (base?_eq_some hbase).1
  unfold base?
  rw [hx, hid]
  exact h.new

/-- A way that does not come to the entity is the same in both. -/
lemma sameAbove (hnot : ¬ r.Passes x e.id) : r.SameAbove r' x := by
  intro steps y hy
  refine h.base?_of_apart fun b hb hid => hnot ⟨steps, b, ?_, hid⟩
  rw [ancestor?_succ, hy]
  exact hb

lemma not_passes (he : ¬ r.Revisits e') : ¬ r.Passes e' e.id := by
  intro hpasses
  rw [← h.sameId] at hpasses
  exact he hpasses.revisits

/-- Where the entity that is put in the place of the old one leads to does not depend on which of them
is found. -/
lemma revisits_iff : r'.Revisits e' ↔ r.Revisits e' := by
  by_cases hpasses : r.Passes e' e.id
  · have hpasses' : r'.Passes e' e.id := by
      by_contra hnot
      have hsame := h.symm.sameAbove (h.sameId ▸ hnot)
      obtain ⟨steps, y, hy, hid⟩ := hpasses
      exact hnot ⟨steps, y, (hsame.ancestor? _).symm.trans hy, hid⟩
    rw [← h.sameId] at hpasses hpasses'
    exact ⟨fun _ => hpasses.revisits, fun _ => hpasses'.revisits⟩
  · exact (h.sameAbove hpasses).revisits_iff

/-- A way that comes to the entity for the first time is the same until then, and goes on along the
chain of the new one. -/
lemma ways_of_passes (hx : ¬ r.Revisits x) (he : ¬ r.Revisits e') (hpasses : r.Passes x e.id) :
    ∃ n y, r.ancestor? x (n + 1) = some y ∧ y.id = e.id ∧
      (∀ i ≤ n, r'.ancestor? x i = r.ancestor? x i) ∧
      ∀ j, r'.ancestor? x (n + 1 + j) = r.ancestor? e' j := by
  obtain ⟨n, y, hy, hid⟩ := hpasses
  have hbefore : ∀ i ≤ n, r'.ancestor? x i = r.ancestor? x i := by
    intro i hi
    induction i with
    | zero => rfl
    | succ i ih =>
      rw [ancestor?_succ, ancestor?_succ, ih (by omega)]
      refine Option.bind_congr fun z hz => h.base?_of_apart fun b hb hmeets => hx ?_
      refine ⟨i + 1, n + 1, b, y, by omega, ?_, hy, hmeets.trans hid.symm⟩
      rw [ancestor?_succ, hz]
      exact hb
  have hmeets : r'.ancestor? x (n + 1) = some e' := by
    rw [ancestor?_succ] at hy
    obtain ⟨z, hz, hbase⟩ := Option.bind_eq_some_iff.mp hy
    rw [ancestor?_succ, hbefore n (Nat.le_refl n), hz]
    exact h.base?_of_meets hbase hid
  refine ⟨n, y, hy, hid, hbefore, fun j => ?_⟩
  rw [ancestor?_add hmeets, (h.sameAbove (h.not_passes he)).ancestor?]

/-- A way that has not come back to an identifier does so now just when it comes to the entity and the
new chain of that meets the identifier from which the way has set out. -/
lemma revisits_iff_passes (hx : ¬ r.Revisits x) (he : ¬ r.Revisits e') :
    r'.Revisits x ↔ r.Passes x e.id ∧ r.Passes e' x.id := by
  by_cases hpasses : r.Passes x e.id
  · obtain ⟨n, y, hy, hid, hbefore, hbehind⟩ := h.ways_of_passes hx he hpasses
    refine ⟨fun hx' => ⟨hpasses, ?_⟩, fun ⟨_, hback⟩ => ?_⟩
    · obtain ⟨i, j, a, b, hij, ha, hb, hab⟩ := hx'
      rcases Nat.lt_or_ge n j with hj | hj
      · obtain ⟨k, rfl⟩ : ∃ k, j = n + 1 + k := ⟨j - (n + 1), by omega⟩
        rw [hbehind] at hb
        rcases Nat.lt_or_ge n i with hi | hi
        · obtain ⟨l, rfl⟩ : ∃ l, i = n + 1 + l := ⟨i - (n + 1), by omega⟩
          rw [hbehind] at ha
          exact absurd ⟨l, k, a, b, by omega, ha, hb, hab⟩ he
        · rw [hbefore i hi] at ha
          exact passes_of_shared hx he hy (hid.trans h.sameId.symm) hi ha hb hab
      · rw [hbefore j hj] at hb
        rw [hbefore i (by omega)] at ha
        exact absurd ⟨i, j, a, b, hij, ha, hb, hab⟩ hx
    · obtain ⟨k, z, hz, hzid⟩ := hback
      exact ⟨0, n + 1 + (k + 1), x, z, by omega, rfl, (hbehind (k + 1)).trans hz, hzid.symm⟩
  · rw [(h.sameAbove hpasses).revisits_iff]
    exact ⟨fun hx' => absurd hx' hx, fun ⟨hpasses', _⟩ => absurd hpasses' hpasses⟩

/-- The new chain does not meet an entity that is found and whose way comes to the entity. -/
lemma not_revisits_of_found (hx : ¬ r.Revisits x) (he : ¬ r.Revisits e')
    (hfound : r.entity? x.id = some x) : ¬ r'.Revisits x := by
  rw [h.revisits_iff_passes hx he]
  rintro ⟨hpasses, steps, y, hy, hid⟩
  obtain rfl : x = y := Option.some.inj (hfound.symm.trans (hid ▸ found_of_ancestor?_succ hy))
  exact h.not_passes he (hpasses.trans hy)

end Rerouted

end Registry

namespace Model

variable {m : Model} {e : Entity}

lemma rerouted_changeEntity (hown : m.ownEntity? e.id = some e) (base : Option String) :
    m.registry.Rerouted (m.changeEntity e.id (·.rebased base)).registry e (e.rebased base) := by
  have hid (x : Entity) : (x.rebased base).id = x.id := rfl
  refine ⟨rfl, ?_, ?_, fun id hne => ?_⟩
  · change m.entity? e.id = some e
    rw [entity?_eq, hown, Option.some_or]
  · change Model.entity? _ e.id = _
    rw [entity?_eq, ownEntity?_changeEntity hid, hown, Option.map_some, Option.some_or]
  · exact entity?_changeEntity_of_ne hid hne

lemma setBase_run (hown : m.ownEntity? e.id = some e) (base : Option String) :
    (Edit.setBase e.id base).run m =
      match (m.changeEntity e.id (·.rebased base)).registry.lineage (e.rebased base) with
      | .ok _ => .ok () (m.changeEntity e.id (·.rebased base))
      | .error err => .error err m := by
  rw [Edit.run_setBase, hown]
  rfl

lemma setBase_succeeds_iff (hown : m.ownEntity? e.id = some e) (base : Option String) :
    (∃ m', (Edit.setBase e.id base).run m = .ok () m') ↔
      ¬ m.registry.Revisits (e.rebased base) := by
  rw [← (rerouted_changeEntity hown base).revisits_iff, ← Registry.lineage_eq_ok_iff,
    setBase_run hown]
  cases (m.changeEntity e.id (·.rebased base)).registry.lineage (e.rebased base) with
  | ok chain => exact ⟨fun _ => ⟨chain, rfl⟩, fun _ => ⟨_, rfl⟩⟩
  | error err => exact ⟨nofun, nofun⟩

/-- What becomes of the chains when a base is set. It is refused just when the chain of the entity with
the new base would come back to an identifier, and then nothing has changed. Else the chain of the
entity ends. That of any other entity which has ended before does so now, unless it leads to the entity
and the new chain meets its identifier. An entity that look-ups find is never met in that way; so with
unique identifiers no chain comes back that has not done so before. -/
theorem Reachable.rebasing_keeps_chains (h : m.Reachable) (he : e ∈ m.entities)
    (base : Option String) :
    ((∃ m', (Edit.setBase e.id base).run m = .ok () m') ↔
      ¬ m.registry.Revisits (e.rebased base)) ∧
    (∀ err m', (Edit.setBase e.id base).run m = .error err m' → m' = m) ∧
    ∀ m', (Edit.setBase e.id base).run m = .ok () m' →
      m' = m.changeEntity e.id (·.rebased base) ∧ ¬ m'.registry.Revisits (e.rebased base) ∧
      (∀ x, ¬ m.registry.Revisits x →
        (m'.registry.Revisits x ↔
          m.registry.Passes x e.id ∧ m.registry.Passes (e.rebased base) x.id) ∧
        (m.entity? x.id = some x → ¬ m'.registry.Revisits x)) ∧
      (m.UniqueIds → ∀ x ∈ m.allEntities, ¬ m.registry.Revisits x → ¬ m'.registry.Revisits x) := by
  have hown := ownEntity?_of_mem h.grown.nodup_ids he
  have hrerouted := rerouted_changeEntity hown base
  have hsucceeds := setBase_succeeds_iff hown base
  refine ⟨hsucceeds, fun err m' => Edit.isAtomic_setBase e.id base m err m', fun m' hok => ?_⟩
  have hends := hsucceeds.mp ⟨m', hok⟩
  obtain rfl : m' = m.changeEntity e.id (·.rebased base) := (Edit.setBase_eq_ok hok).2
  refine ⟨rfl, fun hback => hends (hrerouted.revisits_iff.mp hback), fun x hx => ?_,
    fun hunique x hx hnot => ?_⟩
  · exact ⟨hrerouted.revisits_iff_passes hx hends, hrerouted.not_revisits_of_found hx hends⟩
  · have hdistinct := hunique.nodup_map .entity (·.entities) (·.id) fun _ => rfl
    have hfound : m.registry.entity? x.id = some x := Registry.entity?_of_distinct hdistinct hx
    exact hrerouted.not_revisits_of_found hnot hends hfound

namespace HiddenBehindInclude

def low : Entity := Entity.ofName "Low" "Low"

/-- An entity that derives from one that is not there yet. -/
def nested : Entity := { Entity.ofName "Shared" "Shared" with base := some "Low" }

def inner : Model := (Edit.addEntity nested).after (ofNameSpace none)

def middle : Model := (Edit.addInclude inner).after (ofNameSpace none)

/-- Look-ups find the own entity of the identifier of `nested`, which is there by way of an include of
an include. -/
def outer : Model :=
  (Edit.addInclude middle).after
    ((Edit.addEntity low).after
      ((Edit.addEntity (Entity.ofName "Shared" "Shared")).after (ofNameSpace none)))

lemma reachable_outer : outer.Reachable := by
  have hinner : inner.Reachable := .change (.addEntity nested) (.start none)
  have hmiddle : middle.Reachable := .combine (.start none) hinner
  exact .combine (.change (.addEntity low) (.change (.addEntity _) (.start none))) hmiddle

lemma outer_entities : outer.entities = [Entity.ofName "Shared" "Shared", low] := rfl

lemma chain_ends (e : Entity) (ids : List String)
    (h : (outer.registry.lineage e).toOption.map (·.map (·.id)) = some ids) :
    ¬ outer.registry.Revisits e := by
  obtain ⟨chain, hchain, -⟩ := exists_ok_of_map h
  exact Registry.not_revisits_of_lineage hchain

lemma nested_ends : ¬ outer.registry.Revisits nested :=
  chain_ends nested ["Shared", "Low"] (by decide +kernel)

lemma rebased_ends : ¬ outer.registry.Revisits (low.rebased (some "Shared")) :=
  chain_ends _ ["Low", "Shared"] (by decide +kernel)

theorem rebasing_keeps_chains_nested : outer.Reachable ∧ low ∈ outer.entities ∧
    ¬ outer.registry.Revisits nested ∧
    ∃ m', (Edit.setBase "Low" (some "Shared")).run outer = .ok () m' ∧
      (m'.registry.Revisits nested ↔ outer.registry.Passes nested "Low" ∧
        outer.registry.Passes (low.rebased (some "Shared")) "Shared") := by
  have hlow : low ∈ outer.entities := by simp [outer_entities]
  obtain ⟨hsucceeds, -, hafter⟩ := reachable_outer.rebasing_keeps_chains hlow (some "Shared")
  obtain ⟨m', hok⟩ := hsucceeds.mpr rebased_ends
  exact ⟨reachable_outer, hlow, nested_ends, m', hok,
    ((hafter m' hok).2.2.1 nested nested_ends).1⟩

/-- A base that is accepted may close a cycle elsewhere. -/
theorem setBase_not_keeps_chains :
    ¬ ∀ m : Model, m.Reachable → ∀ e ∈ m.entities, ∀ (base : Option String) (m' : Model),
      (Edit.setBase e.id base).run m = .ok () m' → ∀ x ∈ m.allEntities, x ∈ m'.allEntities →
        ¬ m.registry.Revisits x → ¬ m'.registry.Revisits x := by
  intro h
  have hown : outer.ownEntity? low.id = some low := rfl
  have hrerouted := rerouted_changeEntity hown (some "Shared")
  obtain ⟨m', hok⟩ := (setBase_succeeds_iff hown (some "Shared")).mpr rebased_ends
  obtain rfl := (Edit.setBase_eq_ok hok).2
  have hbefore : outer.allEntities = [Entity.ofName "Shared" "Shared", low, nested] := rfl
  have hafter : (outer.changeEntity low.id (·.rebased (some "Shared"))).allEntities =
      [Entity.ofName "Shared" "Shared", low.rebased (some "Shared"), nested] := rfl
  -- the nested entity leads to `low`, and that leads to the identifier that they share
  have hcloses : outer.registry.Passes nested low.id ∧
      outer.registry.Passes (low.rebased (some "Shared")) nested.id :=
    ⟨⟨0, low, rfl, rfl⟩, 0, Entity.ofName "Shared" "Shared", rfl, rfl⟩
  exact h outer reachable_outer low (by simp [outer_entities]) (some "Shared") _ hok nested
    (by simp [hbefore]) (hafter ▸ by simp) nested_ends
    ((hrerouted.revisits_iff_passes nested_ends rebased_ends).mpr hcloses)

end HiddenBehindInclude

end Model

end EntityModel
