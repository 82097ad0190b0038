import EntityModel.Proofs.Ancestry
import EntityModel.Proofs.JoinKeys

/-!
# When the relations of an entity are found

The levels of a chain are its entities, each with the base behind it. Listing the binary relations of
an entity fails just when two relations of one level of its chain meet in a join key. Since the chain
of an entity has the levels of all its ancestors, what fails for an ancestor fails for the entity.
-/

namespace EntityModel

namespace Registry

/-- The binary relations of the entity at a place of a chain and of the one behind it. -/
def levelAt (r : Registry) (withDisabled : Bool) (chain : List Entity) (place : Nat) :
    List PlacedRelation :=
  ((chain.drop place).take 2).flatMap fun e => r.binaryRelationsOf e.id withDisabled

/-- Two relations at different positions have a key in common. -/
def Meet (r : Registry) (l : List PlacedRelation) (key : String) : Prop :=
  ∃ a ∈ l, ∃ b ∈ l, a.2 ≠ b.2 ∧ r.joinKey a.1 = .ok key ∧ r.joinKey b.1 = .ok key

variable {r : Registry} {e b : Entity} {withDisabled : Bool} {chain rest : List Entity}
  {l l' : List PlacedRelation} {key entity : String} {err : ModelError}

lemma Meet.mono (h : r.Meet l key) (hsub : l ⊆ l') : r.Meet l' key := by
  obtain ⟨a, ha, b, hb, hmeet⟩ := h
  exact ⟨a, hsub ha, b, hsub hb, hmeet⟩

lemma joinsApart_iff_not_meet : r.JoinsApart l ↔ ∀ key, ¬ r.Meet l key := by
  constructor
  · rintro h key ⟨a, ha, b, hb, hne, hkey, hkey'⟩
    exact h a ha b hb hne ⟨key, hkey, hkey'⟩
  · rintro h a ha b hb hne ⟨key, hkey, hkey'⟩
    exact h key ⟨a, ha, b, hb, hne, hkey, hkey'⟩

/-! ### Going through one level -/

/-- Going through relations at different positions fails at one that has the key of an earlier one. -/
lemma foldlM_noteJoin_error {noted : List String} (hkeys : ∀ a ∈ l, ∃ key, r.joinKey a.1 = .ok key)
    (hplaces : l.Pairwise fun a b => a.2 ≠ b.2)
    (h : l.foldlM (r.noteJoin entity) noted = .error err) :
    ∃ key, err = .ambiguousRelation entity key ∧
      (r.Meet l key ∨ key ∈ noted ∧ ∃ a ∈ l, r.joinKey a.1 = .ok key) := by
  induction l generalizing noted with
  | nil => cases h
  | cons a l ih =>
    obtain ⟨hplace, hplaces⟩ := List.pairwise_cons.mp hplaces
    obtain ⟨⟨key, hkey⟩, hkeys⟩ := List.forall_mem_cons.mp hkeys
    by_cases hnoted : key ∈ noted
    · rw [List.foldlM_cons, noteJoin_of_noted hkey hnoted] at h
      cases h
      exact ⟨key, rfl, .inr ⟨hnoted, a, List.mem_cons_self, hkey⟩⟩
    · have hnote : r.noteJoin entity noted a = .ok (key :: noted) :=
        noteJoin_eq_ok_iff.mpr ⟨key, hkey, hnoted, rfl⟩
      rw [List.foldlM_cons, hnote] at h
      obtain ⟨key', rfl, hmeet | ⟨hmem, b, hb, hkey'⟩⟩ := ih hkeys hplaces h
      · exact ⟨key', rfl, .inl (hmeet.mono (List.subset_cons_self _ _))⟩
      · refine ⟨key', rfl, ?_⟩
        rcases List.mem_cons.mp hmem with rfl | hmem
        · exact .inl ⟨a, List.mem_cons_self, b, List.mem_cons_of_mem _ hb, hplace b hb, hkey, hkey'⟩
        · exact .inr ⟨hmem, b, List.mem_cons_of_mem _ hb, hkey'⟩

lemma pairwise_places_binaryRelationsOf (entity : String) :
    (r.binaryRelationsOf entity withDisabled).Pairwise fun a b => a.2 ≠ b.2 := by
  have hplaces : (r.relations.zipIdx.map Prod.snd).Nodup := by
    rw [List.zipIdx_map_snd]
    exact List.nodup_range'
  have hsub : r.binaryRelationsOf entity withDisabled |>.Sublist r.relations.zipIdx :=
    List.filter_sublist.trans List.filter_sublist
  exact (List.pairwise_map.mp hplaces).sublist hsub

/-- A relation that an entity shares with its base is gone through once. -/
lemma pairwise_places_levelRelations (e : Entity) (rest : List Entity) :
    (r.levelRelations withDisabled e rest).Pairwise fun a b => a.2 ≠ b.2 := by
  refine List.pairwise_append.mpr ⟨pairwise_places_binaryRelationsOf _, ?_, ?_⟩
  · refine List.Pairwise.filter _ ?_
    cases rest with
    | nil => exact List.Pairwise.nil
    | cons b rest =>
      rw [List.take_succ_cons, List.take_zero, List.flatMap_singleton]
      exact pairwise_places_binaryRelationsOf _
  · intro a ha b hb
    exact bne_iff_ne.mp (List.all_eq_true.mp (List.mem_filter.mp hb).2 a ha)

lemma mem_binaryRelationsOf_iff {a : PlacedRelation} :
    a ∈ r.binaryRelationsOf entity withDisabled ↔ r.relations[a.2]? = some a.1 ∧
      a.1.takesPart entity = true ∧ accepts withDisabled a.1 = true ∧ a.1.binary?.isSome = true := by
  rw [binaryRelationsOf, relationsOf, List.mem_filter, List.mem_filter, Bool.and_eq_true,
    List.mem_zipIdx_iff_getElem?, and_assoc, and_assoc]

lemma exists_joinKey_of_mem_level
    (hkeys : ∀ relation ∈ r.relations, ∃ key, r.joinKey relation = .ok key) :
    ∀ a ∈ r.levelRelations withDisabled e rest, ∃ key, r.joinKey a.1 = .ok key := by
  intro a ha
  obtain ⟨x, -, hx⟩ := List.mem_flatMap.mp (mem_levelRelations_iff.mp ha)
  exact hkeys a.1 (List.mem_of_getElem? (mem_binaryRelationsOf_iff.mp hx).1)

/-! ### The levels of a chain -/

lemma levelAt_succ (place : Nat) :
    r.levelAt withDisabled (e :: rest) (place + 1) = r.levelAt withDisabled rest place := rfl

lemma levelAt_of_length_le {place : Nat} (h : chain.length ≤ place) :
    r.levelAt withDisabled chain place = [] := by
  rw [levelAt, List.drop_eq_nil_of_le h]
  rfl

lemma levelAt_append (before chain : List Entity) (place : Nat) :
    r.levelAt withDisabled (before ++ chain) (before.length + place) =
      r.levelAt withDisabled chain place := by
  rw [levelAt, List.drop_length_add_append]
  rfl

lemma meet_levelAt_zero_iff : r.Meet (r.levelAt withDisabled (e :: rest) 0) key ↔
    r.Meet (r.levelRelations withDisabled e rest) key :=
  ⟨fun h => h.mono fun _ ha => mem_levelRelations_iff.mpr ha,
    fun h => h.mono fun _ ha => mem_levelRelations_iff.mp ha⟩

/-- What is enabled is accepted along with what is disabled. -/
lemma levelAt_enabled_subset (place : Nat) :
    r.levelAt false chain place ⊆ r.levelAt true chain place := by
  intro a ha
  obtain ⟨x, hx, ha⟩ := List.mem_flatMap.mp ha
  obtain ⟨hplace, hpart, -, hshape⟩ := mem_binaryRelationsOf_iff.mp ha
  exact List.mem_flatMap.mpr ⟨x, hx, mem_binaryRelationsOf_iff.mpr ⟨hplace, hpart, rfl, hshape⟩⟩

/-- The check of a chain when every relation has a key. It comes to the relations of the first entity
when relations meet at no level, and else to an error that names such a level. -/
theorem checkChain_cases (hkeys : ∀ relation ∈ r.relations, ∃ key, r.joinKey relation = .ok key)
    (withDisabled : Bool) (chain : List Entity) :
    (r.checkChain withDisabled chain =
        .ok ((chain.take 1).flatMap fun e => r.binaryRelationsOf e.id withDisabled) ∧
      ∀ place key, ¬ r.Meet (r.levelAt withDisabled chain place) key) ∨
    ∃ place x key, chain[place]? = some x ∧
      r.checkChain withDisabled chain = .error (.ambiguousRelation x.id key) ∧
      r.Meet (r.levelAt withDisabled chain place) key := by
  induction chain with
  | nil =>
    refine .inl ⟨rfl, fun place key => ?_⟩
    rintro ⟨a, ha, -⟩
    rw [levelAt_of_length_le (Nat.zero_le place)] at ha
    cases ha
  | cons e rest ih =>
    rcases checkChain_cons_cases withDisabled e rest with
      ⟨hok, hlevel, inherited, hrest⟩ | ⟨err, herr, hlevel | hrest⟩
    · refine .inl ⟨by rw [hok]; simp, fun place key => ?_⟩
      cases place with
      | zero =>
        have hapart := joinsApart_of_pairwise (foldlM_noteJoin_succeeds_iff.mp hlevel).2
        rw [meet_levelAt_zero_iff]
        exact joinsApart_iff_not_meet.mp hapart key
      | succ place =>
        rcases ih with ⟨-, hnone⟩ | ⟨_, _, _, -, hfail, -⟩
        · rw [levelAt_succ]
          exact hnone place key
        · rw [hrest] at hfail
          cases hfail
    · obtain ⟨key, rfl, hmeet | ⟨hmem, -⟩⟩ := foldlM_noteJoin_error
        (exists_joinKey_of_mem_level hkeys) (pairwise_places_levelRelations e rest) hlevel
      · exact .inr ⟨0, e, key, rfl, herr, meet_levelAt_zero_iff.mpr hmeet⟩
      · cases hmem
    · rcases ih with ⟨hok, -⟩ | ⟨place, x, key, hx, hfail, hmeet⟩
      · rw [hrest] at hok
        cases hok
      · rw [hrest] at hfail
        cases hfail
        refine .inr ⟨place + 1, x, key, hx, herr, ?_⟩
        rwa [levelAt_succ]

/-! ### Listing binary relations -/

/-- The binary relations with an entity at one of their ends, in the order of the registry. -/
def listedBinary (r : Registry) (entity : String) (withDisabled : Bool) : List BinaryRelation :=
  (r.relations.filterMap (·.binary?)).filter fun relation =>
    (relation.left.entity == entity || relation.right.entity == entity) &&
      (withDisabled || !relation.disabled)

lemma filterMap_binaryRelationsOf (entity : String) :
    (r.binaryRelationsOf entity withDisabled).filterMap (·.1.binary?) =
      r.listedBinary entity withDisabled := by
  unfold binaryRelationsOf relationsOf listedBinary
  conv_rhs => rw [← List.zipIdx_map_fst 0 r.relations]
  rw [List.filterMap_filter, List.filterMap_filter, List.filter_filterMap, List.filterMap_map]
  refine List.filterMap_congr fun a _ => ?_
  obtain ⟨relation | relation, place⟩ := a
  · simp [Relation.binary?, Relation.takesPart, accepts, Relation.disabled, Option.filter]
  · simp [Relation.binary?]

lemma listedBinary_enabled (entity : String) :
    r.listedBinary entity false = (r.listedBinary entity true).filter (! ·.disabled) := by
  unfold listedBinary
  rw [List.filter_filter]
  refine List.filter_congr fun relation _ => ?_
  simp [Bool.and_comm]

/-- The binary relations of an entity are listed when relations meet at no level of its chain, and
else the error names such a level. -/
lemma Sound.binaryRelations_cases (h : r.Sound) (hchain : r.lineage e = .ok chain)
    (withDisabled : Bool) :
    (r.binaryRelations e withDisabled = .ok (r.listedBinary e.id withDisabled) ∧
      ∀ place key, ¬ r.Meet (r.levelAt withDisabled chain place) key) ∨
    ∃ place x key, chain[place]? = some x ∧
      r.binaryRelations e withDisabled = .error (.ambiguousRelation x.id key) ∧
      r.Meet (r.levelAt withDisabled chain place) key := by
  have hkeys : ∀ relation ∈ r.relations, ∃ key, r.joinKey relation = .ok key :=
    fun relation hrelation => ⟨_, h.joinKey_eq hrelation⟩
  have hlisting : r.binaryRelations e withDisabled =
      (r.checkChain withDisabled chain).map (·.filterMap (·.1.binary?)) := by
    unfold binaryRelations checkedBinary
    rw [hchain]
    rfl
  obtain ⟨rest, rfl, -⟩ := lineage_rest hchain
  rcases checkChain_cases hkeys withDisabled (e :: rest) with
    ⟨hok, hnone⟩ | ⟨place, x, key, hx, hfail, hmeet⟩
  · refine .inl ⟨?_, hnone⟩
    rw [hlisting, hok, ← filterMap_binaryRelationsOf, List.take_succ_cons, List.take_zero,
      List.flatMap_singleton]
    rfl
  · exact .inr ⟨place, x, key, hx, by rw [hlisting, hfail]; rfl, hmeet⟩

namespace Sound

section Listing

variable (h : r.Sound) (hchain : r.lineage e = .ok chain)

include h hchain

lemma binaryRelations_of_not_meet
    (hnone : ∀ place key, ¬ r.Meet (r.levelAt withDisabled chain place) key) :
    r.binaryRelations e withDisabled = .ok (r.listedBinary e.id withDisabled) := by
  rcases h.binaryRelations_cases hchain withDisabled with ⟨hok, -⟩ | ⟨place, _, key, -, -, hmeet⟩
  · exact hok
  · exact absurd hmeet (hnone place key)

lemma binaryRelations_of_meet {place : Nat}
    (hmeet : r.Meet (r.levelAt withDisabled chain place) key) :
    ∃ entity key, r.binaryRelations e withDisabled = .error (.ambiguousRelation entity key) := by
  rcases h.binaryRelations_cases hchain withDisabled with ⟨-, hnone⟩ | ⟨_, x, key', -, hfail, -⟩
  · exact absurd hmeet (hnone place key)
  · exact ⟨x.id, key', hfail⟩

lemma binaryRelations_eq_error (hfail : r.binaryRelations e withDisabled = .error err) :
    ∃ place x key, chain[place]? = some x ∧ err = .ambiguousRelation x.id key ∧
      r.Meet (r.levelAt withDisabled chain place) key := by
  rcases h.binaryRelations_cases hchain withDisabled with
    ⟨hok, -⟩ | ⟨place, x, key, hx, hfail', hmeet⟩
  · rw [hfail] at hok
    cases hok
  · rw [hfail] at hfail'
    exact ⟨place, x, key, hx, Except.error.inj hfail', hmeet⟩

/-- Relations that meet without the disabled ones meet among all. -/
lemma binaryRelations_enabled {listed : List BinaryRelation}
    (hlisted : r.binaryRelations e true = .ok listed) :
    r.binaryRelations e false = .ok (listed.filter (! ·.disabled)) := by
  rcases h.binaryRelations_cases hchain true with ⟨hok, hnone⟩ | ⟨_, _, _, -, hfail, -⟩
  · rw [hlisted] at hok
    rw [Except.ok.inj hok, ← listedBinary_enabled]
    refine h.binaryRelations_of_not_meet hchain fun place key hmeet => ?_
    exact hnone place key (hmeet.mono (levelAt_enabled_subset place))
  · rw [hlisted] at hfail
    cases hfail

end Listing

end Sound

/-- The chain of an entity ends with that of each ancestor, so that it has the levels of the ancestor. -/
lemma Sound.exists_meet_of_ancestor (h : r.Sound) {d : Entity} {chain' : List Entity} {steps : Nat}
    (hd : d ∈ r.entities) (hancestor : r.ancestor? d steps = some e)
    (hchain : r.lineage e = .ok chain) (hchain' : r.lineage d = .ok chain') {place : Nat}
    (hmeet : r.Meet (r.levelAt withDisabled chain place) key) :
    ∃ place', r.Meet (r.levelAt withDisabled chain' place') key := by
  rw [ancestor?_of_lineage hchain'] at hancestor
  obtain ⟨-, rest, hrest, before, rfl⟩ :=
    lineage_of_mem (h.entity?_of_mem hd) hchain' (List.mem_of_getElem? hancestor)
  cases hchain.symm.trans hrest
  exact ⟨before.length + place, by rwa [levelAt_append]⟩

end Registry

/-- Listing the binary relations of an entity of a schema that has been built. It fails just when two
relations at different positions meet in a key at one level of the chain, among those of an entity of
the chain and of its base. The error names such a level. Where none meet, the binary relations in which
the entity takes part come out, in the order of the registry. So what fails for an entity fails for all
that derive from it, and when the listing with the disabled relations succeeds, its enabled ones are
the listing without. -/
theorem Schema.binary_relations_fail_iff_meet {m : Model} {settings : Settings} {s : Schema}
    {e : Entity} (hbuild : m.build settings = .ok s) (he : e ∈ s.entities) (withDisabled : Bool) :
    ∃ chain, s.registry.lineage e = .ok chain ∧
      ((∃ entity key,
          s.registry.binaryRelations e withDisabled = .error (.ambiguousRelation entity key)) ↔
        ∃ place key, s.registry.Meet (s.registry.levelAt withDisabled chain place) key) ∧
      (∀ err, s.registry.binaryRelations e withDisabled = .error err →
        ∃ place x key, chain[place]? = some x ∧ err = .ambiguousRelation x.id key ∧
          s.registry.Meet (s.registry.levelAt withDisabled chain place) key) ∧
      ((∀ place key, ¬ s.registry.Meet (s.registry.levelAt withDisabled chain place) key) →
        s.registry.binaryRelations e withDisabled =
          .ok (s.registry.listedBinary e.id withDisabled)) ∧
      (∀ d ∈ s.entities, ∀ steps, s.registry.ancestor? d steps = some e →
        ∀ err, s.registry.binaryRelations e withDisabled = .error err → ∃ entity key,
          s.registry.binaryRelations d withDisabled = .error (.ambiguousRelation entity key)) ∧
      ∀ listed, s.registry.binaryRelations e true = .ok listed →
        s.registry.binaryRelations e false = .ok (listed.filter (! ·.disabled)) := by
  obtain ⟨-, -, hsound⟩ := Model.build_eq_ok_iff.mp hbuild
  obtain ⟨chain, hchain⟩ := hsound.chains e he
  refine ⟨chain, hchain, ⟨?_, ?_⟩, fun err hfail => ?_, fun hnone => ?_, ?_, fun listed hlisted => ?_⟩
  · rintro ⟨entity, key, hfail⟩
    obtain ⟨place, _, key', -, -, hmeet⟩ := hsound.binaryRelations_eq_error hchain hfail
    exact ⟨place, key', hmeet⟩
  · rintro ⟨place, key, hmeet⟩
    exact hsound.binaryRelations_of_meet hchain hmeet
  · exact hsound.binaryRelations_eq_error hchain hfail
  · exact hsound.binaryRelations_of_not_meet hchain hnone
  · intro d hd steps hancestor err hfail
    obtain ⟨chain', hchain'⟩ := hsound.chains d hd
    obtain ⟨place, _, key, -, -, hmeet⟩ := hsound.binaryRelations_eq_error hchain hfail
    obtain ⟨place', hmeet'⟩ :=
      hsound.exists_meet_of_ancestor hd hancestor hchain hchain' hmeet
    exact hsound.binaryRelations_of_meet hchain' hmeet'
  · exact hsound.binaryRelations_enabled hchain hlisted

/-! A customer that orders have twice, once of that disabled, and that favoured customers derive from
and refer to. -/

namespace Model.ReferredCustomer

def order : BinaryRelation :=
  .ofEnds "orders" (.ofField "Order" "order") (.ofField "Customer" "customer")

/-- Favoured customers and customers both take part in it. -/
def referral : BinaryRelation :=
  .ofEnds "links" (.ofField "Favoured" "from") (.ofField "Customer" "to")

def customer : Entity := Entity.ofName "Customer" "Customer"

def favoured : Entity := { Entity.ofName "Favoured" "Favoured" with base := some "Customer" }

def changes : List Change :=
  [.addFragment (.ofName "orders" "orders"), .addFragment (.ofName "links" "links"),
    .addEntity customer, .addEntity favoured, .addEntity (Entity.ofName "Order" "Order"),
    .addRelation (.binary order), .addRelation (.binary referral),
    .addRelation (.binary { order with disabled := true })]

def schema : Schema := Schema.flatten (ofChanges changes) .default

lemma build_schema : (ofChanges changes).build .default = .ok schema :=
  build_of_problems (by decide +kernel) (by decide +kernel)

theorem binary_relations_fail_iff_meet_customer :
    (ofChanges changes).build .default = .ok schema ∧ customer ∈ schema.entities ∧
      favoured ∈ schema.entities ∧
      (∃ chain place key, schema.registry.lineage customer = .ok chain ∧
        schema.registry.Meet (schema.registry.levelAt true chain place) key) ∧
      (∃ entity key,
        schema.registry.binaryRelations favoured true = .error (.ambiguousRelation entity key)) ∧
      schema.registry.binaryRelations favoured false = .ok [referral] := by
  have hcustomer : schema.registry.entity? "Customer" = some customer := rfl
  have hfavoured : schema.registry.entity? "Favoured" = some favoured := rfl
  have hmem : customer ∈ schema.entities := (schema.registry.mem_of_entity? hcustomer).1
  have hmem' : favoured ∈ schema.entities := (schema.registry.mem_of_entity? hfavoured).1
  have hroot : schema.registry.lineage customer = .ok [customer] := Registry.lineage_root rfl
  obtain ⟨chain, hchain, hiff, -, -, hderived, -⟩ :=
    Schema.binary_relations_fail_iff_meet build_schema hmem true
  cases hroot.symm.trans hchain
  have hmeet : schema.registry.Meet (schema.registry.levelAt true [customer] 0)
      "orders|Order:order|Customer:customer" :=
    ⟨(.binary order, 0), by decide +kernel, (.binary { order with disabled := true }, 2),
      by decide +kernel, by decide, rfl, rfl⟩
  obtain ⟨entity, key, hfail⟩ := hiff.mpr ⟨0, _, hmeet⟩
  refine ⟨build_schema, hmem, hmem', ⟨_, 0, _, hchain, hmeet⟩, hderived favoured hmem' 1 rfl _ hfail, ?_⟩
  obtain ⟨chain', hchain', -, -, hlisted, -⟩ :=
    Schema.binary_relations_fail_iff_meet build_schema hmem' false
  obtain ⟨rest, rfl, hbase, hrest⟩ := Registry.lineage_rest hchain'
  cases hroot.symm.trans (hrest customer rfl)
  refine hlisted fun place => Registry.joinsApart_iff_not_meet.mp ?_
  match place with
  | 0 => decide +kernel
  | 1 => decide +kernel
  | place + 2 =>
    rw [Registry.levelAt_of_length_le (by simp)]
    exact fun a ha => absurd ha List.not_mem_nil

end Model.ReferredCustomer

end EntityModel
