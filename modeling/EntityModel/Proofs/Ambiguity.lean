import Mathlib.Data.List.Pairwise
import EntityModel.Join
import EntityModel.Proofs.Outcome
import EntityModel.Proofs.Reachable
import EntityModel.Proofs.Soundness

/-!
# Ambiguous joins

A listing notes the join keys of relations one after the other and fails at the first that has been
noted before. What it has gone through without failing is therefore told apart by join keys. The
binary relations and the self relations of an entity are gone through, each together with the binary
relations of its base. The listing of both shapes goes through the binary ones only.
-/

namespace EntityModel

namespace Registry

/-- Two relations come down to one join. -/
def SameJoin (r : Registry) (a b : Relation) : Prop :=
  ∃ key, r.joinKey a = .ok key ∧ r.joinKey b = .ok key

/-- No two relations at different positions come down to one join. -/
def JoinsApart (r : Registry) (l : List PlacedRelation) : Prop :=
  ∀ a ∈ l, ∀ b ∈ l, a.2 ≠ b.2 → ¬ r.SameJoin a.1 b.1

variable {r : Registry} {e b : Entity} {withDisabled : Bool} {l l' : List PlacedRelation}

lemma SameJoin.symm {a b : Relation} (h : r.SameJoin a b) : r.SameJoin b a := by
  obtain ⟨key, ha, hb⟩ := h
  exact ⟨key, hb, ha⟩

lemma sameJoin_iff {a b : Relation} : r.SameJoin a b ↔
    (r.joinKey a).toOption.isSome ∧ (r.joinKey a).toOption = (r.joinKey b).toOption := by
  unfold SameJoin
  cases r.joinKey a with
  | error err => simp [Except.toOption]
  | ok key => cases r.joinKey b <;> simp [Except.toOption, eq_comm]

instance (a b : Relation) : Decidable (r.SameJoin a b) := decidable_of_iff' _ sameJoin_iff

instance : Decidable (r.JoinsApart l) :=
  inferInstanceAs (Decidable (∀ a ∈ l, ∀ b ∈ l, a.2 ≠ b.2 → ¬ r.SameJoin a.1 b.1))

lemma JoinsApart.of_subset (h : r.JoinsApart l') (hsub : l ⊆ l') : r.JoinsApart l :=
  fun a ha b hb => h a (hsub ha) b (hsub hb)

lemma joinsApart_of_pairwise (h : l.Pairwise fun a b => ¬ r.SameJoin a.1 b.1) :
    r.JoinsApart l := by
  have hsymm : Std.Symm fun a b : PlacedRelation => ¬ r.SameJoin a.1 b.1 :=
    ⟨fun _ _ hab hba => hab hba.symm⟩
  intro a ha b hb hne
  exact h.forall ha hb fun hab => hne (hab ▸ rfl)

/-! ### Going through relations -/

lemma noteJoin_eq_ok_iff {entity : String} {noted noted' : List String} {a : PlacedRelation} :
    r.noteJoin entity noted a = .ok noted' ↔
      ∃ key, r.joinKey a.1 = .ok key ∧ key ∉ noted ∧ noted' = key :: noted := by
  unfold noteJoin
  rw [bind_eq_ok_iff]
  refine exists_congr fun key => and_congr_right fun _ => ?_
  by_cases hnoted : key ∈ noted
  · rw [if_pos (List.contains_iff_mem.mpr hnoted)]
    exact ⟨fun h => (nomatch h), fun h => absurd hnoted h.1⟩
  · rw [if_neg (by simpa using hnoted)]
    exact ⟨fun h => ⟨hnoted, by cases h; rfl⟩, fun ⟨_, h⟩ => by rw [h]; rfl⟩

lemma noteJoin_of_noted {entity key : String} {noted : List String} {a : PlacedRelation}
    (hkey : r.joinKey a.1 = .ok key) (hnoted : key ∈ noted) :
    r.noteJoin entity noted a = .error (.ambiguousRelation entity key) := by
  unfold noteJoin
  rw [hkey]
  exact if_pos (List.contains_iff_mem.mpr hnoted)

/-- Relations are gone through when each has a key, none of the keys has been noted before, and no two
of the relations come down to one join. -/
theorem foldlM_noteJoin_succeeds_iff {entity : String} {noted : List String} :
    (∃ noted', l.foldlM (r.noteJoin entity) noted = .ok noted') ↔
      (∀ a ∈ l, ∃ key, r.joinKey a.1 = .ok key ∧ key ∉ noted) ∧
        l.Pairwise fun a b => ¬ r.SameJoin a.1 b.1 := by
  induction l generalizing noted with
  | nil => simp [pure, Except.pure]
  | cons a l ih =>
    simp only [List.foldlM_cons, bind_eq_ok_iff, noteJoin_eq_ok_iff]
    rw [List.forall_mem_cons, List.pairwise_cons]
    constructor
    · rintro ⟨noted', _, ⟨key, hkey, hnew, rfl⟩, hrest⟩
      obtain ⟨hkeys, hpairs⟩ := ih.mp ⟨noted', hrest⟩
      refine ⟨⟨⟨key, hkey, hnew⟩, fun b hb => ?_⟩, fun b hb hsame => ?_, hpairs⟩
      · obtain ⟨key', hkey', hnew'⟩ := hkeys b hb
        exact ⟨key', hkey', fun hmem => hnew' (List.mem_cons_of_mem _ hmem)⟩
      · obtain ⟨key', hkey', hnew'⟩ := hkeys b hb
        obtain ⟨shared, ha, hb⟩ := hsame
        cases hkey.symm.trans ha
        cases hkey'.symm.trans hb
        exact hnew' List.mem_cons_self
    · rintro ⟨⟨⟨key, hkey, hnew⟩, hkeys⟩, hapart, hpairs⟩
      have hrest : ∀ b ∈ l, ∃ key', r.joinKey b.1 = .ok key' ∧ key' ∉ key :: noted := by
        intro b hb
        obtain ⟨key', hkey', hnew'⟩ := hkeys b hb
        refine ⟨key', hkey', fun hmem => ?_⟩
        rcases List.mem_cons.mp hmem with rfl | hmem
        · exact hapart b hb ⟨key', hkey, hkey'⟩
        · exact hnew' hmem
      obtain ⟨noted', hnoted⟩ := ih.mpr ⟨hrest, hpairs⟩
      exact ⟨noted', key :: noted, ⟨key, hkey, hnew, rfl⟩, hnoted⟩

/-- What has been gone through in two parts is apart as a whole. -/
lemma pairwise_of_noted {entity : String} {noted noted' : List String}
    (hown : l.foldlM (r.noteJoin entity) [] = .ok noted)
    (hmore : l'.foldlM (r.noteJoin entity) noted = .ok noted') :
    (l ++ l').Pairwise fun a b => ¬ r.SameJoin a.1 b.1 := by
  have hwhole : (l ++ l').foldlM (r.noteJoin entity) [] = .ok noted' := by
    rw [List.foldlM_append, hown]
    exact hmore
  exact (foldlM_noteJoin_succeeds_iff.mp ⟨noted', hwhole⟩).2

/-! ### The relations of an entity -/

/-- A relation is known by its position. -/
lemma eq_of_mem_relationsOf {entity entity' : String} {a b : PlacedRelation}
    (ha : a ∈ r.relationsOf entity withDisabled) (hb : b ∈ r.relationsOf entity' withDisabled)
    (hsame : a.2 = b.2) : a = b := by
  have hplace {id : String} {c : PlacedRelation} (hc : c ∈ r.relationsOf id withDisabled) :
      r.relations[c.2]? = some c.1 :=
    List.mem_zipIdx_iff_getElem?.mp (List.mem_of_mem_filter hc)
  have hrelation := hplace ha
  rw [hsame, hplace hb] at hrelation
  exact Prod.ext (Option.some.inj hrelation).symm hsame

lemma checkChain_eq_ok {chain : List Entity} (h : r.checkChain withDisabled chain = .ok l) :
    l = (chain.take 1).flatMap fun e => r.binaryRelationsOf e.id withDisabled := by
  cases chain with
  | nil =>
    cases h
    rfl
  | cons e rest =>
    unfold checkChain at h
    obtain ⟨_, -, h⟩ := bind_eq_ok_iff.mp h
    obtain ⟨_, -, h⟩ := bind_eq_ok_iff.mp h
    obtain ⟨_, -, h⟩ := bind_eq_ok_iff.mp h
    cases h
    exact (List.append_nil _).symm

lemma checkedBinary_eq_ok (h : r.checkedBinary e withDisabled = .ok l) :
    l = r.binaryRelationsOf e.id withDisabled := by
  obtain ⟨chain, hchain, h⟩ := bind_eq_ok_iff.mp h
  obtain ⟨rest, rfl, -⟩ := lineage_rest hchain
  rw [checkChain_eq_ok h]
  exact List.append_nil _

/-! ### The levels of a chain -/

/-- What is gone through at the first level of a chain: the binary relations of the entity, and those of
its base in which it takes no part itself. -/
def levelRelations (r : Registry) (withDisabled : Bool) (e : Entity) (rest : List Entity) :
    List PlacedRelation :=
  r.binaryRelationsOf e.id withDisabled ++
    ((rest.take 1).flatMap fun b => r.binaryRelationsOf b.id withDisabled).filter fun relation =>
      (r.binaryRelationsOf e.id withDisabled).all (·.2 != relation.2)

lemma checkChain_cons {rest : List Entity} (h : r.checkChain withDisabled rest = .ok l) :
    r.checkChain withDisabled (e :: rest) =
      (r.levelRelations withDisabled e rest).foldlM (r.noteJoin e.id) [] >>= fun _ =>
        .ok (r.binaryRelationsOf e.id withDisabled) := by
  rw [checkChain, h, checkChain_eq_ok h, levelRelations, List.foldlM_append]
  cases (r.binaryRelationsOf e.id withDisabled).foldlM (r.noteJoin e.id) [] <;> rfl

/-- What the check of a chain may come to. Its first level is gone through and so is the rest, or the
error is that of one of them. -/
lemma checkChain_cons_cases (withDisabled : Bool) (e : Entity) (rest : List Entity) :
    (r.checkChain withDisabled (e :: rest) = .ok (r.binaryRelationsOf e.id withDisabled) ∧
      (∃ noted, (r.levelRelations withDisabled e rest).foldlM (r.noteJoin e.id) [] = .ok noted) ∧
      ∃ inherited, r.checkChain withDisabled rest = .ok inherited) ∨
    ∃ err, r.checkChain withDisabled (e :: rest) = .error err ∧
      ((r.levelRelations withDisabled e rest).foldlM (r.noteJoin e.id) [] = .error err ∨
        r.checkChain withDisabled rest = .error err) := by
  cases hrest : r.checkChain withDisabled rest with
  | ok inherited =>
    rw [checkChain_cons hrest]
    cases (r.levelRelations withDisabled e rest).foldlM (r.noteJoin e.id) [] with
    | error err => exact .inr ⟨err, rfl, .inl rfl⟩
    | ok noted => exact .inl ⟨rfl, ⟨noted, rfl⟩, inherited, rfl⟩
  | error err =>
    rw [checkChain, hrest, levelRelations, List.foldlM_append]
    cases (r.binaryRelationsOf e.id withDisabled).foldlM (r.noteJoin e.id) [] with
    | error err' => exact .inr ⟨err', rfl, .inl rfl⟩
    | ok noted => exact .inr ⟨err, rfl, .inr rfl⟩

/-- A relation of the base is gone through, be it as one of the entity. -/
lemma mem_levelRelations_iff {rest : List Entity} {a : PlacedRelation} :
    a ∈ r.levelRelations withDisabled e rest ↔
      a ∈ ((e :: rest).take 2).flatMap fun x => r.binaryRelationsOf x.id withDisabled := by
  rw [List.take_succ_cons, List.flatMap_cons, levelRelations, List.mem_append, List.mem_append,
    List.mem_filter]
  refine ⟨Or.imp_right And.left, fun h => h.elim .inl fun hbase => ?_⟩
  by_cases hshared : ∃ own ∈ r.binaryRelationsOf e.id withDisabled, own.2 = a.2
  · obtain ⟨own, hown, hsame⟩ := hshared
    obtain ⟨b, -, hb⟩ := List.mem_flatMap.mp hbase
    have heq := eq_of_mem_relationsOf (List.mem_of_mem_filter hown) (List.mem_of_mem_filter hb) hsame
    exact .inl (heq ▸ hown)
  · push Not at hshared
    exact .inr ⟨hbase, List.all_eq_true.mpr fun own hown => bne_iff_ne.mpr (hshared own hown)⟩

/-- Once they are checked, the binary relations of an entity and those of its base are apart. -/
lemma joinsApart_of_checkedBinary (h : r.checkedBinary e withDisabled = .ok l) :
    r.JoinsApart (r.binaryRelationsOf e.id withDisabled ++
      (r.base? e).toList.flatMap fun b => r.binaryRelationsOf b.id withDisabled) := by
  obtain ⟨chain, hchain, h⟩ := bind_eq_ok_iff.mp h
  obtain ⟨rest, rfl, hbase, -⟩ := lineage_rest hchain
  have hlevel : ∃ noted,
      (r.levelRelations withDisabled e rest).foldlM (r.noteJoin e.id) [] = .ok noted := by
    rcases checkChain_cons_cases withDisabled e rest with ⟨-, hlevel, -⟩ | ⟨err, herr, -⟩
    · exact hlevel
    · rw [h] at herr
      cases herr
  have hpairs := (foldlM_noteJoin_succeeds_iff.mp hlevel).2
  refine (joinsApart_of_pairwise hpairs).of_subset fun a ha => mem_levelRelations_iff.mpr ?_
  rw [hbase] at ha
  cases rest <;> exact ha

lemma selfRelations_eq_ok {selves : List SelfRelation}
    (h : r.selfRelations e withDisabled = .ok selves) :
    selves = (r.selfRelationsOf e.id withDisabled).filterMap (·.1.self?) ∧
      r.JoinsApart (r.selfRelationsOf e.id withDisabled ++
        (r.base? e).toList.flatMap fun b => r.binaryRelationsOf b.id withDisabled) := by
  unfold selfRelations at h
  obtain ⟨noted, hown, h⟩ := bind_eq_ok_iff.mp h
  cases hbase : r.base? e with
  | none =>
    rw [hbase] at h
    cases h
    have hpairs := (foldlM_noteJoin_succeeds_iff.mp ⟨noted, hown⟩).2
    refine ⟨rfl, ?_⟩
    rw [Option.toList_none, List.flatMap_nil, List.append_nil]
    exact joinsApart_of_pairwise hpairs
  | some b =>
    rw [hbase] at h
    obtain ⟨inherited, hinherited, h⟩ := bind_eq_ok_iff.mp h
    obtain ⟨noted', hmore, h⟩ := bind_eq_ok_iff.mp h
    cases h
    cases checkedBinary_eq_ok hinherited
    refine ⟨rfl, ?_⟩
    rw [Option.toList_some, List.flatMap_singleton]
    exact joinsApart_of_pairwise (pairwise_of_noted hown hmore)

/-- The listing of both shapes goes through nothing but the binary relations. -/
lemma allRelations_eq_ok {listed : List Relation} (h : r.allRelations e withDisabled = .ok listed) :
    listed = (r.relationsOf e.id withDisabled).map (·.1) ∧
      r.JoinsApart (r.binaryRelationsOf e.id withDisabled) := by
  obtain ⟨_, hchecked, h⟩ := bind_eq_ok_iff.mp h
  cases h
  exact ⟨rfl, (joinsApart_of_checkedBinary hchecked).of_subset (List.subset_append_left _ _)⟩

lemma mem_binaryRelationsOf_or {entity : String} {a : PlacedRelation}
    (h : a ∈ r.relationsOf entity withDisabled) :
    a ∈ r.binaryRelationsOf entity withDisabled ∨ a ∈ r.selfRelationsOf entity withDisabled := by
  unfold binaryRelationsOf selfRelationsOf
  rw [List.mem_filter, List.mem_filter]
  cases hshape : a.1 with
  | binary relation => exact .inl ⟨h, rfl⟩
  | self relation => exact .inr ⟨h, rfl⟩

/-- Once the binary relations of an entity are apart, all of its relations are apart just when its
self relations are, among themselves and from the binary ones. -/
lemma joinsApart_relationsOf_iff {entity : String}
    (hbinary : r.JoinsApart (r.binaryRelationsOf entity withDisabled)) :
    r.JoinsApart (r.relationsOf entity withDisabled) ↔
      ∀ a ∈ r.selfRelationsOf entity withDisabled, ∀ b ∈ r.relationsOf entity withDisabled,
        a.2 ≠ b.2 → ¬ r.SameJoin a.1 b.1 := by
  constructor
  · intro h a ha
    exact h a (List.mem_of_mem_filter ha)
  · intro hself a ha b hb hne
    rcases mem_binaryRelationsOf_or ha with habinary | haself
    · rcases mem_binaryRelationsOf_or hb with hbbinary | hbself
      · exact hbinary a habinary b hbbinary hne
      · exact fun hsame => hself b hbself a ha hne.symm hsame.symm
    · exact hself a haself b hb hne

/-- What is listed of an entity. A listing of its binary relations or of its self relations has no two
of one join, and none that comes down to one join with a binary relation of the base. A listing of
both shapes has no two binary relations of one join; it is free of ambiguous joins just when no self
relation in it shares its join with another relation. -/
theorem listed_joins_apart (r : Registry) (e : Entity) (withDisabled : Bool) :
    (∀ listed, r.binaryRelations e withDisabled = .ok listed →
      listed = (r.binaryRelationsOf e.id withDisabled).filterMap (·.1.binary?) ∧
        r.JoinsApart (r.binaryRelationsOf e.id withDisabled ++
          (r.base? e).toList.flatMap fun b => r.binaryRelationsOf b.id withDisabled)) ∧
    (∀ listed, r.selfRelations e withDisabled = .ok listed →
      listed = (r.selfRelationsOf e.id withDisabled).filterMap (·.1.self?) ∧
        r.JoinsApart (r.selfRelationsOf e.id withDisabled ++
          (r.base? e).toList.flatMap fun b => r.binaryRelationsOf b.id withDisabled)) ∧
    ∀ listed, r.allRelations e withDisabled = .ok listed →
      listed = (r.relationsOf e.id withDisabled).map (·.1) ∧
        r.JoinsApart (r.binaryRelationsOf e.id withDisabled) ∧
        (r.JoinsApart (r.relationsOf e.id withDisabled) ↔
          ∀ a ∈ r.selfRelationsOf e.id withDisabled, ∀ b ∈ r.relationsOf e.id withDisabled,
            a.2 ≠ b.2 → ¬ r.SameJoin a.1 b.1) := by
  refine ⟨fun listed h => ?_, fun listed h => selfRelations_eq_ok h, fun listed h => ?_⟩
  · obtain ⟨checked, hchecked, h⟩ := bind_eq_ok_iff.mp h
    cases h
    cases checkedBinary_eq_ok hchecked
    exact ⟨rfl, joinsApart_of_checkedBinary hchecked⟩
  · obtain ⟨hlisted, hbinary⟩ := allRelations_eq_ok h
    exact ⟨hlisted, hbinary, joinsApart_relationsOf_iff hbinary⟩

end Registry

/-! A customer that is linked to itself by a table, once or twice, and that orders have. -/

namespace Model.LinkedCustomer

def link : Relation :=
  .self (.ofEnds "links" "Customer" (.ofField "from") (.ofField "to"))

def order : Relation :=
  .binary (.ofEnds "orders" (.ofField "Order" "order") (.ofField "Customer" "customer"))

def customer : Entity := Entity.ofName "Customer" "Customer"

def changes : List Change :=
  [.addFragment (.ofName "links" "links"), .addFragment (.ofName "orders" "orders"),
    .addEntity customer, .addEntity (Entity.ofName "Order" "Order"), .addRelation link,
    .addRelation order]

def once : Schema := Schema.flatten (ofChanges changes) .default

theorem listed_joins_apart_once :
    (∃ listed, once.registry.binaryRelations customer false = .ok listed ∧ listed.length = 1) ∧
      (∃ listed, once.registry.selfRelations customer false = .ok listed ∧ listed.length = 1) ∧
      once.registry.allRelations customer false = .ok [link, order] ∧
      once.registry.JoinsApart (once.registry.relationsOf customer.id false) := by
  obtain ⟨hbinary, hself, hall⟩ := Registry.listed_joins_apart once.registry customer false
  have hplaced : once.registry.relationsOf customer.id false = [(link, 0), (order, 1)] := by
    decide +kernel
  obtain ⟨binaries, hbinaries⟩ : ∃ listed, once.registry.binaryRelations customer false = .ok listed :=
    exists_eq_ok (by decide +kernel)
  obtain ⟨selves, hselves⟩ : ∃ listed, once.registry.selfRelations customer false = .ok listed :=
    exists_eq_ok (by decide +kernel)
  obtain ⟨listed, hlisted⟩ : ∃ listed, once.registry.allRelations customer false = .ok listed :=
    exists_eq_ok (by decide +kernel)
  refine ⟨⟨binaries, hbinaries, ?_⟩, ⟨selves, hselves, ?_⟩, ?_⟩
  · rw [(hbinary binaries hbinaries).1]
    decide +kernel
  · rw [(hself selves hselves).1]
    decide +kernel
  · obtain ⟨rfl, -, hiff⟩ := hall listed hlisted
    rw [hlisted, hplaced]
    exact ⟨rfl, by rw [← hplaced]; exact hiff.mpr (by decide +kernel)⟩

/-- The same customer, linked once more. -/
def twice : Model := ofChanges (changes ++ [.addRelation link])

lemma build_twice : twice.build .default = .ok (Schema.flatten twice .default) :=
  build_of_problems (by decide +kernel) (by decide +kernel)

end Model.LinkedCustomer

open Model.LinkedCustomer in
/-- In a schema that has been built, the relations of both shapes of an entity may be listed although
two of them come down to one join. -/
theorem Schema.build_not_joinsApart :
    ¬ ∀ (m : Model) (settings : Settings) (s : Schema) (e : Entity) (withDisabled : Bool)
      (listed : List Relation), m.Reachable → m.build settings = .ok s → e ∈ s.entities →
      s.registry.allRelations e withDisabled = .ok listed →
      s.registry.JoinsApart (s.registry.relationsOf e.id withDisabled) := by
  intro h
  have hambiguous : ∃ e ∈ (Schema.flatten twice .default).entities,
      ((Schema.flatten twice .default).registry.allRelations e false).toOption.isSome ∧
        ¬ (Schema.flatten twice .default).registry.JoinsApart
          ((Schema.flatten twice .default).registry.relationsOf e.id false) := by
    decide +kernel
  obtain ⟨e, he, hsome, hambiguous⟩ := hambiguous
  obtain ⟨listed, hlisted⟩ := exists_eq_ok hsome
  exact hambiguous (h _ _ _ _ _ _ (Model.reachable_ofChanges _) build_twice he hlisted)

end EntityModel
