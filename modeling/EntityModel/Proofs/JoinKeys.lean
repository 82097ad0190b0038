import EntityModel.Proofs.Ambiguity
import Mathlib.Tactic.MkIffOfInductiveProp

/-!
# What a join key tells

A join key is one text, with separators between the table, the two ends and the root of the underlying
entity. Relations of one physical join have one key. The other way round the parts can be read back
from a key where no separator occurs in the texts that make it up. They are then the parts of the
join, but for the selector of the table and for the identifier of the root: the key has the names only.
-/

namespace EntityModel

section Separated

variable {separator : Char} {x x' y y' : List Char} {l l' : List (List Char)}

/-- The first separator tells what is in front of it from what is behind. -/
lemma separated_inj (hx : separator ∉ x) (hx' : separator ∉ x')
    (h : x ++ separator :: y = x' ++ separator :: y') : x = x' ∧ y = y' := by
  have hsplit := congrArg (List.splitOn separator) h
  rw [List.splitOn_append_cons_self_of_not_mem hx, List.splitOn_append_cons_self_of_not_mem hx']
    at hsplit
  obtain ⟨rfl, -⟩ := List.cons.inj hsplit
  exact ⟨rfl, (List.cons.inj (List.append_cancel_left h)).2⟩

lemma splitOn_separated (hl : ∀ t ∈ l, separator ∉ t) :
    ([separator].intercalate l).splitOn separator = if l = [] then [[]] else l := by
  by_cases hnil : l = []
  · rw [if_pos hnil, hnil]
    rfl
  · rw [if_neg hnil, List.splitOn_intercalate separator hl hnil]

/-- Texts with separators between them can be told, but for no text at all from one that is empty. -/
lemma intercalate_inj (hl : ∀ t ∈ l, separator ∉ t) (hl' : ∀ t ∈ l', separator ∉ t)
    (hne : l ≠ [[]]) (hne' : l' ≠ [[]])
    (h : [separator].intercalate l = [separator].intercalate l') : l = l' := by
  have hsplit := congrArg (List.splitOn separator) h
  rw [splitOn_separated hl, splitOn_separated hl'] at hsplit
  by_cases hnil : l = []
  · by_cases hnil' : l' = []
    · rw [hnil, hnil']
    · rw [if_pos hnil, if_neg hnil'] at hsplit
      exact absurd hsplit.symm hne'
  · by_cases hnil' : l' = []
    · rw [if_neg hnil, if_pos hnil'] at hsplit
      exact absurd hsplit hne
    · rwa [if_neg hnil, if_neg hnil'] at hsplit

lemma mem_intercalate {c : Char} (h : c ∈ [separator].intercalate l) :
    c = separator ∨ ∃ t ∈ l, c ∈ t := by
  induction l with
  | nil => cases h
  | cons t l ih =>
    cases l with
    | nil => exact .inr ⟨t, List.mem_singleton_self t, by simpa using h⟩
    | cons u l =>
      rw [List.intercalate_cons_cons, List.mem_append, List.mem_append, List.mem_singleton] at h
      rcases h with (h | h) | h
      · exact .inr ⟨t, List.mem_cons_self, h⟩
      · exact .inl h
      · exact (ih h).imp_right fun ⟨t, ht, hc⟩ => ⟨t, List.mem_cons_of_mem _ ht, hc⟩

lemma map_toList_inj {fields fields' : List String} :
    fields.map String.toList = fields'.map String.toList ↔ fields = fields' :=
  List.map_inj_right fun _ _ => String.toList_injective

end Separated

/-! ### The ends of a join -/

/-- One end of a join, without what is declared about how it is reached. -/
@[ext]
structure JoinEnd where
  entity : String
  fields : List String
  deriving DecidableEq

namespace JoinEnd

def key (e : JoinEnd) : String := e.entity ++ ":" ++ ",".intercalate e.fields

/-- No separator occurs in the texts of an end, and its columns are not a single one without a name. -/
@[mk_iff]
structure Readable (e : JoinEnd) : Prop where
  entity : '|' ∉ e.entity.toList ∧ ':' ∉ e.entity.toList
  fields : ∀ field ∈ e.fields, '|' ∉ field.toList ∧ ',' ∉ field.toList
  named : e.fields ≠ [""]

variable {e e' : JoinEnd}

instance : Decidable e.Readable := decidable_of_iff' _ (readable_iff e)

lemma toList_key (e : JoinEnd) :
    e.key.toList = e.entity.toList ++ ':' :: [','].intercalate (e.fields.map String.toList) := by
  simp [key]

lemma Readable.bar_notMem (h : e.Readable) : '|' ∉ e.key.toList := by
  intro hmem
  rw [toList_key, List.mem_append, List.mem_cons] at hmem
  rcases hmem with hmem | hcolon | hmem
  · exact h.entity.1 hmem
  · exact absurd hcolon (by decide)
  · rcases mem_intercalate hmem with hcomma | ⟨t, ht, hmem⟩
    · exact absurd hcomma (by decide)
    · obtain ⟨field, hfield, rfl⟩ := List.mem_map.mp ht
      exact (h.fields field hfield).1 hmem

lemma Readable.comma_notMem (h : e.Readable) : ∀ t ∈ e.fields.map String.toList, ',' ∉ t := by
  intro t ht
  obtain ⟨field, hfield, rfl⟩ := List.mem_map.mp ht
  exact (h.fields field hfield).2

lemma Readable.named_toList (h : e.Readable) : e.fields.map String.toList ≠ [[]] := by
  intro heq
  have hempty : e.fields.map String.toList = [""].map String.toList := heq
  exact h.named (map_toList_inj.mp hempty)

/-- The key of a readable end is that of no other one. -/
lemma key_inj (h : e.Readable) (h' : e'.Readable) (hkey : e.key = e'.key) : e = e' := by
  have htext := congrArg String.toList hkey
  rw [toList_key, toList_key] at htext
  obtain ⟨hentity, hfields⟩ := separated_inj h.entity.2 h'.entity.2 htext
  have hsame := intercalate_inj h.comma_notMem h'.comma_notMem h.named_toList h'.named_toList hfields
  exact JoinEnd.ext (String.toList_injective hentity) (map_toList_inj.mp hsame)

end JoinEnd

/-! ### The text of a key -/

/-- The text that a join key comes down to. -/
def joinText (table : String) (direct reverse : JoinEnd) (root : Option String) : String :=
  table ++ "|" ++ direct.key ++ "|" ++ reverse.key ++ root.elim "" ("|" ++ ·)

section JoinText

variable {table table' : String} {direct direct' reverse reverse' : JoinEnd}
  {root root' : Option String}

lemma toList_joinText : (joinText table direct reverse root).toList =
    table.toList ++ '|' :: (direct.key.toList ++ '|' ::
      (reverse.key.toList ++ root.elim [] fun name => '|' :: name.toList)) := by
  cases root <;> simp [joinText]

/-- What has no bar in it can be told from a root behind it. -/
lemma rooted_inj {x x' : List Char} (hx : '|' ∉ x) (hx' : '|' ∉ x')
    (h : (x ++ root.elim [] fun name => '|' :: name.toList) =
      x' ++ root'.elim [] fun name => '|' :: name.toList) : x = x' ∧ root = root' := by
  cases root with
  | none =>
    cases root' with
    | none => exact ⟨by simpa using h, rfl⟩
    | some name =>
      rw [Option.elim_none, List.append_nil] at h
      exact absurd (by simp [h]) hx
  | some name =>
    cases root' with
    | none =>
      rw [Option.elim_none, List.append_nil] at h
      exact absurd (by simp [← h]) hx'
    | some name' =>
      obtain ⟨rfl, hname⟩ := separated_inj hx hx' h
      exact ⟨rfl, congrArg some (String.toList_injective hname)⟩

/-- The text of a key tells its parts where they are readable. -/
theorem joinText_inj (htable : '|' ∉ table.toList) (htable' : '|' ∉ table'.toList)
    (hdirect : direct.Readable) (hdirect' : direct'.Readable) (hreverse : reverse.Readable)
    (hreverse' : reverse'.Readable)
    (h : joinText table direct reverse root = joinText table' direct' reverse' root') :
    table = table' ∧ direct = direct' ∧ reverse = reverse' ∧ root = root' := by
  have htext := congrArg String.toList h
  rw [toList_joinText, toList_joinText] at htext
  obtain ⟨hsame, htext⟩ := separated_inj htable htable' htext
  obtain ⟨hkey, htext⟩ := separated_inj hdirect.bar_notMem hdirect'.bar_notMem htext
  obtain ⟨hkey', hroot⟩ := rooted_inj hreverse.bar_notMem hreverse'.bar_notMem htext
  exact ⟨String.toList_injective hsame,
    JoinEnd.key_inj hdirect hdirect' (String.toList_injective hkey),
    JoinEnd.key_inj hreverse hreverse' (String.toList_injective hkey'), hroot⟩

end JoinText

namespace Relation

def directEnd : Relation → JoinEnd
  | binary r => ⟨r.left.entity, r.left.fields⟩
  | self r => ⟨r.entity, r.direct.fields⟩

def reverseEnd : Relation → JoinEnd
  | binary r => ⟨r.right.entity, r.right.fields⟩
  | self r => ⟨r.entity, r.reverse.fields⟩

lemma endpointKeys_eq (relation : Relation) :
    relation.endpointKeys = (relation.directEnd.key, relation.reverseEnd.key) := by
  cases relation <;> rfl

end Relation

namespace Registry

/-- The last entity of the chain of an entity that is registered, where that ends. -/
def rootOf? (r : Registry) (id : String) : Option Entity :=
  (r.entity? id).bind fun e => (r.lineage e).toOption.bind (·.getLast?)

def tableName (r : Registry) (relation : Relation) : String :=
  ((r.fragment? relation.sourceFragment).map (·.name)).getD relation.sourceFragment

/-- The root of the underlying entity of a relation. -/
def joinRoot? (r : Registry) (relation : Relation) : Option Entity :=
  relation.underlyingEntity.bind r.rootOf?

/-- Two relations stand for one join: they have one table and the same ends, and they keep their joins
in no entity or in entities of one root. -/
@[mk_iff]
structure SamePhysicalJoin (r : Registry) (a b : Relation) : Prop where
  table : ∃ f ∈ r.fragment? a.sourceFragment, ∃ g ∈ r.fragment? b.sourceFragment,
    f.samePhysical g = true
  direct : a.directEnd = b.directEnd
  reverse : a.reverseEnd = b.reverseEnd
  underlying : a.underlyingEntity.isSome = b.underlyingEntity.isSome
  root : r.joinRoot? a = r.joinRoot? b

/-- No separator occurs in the texts that make up the key of a relation. -/
@[mk_iff]
structure Readable (r : Registry) (relation : Relation) : Prop where
  table : '|' ∉ (r.tableName relation).toList
  direct : relation.directEnd.Readable
  reverse : relation.reverseEnd.Readable

variable {r : Registry} {e : Entity} {chain : List Entity} {a b relation : Relation}

lemma entity?_of_joinRoot? {root : Entity} (h : r.joinRoot? relation = some root) :
    r.entity? root.id = some root := by
  obtain ⟨id, -, h⟩ := Option.bind_eq_some_iff.mp h
  obtain ⟨e, hfound, h⟩ := Option.bind_eq_some_iff.mp h
  obtain ⟨chain, hchain, hlast⟩ := Option.bind_eq_some_iff.mp h
  have hentity : r.entity? e.id = some e := by rw [(r.mem_of_entity? hfound).2, hfound]
  cases hlineage : r.lineage e with
  | error err =>
    rw [hlineage] at hchain
    cases hchain
  | ok chain' =>
    rw [hlineage] at hchain
    cases hchain
    exact (lineage_of_mem hentity hlineage (List.mem_of_getLast? hlast)).1

/-- A root is known by its identifier. -/
lemma joinRoot?_inj : (r.joinRoot? a).map (·.id) = (r.joinRoot? b).map (·.id) ↔
    r.joinRoot? a = r.joinRoot? b := by
  have hread (c : Relation) : r.joinRoot? c = ((r.joinRoot? c).map (·.id)).bind r.entity? := by
    cases h : r.joinRoot? c with
    | none => rfl
    | some root => exact (entity?_of_joinRoot? h).symm
  refine ⟨fun h => ?_, fun h => by rw [h]⟩
  rw [hread a, h, ← hread b]

instance : Decidable (r.SamePhysicalJoin a b) :=
  decidable_of_iff
    (((r.fragment? a.sourceFragment).any fun f =>
      (r.fragment? b.sourceFragment).any f.samePhysical) = true ∧
      a.directEnd = b.directEnd ∧ a.reverseEnd = b.reverseEnd ∧
      a.underlyingEntity.isSome = b.underlyingEntity.isSome ∧
      (r.joinRoot? a).map (·.id) = (r.joinRoot? b).map (·.id)) <| by
    simp only [Option.any_eq_true, Option.mem_def, joinRoot?_inj, samePhysicalJoin_iff]

instance : Decidable (r.Readable a) := decidable_of_iff' _ (readable_iff r a)

lemma joinKey_eq (r : Registry) (relation : Relation) : r.joinKey relation =
    match relation.underlyingEntity with
    | none => .ok (joinText (r.tableName relation) relation.directEnd relation.reverseEnd none)
    | some underlying => (r.rootName underlying).map fun name =>
        joinText (r.tableName relation) relation.directEnd relation.reverseEnd (some name) := by
  unfold joinKey joinText tableName
  rw [relation.endpointKeys_eq]
  cases relation.underlyingEntity with
  | none => cases r.fragment? relation.sourceFragment <;> simp [pure, Except.pure]
  | some underlying =>
    dsimp only
    cases r.rootName underlying with
    | error err => rfl
    | ok name =>
      cases r.fragment? relation.sourceFragment <;>
        simp [bind, Except.bind, pure, Except.pure, Except.map, String.append_assoc]

lemma rootOf?_of_lineage {id : String} (hfound : r.entity? id = some e)
    (h : r.lineage e = .ok chain) : r.rootOf? id = chain.getLast? := by
  rw [rootOf?, hfound, Option.bind_some, h]
  rfl

/-- The name of a root is that of the last entity of the chain. -/
lemma rootName_of_lineage {id : String} (hfound : r.entity? id = some e)
    (h : r.lineage e = .ok chain) :
    ∃ root, r.rootOf? id = some root ∧ r.rootName id = .ok root.name := by
  obtain ⟨rest, rfl, -⟩ := lineage_rest h
  have hlast : (e :: rest).getLast? = some ((e :: rest).getLast (List.cons_ne_nil _ _)) :=
    List.getLast?_eq_some_getLast _
  have hroot : (if 1 < (e :: rest).length then (e :: rest).getLast? else none).getD e =
      (e :: rest).getLast (List.cons_ne_nil _ _) := by
    cases rest with
    | nil => rfl
    | cons b rest => rw [if_pos (by simp), hlast, Option.getD_some]
  refine ⟨_, (rootOf?_of_lineage hfound h).trans hlast, ?_⟩
  rw [← hroot]
  unfold rootName superBase?
  simp only [hfound, h]
  rfl

namespace Sound

/-- In a sound registry the underlying entities of relations have roots. -/
lemma exists_root (h : r.Sound) {id : String} (hknown : r.isKnown id = true) :
    ∃ root, r.rootOf? id = some root ∧ r.rootName id = .ok root.name := by
  obtain ⟨e, hfound⟩ := Option.isSome_iff_exists.mp hknown
  obtain ⟨chain, hchain⟩ := h.chains e (r.mem_of_entity? hfound).1
  exact rootName_of_lineage hfound hchain

lemma isSome_joinRoot? (h : r.Sound) (hrelation : relation ∈ r.relations) :
    (r.joinRoot? relation).isSome = relation.underlyingEntity.isSome := by
  unfold joinRoot?
  cases hunderlying : relation.underlyingEntity with
  | none => rfl
  | some id => 
    have hknown := (h.relations relation hrelation).2 id (by simp [Relation.entities, hunderlying])
    obtain ⟨root, hroot, -⟩ := h.exists_root hknown
    rw [Option.bind_some, hroot]
    rfl

/-- The join key of a relation of a sound registry. -/
lemma joinKey_eq (h : r.Sound) (hrelation : relation ∈ r.relations) :
    r.joinKey relation = .ok (joinText (r.tableName relation) relation.directEnd relation.reverseEnd
      ((r.joinRoot? relation).map (·.name))) := by
  rw [Registry.joinKey_eq, joinRoot?]
  cases hunderlying : relation.underlyingEntity with
  | none => rfl
  | some id =>
    have hknown := (h.relations relation hrelation).2 id (by simp [Relation.entities, hunderlying])
    obtain ⟨root, hroot, hname⟩ := h.exists_root hknown
    simp only [hname, Option.bind_some, hroot]
    rfl

lemma exists_table (h : r.Sound) (hrelation : relation ∈ r.relations) :
    ∃ f, r.fragment? relation.sourceFragment = some f ∧ r.tableName relation = f.name := by
  obtain ⟨f, hf⟩ := Option.isSome_iff_exists.mp (h.relations relation hrelation).1
  refine ⟨f, hf, ?_⟩
  rw [tableName, hf]
  rfl

section Pair

variable (h : r.Sound) (ha : a ∈ r.relations) (hb : b ∈ r.relations)

include h ha hb

lemma sameJoin_iff_joinText : r.SameJoin a b ↔
    joinText (r.tableName a) a.directEnd a.reverseEnd ((r.joinRoot? a).map (·.name)) =
      joinText (r.tableName b) b.directEnd b.reverseEnd ((r.joinRoot? b).map (·.name)) := by
  unfold SameJoin
  rw [h.joinKey_eq ha, h.joinKey_eq hb]
  constructor
  · rintro ⟨key, hkey, hkey'⟩
    exact Except.ok.inj (hkey.trans hkey'.symm)
  · intro hsame
    exact ⟨_, rfl, congrArg _ hsame.symm⟩

lemma sameJoin_of_physical (hsame : r.SamePhysicalJoin a b) : r.SameJoin a b := by
  obtain ⟨f, hf, hname⟩ := h.exists_table ha
  obtain ⟨g, hg, hname'⟩ := h.exists_table hb
  obtain ⟨f', hf', g', hg', hphysical⟩ := hsame.table
  cases hf.symm.trans hf'
  cases hg.symm.trans hg'
  have htable : f.name = g.name := by
    rw [SourceFragment.samePhysical, Bool.and_eq_true, beq_iff_eq] at hphysical
    exact hphysical.1
  rw [h.sameJoin_iff_joinText ha hb, hname, hname', htable, hsame.direct, hsame.reverse, hsame.root]

/-- Readable relations come down to one join when the key tells them alike: by the name of the table,
both ends, and the name of the root. -/
lemma sameJoin_iff_of_readable (hread : r.Readable a) (hread' : r.Readable b) : r.SameJoin a b ↔
    r.tableName a = r.tableName b ∧ a.directEnd = b.directEnd ∧ a.reverseEnd = b.reverseEnd ∧
      (r.joinRoot? a).map (·.name) = (r.joinRoot? b).map (·.name) := by
  rw [h.sameJoin_iff_joinText ha hb]
  constructor
  · exact joinText_inj hread.table hread'.table hread.direct hread'.direct hread.reverse
      hread'.reverse
  · rintro ⟨htable, hdirect, hreverse, hroot⟩
    rw [htable, hdirect, hreverse, hroot]

lemma samePhysicalJoin_iff_of_readable (hread : r.Readable a) (hread' : r.Readable b) :
    r.SamePhysicalJoin a b ↔ r.SameJoin a b ∧
      (r.fragment? a.sourceFragment).map (·.selector) =
        (r.fragment? b.sourceFragment).map (·.selector) ∧
      r.joinRoot? a = r.joinRoot? b := by
  obtain ⟨f, hf, hname⟩ := h.exists_table ha
  obtain ⟨g, hg, hname'⟩ := h.exists_table hb
  constructor
  · intro hsame
    obtain ⟨f', hf', g', hg', hphysical⟩ := hsame.table
    cases hf.symm.trans hf'
    cases hg.symm.trans hg'
    rw [SourceFragment.samePhysical, Bool.and_eq_true, beq_iff_eq, beq_iff_eq] at hphysical
    refine ⟨h.sameJoin_of_physical ha hb hsame, ?_, hsame.root⟩
    rw [hf, hg, Option.map_some, Option.map_some, hphysical.2]
  · rintro ⟨hsame, hselector, hroot⟩
    obtain ⟨htable, hdirect, hreverse, -⟩ := (h.sameJoin_iff_of_readable ha hb hread hread').mp hsame
    have hunderlying : a.underlyingEntity.isSome = b.underlyingEntity.isSome := by
      rw [← h.isSome_joinRoot? ha, ← h.isSome_joinRoot? hb, hroot]
    rw [hf, hg] at hselector
    refine ⟨⟨f, hf, g, hg, ?_⟩, hdirect, hreverse, hunderlying, hroot⟩
    rw [SourceFragment.samePhysical, Bool.and_eq_true, beq_iff_eq, beq_iff_eq]
    exact ⟨by rw [← hname, ← hname', htable], Option.some.inj hselector⟩

end Pair

end Sound

end Registry

/-- Relations of one physical join have one key in a schema that has been built. Where no separator
occurs in their texts, relations have one key just when they agree in the name of the table, in both
ends and in the name of the root. They are then one physical join just when their tables agree in the
selector as well and their roots are one entity. -/
theorem Schema.join_key_identifies {m : Model} {settings : Settings} {s : Schema} {a b : Relation}
    (hbuild : m.build settings = .ok s) (ha : a ∈ s.relations) (hb : b ∈ s.relations) :
    (s.registry.SamePhysicalJoin a b → s.registry.SameJoin a b) ∧
      (s.registry.Readable a → s.registry.Readable b →
        (s.registry.SameJoin a b ↔
          s.registry.tableName a = s.registry.tableName b ∧ a.directEnd = b.directEnd ∧
            a.reverseEnd = b.reverseEnd ∧
            (s.registry.joinRoot? a).map (·.name) = (s.registry.joinRoot? b).map (·.name)) ∧
        (s.registry.SamePhysicalJoin a b ↔ s.registry.SameJoin a b ∧
          (s.registry.fragment? a.sourceFragment).map (·.selector) =
            (s.registry.fragment? b.sourceFragment).map (·.selector) ∧
          s.registry.joinRoot? a = s.registry.joinRoot? b)) := by
  obtain ⟨-, -, hsound⟩ := Model.build_eq_ok_iff.mp hbuild
  refine ⟨hsound.sameJoin_of_physical ha hb, fun hread hread' => ⟨?_, ?_⟩⟩
  · exact hsound.sameJoin_iff_of_readable ha hb hread hread'
  · exact hsound.samePhysicalJoin_iff_of_readable ha hb hread hread'

/-! Orders of customers that are kept in lines, in gift lines, which are lines, and in lines that have
nothing to do with those but the name. -/

namespace Model.KeptInLines

def keptIn (underlying : String) : Relation :=
  .binary { BinaryRelation.ofEnds "links" (.ofField "Order" "order") (.ofField "Customer" "customer")
    with underlyingEntity := some underlying }

def changes : List Change :=
  [.addFragment (.ofName "links" "links"), .addEntity (Entity.ofName "Customer" "Customer"),
    .addEntity (Entity.ofName "Order" "Order"), .addEntity (Entity.ofName "OrderLine" "Line"),
    .addEntity { Entity.ofName "GiftLine" "GiftLine" with base := some "OrderLine" },
    .addEntity (Entity.ofName "ChatLine" "Line"), .addRelation (keptIn "OrderLine"),
    .addRelation (keptIn "GiftLine"), .addRelation (keptIn "ChatLine")]

def schema : Schema := Schema.flatten (ofChanges changes) .default

lemma build_schema : (ofChanges changes).build .default = .ok schema :=
  build_of_problems (by decide +kernel) (by decide +kernel)

theorem join_key_identifies_gifts :
    (ofChanges changes).build .default = .ok schema ∧ keptIn "OrderLine" ∈ schema.relations ∧
      keptIn "GiftLine" ∈ schema.relations ∧ schema.registry.Readable (keptIn "OrderLine") ∧
      schema.registry.Readable (keptIn "GiftLine") ∧
      schema.registry.SameJoin (keptIn "OrderLine") (keptIn "GiftLine") ∧
      schema.registry.SamePhysicalJoin (keptIn "OrderLine") (keptIn "GiftLine") := by
  have horder : keptIn "OrderLine" ∈ schema.relations := by decide +kernel
  have hgift : keptIn "GiftLine" ∈ schema.relations := by decide +kernel
  have hread : schema.registry.Readable (keptIn "OrderLine") := by decide +kernel
  have hread' : schema.registry.Readable (keptIn "GiftLine") := by decide +kernel
  obtain ⟨-, hreadable⟩ := Schema.join_key_identifies build_schema horder hgift
  obtain ⟨hkey, hphysical⟩ := hreadable hread hread'
  have hsame : schema.registry.SameJoin (keptIn "OrderLine") (keptIn "GiftLine") :=
    hkey.mpr (by decide +kernel)
  have hroot : schema.registry.joinRoot? (keptIn "OrderLine") =
      schema.registry.joinRoot? (keptIn "GiftLine") :=
    Registry.joinRoot?_inj.mp (by decide +kernel)
  exact ⟨build_schema, horder, hgift, hread, hread', hsame,
    hphysical.mpr ⟨hsame, by decide +kernel, hroot⟩⟩

end Model.KeptInLines

open Model.KeptInLines in
/-- In a schema that has been built, relations may have one key although they are different joins. -/
theorem Schema.build_not_identified :
    ¬ ∀ (m : Model) (settings : Settings) (s : Schema) (a b : Relation), m.Reachable →
      m.build settings = .ok s → a ∈ s.relations → b ∈ s.relations →
      (s.registry.SameJoin a b ↔ s.registry.SamePhysicalJoin a b) := by
  intro h
  have hiff := h _ _ _ (keptIn "OrderLine") (keptIn "ChatLine") (Model.reachable_ofChanges changes)
    build_schema (by decide +kernel) (by decide +kernel)
  have hsame : schema.registry.SameJoin (keptIn "OrderLine") (keptIn "ChatLine") := by
    decide +kernel
  have hdifferent : ¬ schema.registry.SamePhysicalJoin (keptIn "OrderLine") (keptIn "ChatLine") := by
    decide +kernel
  exact hdifferent (hiff.mp hsame)

end EntityModel
