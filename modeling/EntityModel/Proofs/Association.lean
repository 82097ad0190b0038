import EntityModel.Join
import EntityModel.Proofs.Memoization
import EntityModel.Proofs.Narrowing

/-!
# References along a line of inheritance

A reference that is inherited from level to level may be narrowed at each of them, and every level
decides anew whether it counts as narrowed. An entity relation is implemented by it when it has been
narrowed at the last level, or at none.
-/

namespace EntityModel

namespace Registry

variable (r : Registry)

/-- What a reference refers to when it has been inherited along a line of entities, given from the
last to the first. -/
def narrowedAlong (target : String) : List String → String
  | [] => target
  | e :: line =>
    (r.narrowedTarget? e (narrowedAlong target line)).getD (narrowedAlong target line)

def narrowings (target : String) : List String → List Bool
  | [] => []
  | e :: line =>
    (r.narrowedTarget? e (r.narrowedAlong target line)).isSome :: narrowings target line

/-- The reference is narrowed at the last entity of the line, or at none. -/
def CountsAlong (target : String) (line : List String) : Prop :=
  (r.narrowings target line).head? = some true ∨ true ∉ r.narrowings target line

/-- `Inherits p line e q` says that a property `p` has come down the line as the property `q` in the
complete view of its last entity `e`. -/
inductive Inherits (r : Registry) (p : Property) : List String → Entity → Property → Prop where
  | declared {e view : Entity} (hfound : r.entity? e.id = some e) (hp : p ∈ e.properties)
      (hview : r.complete e.id = .ok view) (hq : p.ownedBy e.id ∈ view.properties) :
      Inherits r p [] e (p.ownedBy e.id)
  | handed {line : List String} {b e view : Entity} {q : Property} (h : Inherits r p line b q)
      (hfound : r.entity? e.id = some e) (hbase : r.base? e = some b)
      (hview : r.complete e.id = .ok view)
      (hq : r.inheritedCopy e.id view.fragments q ∈ view.properties) :
      Inherits r p (e.id :: line) e (r.inheritedCopy e.id view.fragments q)

variable {r} {p q : Property} {line : List String} {e : Entity} {target derived : String}

lemma narrow_reference (hon : r.options.narrowReferences = true) (completing : String)
    (type : TypeReference) (hkind : type.kind = .entity target) :
    r.narrow completing type =
      (⟨type.id, .entity ((r.narrowedTarget? completing target).getD target)⟩,
        (r.narrowedTarget? completing target).isSome) := by
  obtain ⟨id, kind⟩ := type
  cases hkind
  unfold narrow
  rw [hon]
  dsimp only [TypeReference.target?, TypeKind.target?, Option.filter]
  rw [if_pos rfl]
  dsimp only
  cases r.narrowedTarget? completing target <;> rfl

theorem Inherits.type_eq (h : r.Inherits p line e q) (hon : r.options.narrowReferences = true)
    (hkind : p.type.kind = .entity target) :
    q.type.id = p.type.id ∧ q.type.kind = .entity (r.narrowedAlong target line) := by
  induction h with
  | declared hfound hp hview hq => exact ⟨rfl, hkind⟩
  | @handed line b e view q h hfound hbase hview hq ih =>
    obtain ⟨hid, hentity⟩ := ih
    have hnarrow := narrow_reference hon e.id q.type hentity
    have htype : (r.inheritedCopy e.id view.fragments q).type = (r.narrow e.id q.type).1 := rfl
    rw [htype, hnarrow, hid]
    exact ⟨rfl, rfl⟩

lemma Inherits.refreshed_eq {d : String} (h : r.Inherits p (d :: line) e q)
    (hon : r.options.narrowReferences = true) (hkind : p.type.kind = .entity target) :
    q.refreshed = (r.narrowedTarget? d (r.narrowedAlong target line)).isSome := by
  cases h with
  | @handed _ b _ view q h hfound hbase hview hq =>
    have hnarrow := narrow_reference hon e.id q.type (h.type_eq hon hkind).2
    have hflag : (r.inheritedCopy e.id view.fragments q).refreshed = (r.narrow e.id q.type).2 := rfl
    rw [hflag, hnarrow]

lemma Inherits.mem_view (h : r.Inherits p line e q) :
    ∃ view, r.complete e.id = .ok view ∧ q ∈ view.properties := by
  cases h with
  | declared hfound hp hview hq => exact ⟨_, hview, hq⟩
  | handed h hfound hbase hview hq => exact ⟨_, hview, hq⟩

lemma Inherits.declaration (h : r.Inherits p line e q) : ∃ a ∈ r.entities, p ∈ a.properties := by
  induction h with
  | declared hfound hp hview hq => exact ⟨_, (r.mem_of_entity? hfound).1, hp⟩
  | handed h hfound hbase hview hq ih => exact ih

/-- Every property of a complete view has come down some line. -/
lemma exists_inherits {view : Entity} (hfound : r.entity? e.id = some e)
    (hview : r.complete e.id = .ok view) (hq : q ∈ view.properties) :
    ∃ p line, r.Inherits p line e q := by
  obtain ⟨e', chain, hfound', hchain, -⟩ := complete_eq_ok hview
  cases hfound.symm.trans hfound'
  induction chain generalizing e view q with
  | nil => cases mem_lineage_self hchain
  | cons x rest ih =>
    obtain ⟨_, hcons, -, hrest⟩ := lineage_rest hchain
    cases hcons
    rcases mem_complete_properties hfound hview hq with ⟨p, hp, rfl⟩ | ⟨b, old, hbase, hold, q, hq', rfl⟩
    · exact ⟨p, [], .declared hfound hp hview hq⟩
    · have hb := (base?_eq_some hbase).2
      obtain ⟨p, line, h⟩ := ih hb hold hq' hb (hrest b hbase)
      exact ⟨p, _, .handed h hfound hbase hview hq⟩

namespace Sound

lemma height_lt_of_subtype (h : r.Sound) (hknown : r.isKnown target = true)
    (hd : derived ∈ r.activeSubtypes target) :
    r.isKnown derived = true ∧ r.height target < r.height derived := by
  obtain ⟨e, he, hbase, -, rfl⟩ := mem_activeSubtypes.mp hd
  obtain ⟨b, hb⟩ := Option.isSome_iff_exists.mp hknown
  obtain ⟨chain, hchain⟩ := h.chains e he
  have hfound := h.entity?_of_mem he
  have hbase? : r.base? e = some b := by
    rw [base?, hbase]
    exact hb
  have hlt := height_base_lt hfound hchain hbase?
  rw [(r.mem_of_entity? hb).2] at hlt
  exact ⟨by rw [isKnown, hfound]; rfl, hlt⟩

/-- Along a line the target of a reference gets deeper by one level at least with every narrowing. -/
lemma height_narrowedAlong (h : r.Sound) (hknown : r.isKnown target = true) (line : List String) :
    r.isKnown (r.narrowedAlong target line) = true ∧
      r.height target + (r.narrowings target line).count true ≤
        r.height (r.narrowedAlong target line) := by
  induction line with
  | nil => exact ⟨hknown, Nat.le_refl _⟩
  | cons d line ih =>
    obtain ⟨hknown', hle⟩ := ih
    rw [narrowedAlong, narrowings]
    cases hnarrow : r.narrowedTarget? d (r.narrowedAlong target line) with
    | none =>
      rw [Option.isSome_none, List.count_cons_of_ne (by decide)]
      exact ⟨hknown', hle⟩
    | some derived =>
      obtain ⟨hderived, hlt⟩ := h.height_lt_of_subtype hknown' (narrowedTarget?_mem hnarrow)
      rw [Option.isSome_some, List.count_cons_self]
      exact ⟨hderived, by rw [Option.getD_some]; omega⟩

lemma narrowedAlong_eq_self (line : List String) (h : true ∉ r.narrowings target line) :
    r.narrowedAlong target line = target := by
  induction line with
  | nil => rfl
  | cons d line ih =>
    rw [narrowings, List.mem_cons, not_or] at h
    obtain ⟨hnot, h⟩ := h
    rw [ih h] at hnot
    rw [narrowedAlong, ih h]
    cases hnarrow : r.narrowedTarget? d target with
    | none => rfl
    | some derived =>
      rw [hnarrow] at hnot
      exact absurd rfl hnot

lemma narrowedAlong_eq_self_iff (h : r.Sound) (hknown : r.isKnown target = true)
    (line : List String) :
    r.narrowedAlong target line = target ↔ true ∉ r.narrowings target line := by
  constructor
  · intro heq hmem
    -- every narrowing goes deeper, and bases do not lead back
    have hle := (h.height_narrowedAlong hknown line).2
    have hpos : 0 < (r.narrowings target line).count true := List.count_pos_iff.mpr hmem
    rw [heq] at hle
    omega
  · exact narrowedAlong_eq_self line

/-- A reference that has come down a line refers to the entity it was declared against when it has
been narrowed at the last entity of the line, or at none. -/
theorem refersTo_iff (h : r.Sound) (hon : r.options.narrowReferences = true)
    (hkind : p.type.kind = .entity target) (hknown : r.isKnown target = true)
    {type : TypeReference} (htype : r.type? p.type.id = some type) (hreg : type.kind = p.type.kind)
    {d : String} (hq : r.Inherits p (d :: line) e q) :
    r.refersTo q target = true ↔ r.CountsAlong target (d :: line) := by
  obtain ⟨hid, hentity⟩ := hq.type_eq hon hkind
  have hregistered : ((r.type? q.type.id).any fun type => type.target? == some target) = true := by
    rw [hid, htype, Option.any_some, TypeReference.target?, hreg, hkind]
    exact beq_self_eq_true _
  have htarget : q.type.target? = some (r.narrowedAlong target (d :: line)) := by
    rw [TypeReference.target?, hentity]
    rfl
  rw [refersTo, hregistered, Bool.and_true, Bool.or_eq_true, htarget, beq_iff_eq,
    Option.some_inj, h.narrowedAlong_eq_self_iff hknown, hq.refreshed_eq hon hkind, CountsAlong,
    narrowings, List.head?_cons, Option.some_inj, or_comm]

end Sound

lemma associate_of_candidate {relation : EntityRelation} {owner : Entity}
    (halias : relation.propertyAlias = none) (hq : q ∈ owner.properties)
    (hrefers : r.refersTo q relation.sourceEntity = true) :
    r.associate relation owner = .ok q ∨ r.associate relation owner =
      .error (.unresolvedRelation relation.entity relation.sourceEntity .multiple) := by
  have hmem : q ∈ owner.properties.filter (r.refersTo · relation.sourceEntity) :=
    List.mem_filter.mpr ⟨hq, hrefers⟩
  unfold associate
  rw [halias]
  dsimp only
  split
  · next x hx =>
    rw [hx, List.mem_singleton] at hmem
    exact .inl (by rw [hmem])
  · next hnil =>
    rw [hnil] at hmem
    cases hmem
  · exact .inr rfl

lemma associate_of_not_candidate {relation : EntityRelation} (owner : Entity)
    (halias : relation.propertyAlias = none)
    (hrefers : r.refersTo q relation.sourceEntity = false) :
    r.associate relation owner ≠ .ok q ∧ (r.associate relation owner =
        .error (.unresolvedRelation relation.entity relation.sourceEntity .undetermined) ↔
      ∀ x ∈ owner.properties, r.refersTo x relation.sourceEntity = false) := by
  have hnil : owner.properties.filter (r.refersTo · relation.sourceEntity) = [] ↔
      ∀ x ∈ owner.properties, r.refersTo x relation.sourceEntity = false := by
    simp [List.filter_eq_nil_iff]
  rw [← hnil]
  unfold associate
  rw [halias]
  dsimp only
  split
  · next x hx =>
    refine ⟨fun h => ?_, by simp [hx]⟩
    cases h
    have hmem : q ∈ owner.properties.filter (r.refersTo · relation.sourceEntity) := by
      rw [hx]
      exact List.mem_singleton_self q
    rw [(List.mem_filter.mp hmem).2] at hrefers
    cases hrefers
  · next hx => exact ⟨fun h => (nomatch h), fun _ => hx, fun _ => rfl⟩
  · next hmany hsome => exact ⟨fun h => (nomatch h), by simp_all⟩

lemma relationProperty_of_found {relation : EntityRelation} {owner : Entity}
    (hfound : (r.entity? relation.entity).isSome) (howner : r.complete relation.entity = .ok owner) :
    r.relationProperty relation = r.associate relation owner := by
  have hregistered : ¬ (r.entity? relation.entity).isNone = true := by
    simpa [Option.isSome_iff_ne_none] using hfound
  unfold relationProperty relationPropertyBy
  dsimp only
  rw [if_neg hregistered, howner]
  change MonadExcept.ofExcept (r.associate relation owner) = _
  cases r.associate relation owner <;> rfl

end Registry

namespace Schema

variable {s : Schema} {memo : Memo} {relation : EntityRelation}

/-- The answer to the question which property implements an entity relation. -/
def relationAnswer (s : Schema) (relation : EntityRelation) : Except ModelError Property :=
  ((Registry.relationPropertyBy s.complete s.registry relation).run.run .empty).1

lemma Reliable.relationProperty (h : s.Reliable memo) (relation : EntityRelation) :
    ((Registry.relationPropertyBy s.complete s.registry relation).run.run memo).1 =
      s.registry.relationProperty relation := by
  unfold Registry.relationProperty Registry.relationPropertyBy
  by_cases hfound : (s.registry.entity? relation.entity).isNone
  · simp only [if_pos hfound]
    rfl
  · obtain ⟨hanswer, -⟩ := h.request relation.entity
    simp only [if_neg hfound]
    rw [← hanswer, ExceptT.run_bind, StateT.run_bind]
    generalize (s.complete relation.entity).run.run memo = result
    obtain ⟨outcome, memo'⟩ := result
    cases outcome with
    | error err => rfl
    | ok owner =>
      change ((MonadExcept.ofExcept (s.registry.associate relation owner) : Resolve Property).run.run
        memo').1 = MonadExcept.ofExcept (s.registry.associate relation owner)
      cases s.registry.associate relation owner <;> rfl

lemma relationAnswer_eq {owner : Entity} (hfound : (s.registry.entity? relation.entity).isSome)
    (howner : s.registry.complete relation.entity = .ok owner) :
    s.relationAnswer relation = s.registry.associate relation owner := by
  unfold relationAnswer
  rw [reliable_empty.relationProperty]
  exact Registry.relationProperty_of_found hfound howner

/-- Which inherited references implement an entity relation without an alias. Let a property `p` that
refers to `target`, as its type is registered, have come down a line of entities to `e`. Where it has
been narrowed at `e` itself or nowhere, it is a candidate for the relation from `e` to `target`.
Elsewhere it is none, and the relation has no property unless there is another candidate. -/
theorem narrowed_reference_counts {m : Model} {settings : Settings} {s : Schema}
    (hbuild : m.build settings = .ok s) (hon : settings.narrowReferences = true) {p q : Property}
    {target d : String} {line : List String} {e : Entity} {type : TypeReference}
    (hkind : p.type.kind = .entity target) (htype : s.registry.type? p.type.id = some type)
    (hreg : type.kind = p.type.kind) (hq : s.registry.Inherits p (d :: line) e q)
    {relation : EntityRelation} (halias : relation.propertyAlias = none)
    (hentity : relation.entity = e.id) (hsource : relation.sourceEntity = target) :
    (s.registry.CountsAlong target (d :: line) → s.relationAnswer relation = .ok q ∨
      s.relationAnswer relation = .error (.unresolvedRelation e.id target .multiple)) ∧
    (¬ s.registry.CountsAlong target (d :: line) → s.relationAnswer relation ≠ .ok q ∧
      ∃ view, s.answer e.id = .ok view ∧ q ∈ view.properties ∧
        (s.relationAnswer relation = .error (.unresolvedRelation e.id target .undetermined) ↔
          ∀ x ∈ view.properties, s.registry.refersTo x target = false)) := by
  obtain ⟨rfl, -, hsound⟩ := Model.build_eq_ok_iff.mp hbuild
  obtain ⟨a, ha, hp⟩ := hq.declaration
  have hregistered : type.target? = some target := by
    rw [TypeReference.target?, hreg, hkind]
    rfl
  have hknown := hsound.targets a ha p hp type htype target hregistered
  have hrefers := hsound.refersTo_iff hon hkind hknown htype hreg hq
  obtain ⟨view, hview, hmem⟩ := hq.mem_view
  have hfound : ((flatten m settings).registry.entity? relation.entity).isSome := by
    obtain ⟨x, chain, hx, -⟩ := Registry.complete_eq_ok hview
    rw [hentity, hx]
    rfl
  have hanswer := relationAnswer_eq hfound (hentity ▸ hview)
  rw [← hsource] at hrefers
  rw [hanswer, ← hsource, ← hentity]
  constructor
  · intro hcounts
    exact Registry.associate_of_candidate halias hmem (hrefers.mpr hcounts)
  · intro hcounts
    have hnot : (flatten m settings).registry.refersTo q relation.sourceEntity = false := by
      simpa using fun h => hcounts (hrefers.mp h)
    obtain ⟨hne, hiff⟩ := Registry.associate_of_not_candidate view halias hnot
    refine ⟨hne, view, ?_, hmem, hiff⟩
    rw [answer_eq, hentity]
    exact hview

end Schema

namespace Model

namespace NarrowedOnce

def reference : TypeReference := ⟨"reference", .entity "Target"⟩

def declared : Property := Property.ofType "p" reference

def first : Entity := { Entity.ofName "First" "First" with properties := [declared] }

def second : Entity := { Entity.ofName "Second" "Second" with base := some "First" }

def third : Entity := { Entity.ofName "Third" "Third" with base := some "Second" }

/-- The reference is narrowed to `Special` at `second`. At `third` there is nothing to narrow it to. -/
def model : Model :=
  { ofNameSpace none with
    types := [reference]
    entities := [Entity.ofName "Target" "Target",
      { Entity.ofName "Special" "Special" with base := some "Target" }, first, second, third] }

def schema : Schema := Schema.flatten model .default

lemma build_model : model.build .default = .ok schema :=
  build_of_problems (by decide +kernel) (by decide +kernel)

def atFirst : Property := declared.ownedBy "First"

def atSecond : Property := schema.registry.inheritedCopy "Second" [] atFirst

def atThird : Property := schema.registry.inheritedCopy "Third" [] atSecond

def shown (id : String) : Option (List Property × List FragmentRef) :=
  (schema.registry.complete id).toOption.map fun view => (view.properties, view.fragments)

lemma shown_views : shown "First" = some ([atFirst], []) ∧ shown "Second" = some ([atSecond], []) ∧
    shown "Third" = some ([atThird], []) ∧
    schema.registry.refersTo atThird "Target" = false := by decide +kernel

lemma exists_view (id : String) (q : Property) (h : shown id = some ([q], [])) :
    ∃ view, schema.registry.complete id = .ok view ∧ view.fragments = [] ∧
      view.properties = [q] := by
  obtain ⟨view, hview, hshown⟩ := exists_ok_of_map h
  obtain ⟨hproperties, hfragments⟩ := Prod.mk.inj hshown
  exact ⟨view, hview, hfragments, hproperties⟩

lemma inherits_first : schema.registry.Inherits declared [] first atFirst := by
  obtain ⟨view, hview, -, hproperties⟩ := exists_view "First" atFirst shown_views.1
  exact .declared rfl (List.mem_singleton_self _) hview
    (hproperties ▸ List.mem_singleton_self atFirst)

lemma inherits_second : schema.registry.Inherits declared ["Second"] second atSecond := by
  obtain ⟨view, hview, hfragments, hproperties⟩ := exists_view "Second" atSecond shown_views.2.1
  have hcopy : schema.registry.inheritedCopy second.id view.fragments atFirst = atSecond := by
    rw [hfragments]
    rfl
  rw [← hcopy] at hproperties ⊢
  exact .handed inherits_first rfl rfl hview (hproperties ▸ List.mem_singleton_self _)

lemma inherits_third : schema.registry.Inherits declared ["Third", "Second"] third atThird := by
  obtain ⟨view, hview, hfragments, hproperties⟩ := exists_view "Third" atThird shown_views.2.2.1
  have hcopy : schema.registry.inheritedCopy third.id view.fragments atSecond = atThird := by
    rw [hfragments]
    rfl
  rw [← hcopy] at hproperties ⊢
  exact .handed inherits_second rfl rfl hview (hproperties ▸ List.mem_singleton_self _)

theorem narrowed_reference_counts_second :
    schema.registry.CountsAlong "Target" ["Second"] ∧
      (schema.relationAnswer (.between "Second" "Target") = .ok atSecond ∨
        schema.relationAnswer (.between "Second" "Target") =
          .error (.unresolvedRelation "Second" "Target" .multiple)) := by
  have hcounts : schema.registry.CountsAlong "Target" ["Second"] := .inl (by decide)
  exact ⟨hcounts, (Schema.narrowed_reference_counts build_model rfl rfl rfl rfl inherits_second
    rfl rfl rfl).1 hcounts⟩

lemma relationAnswer_third : schema.relationAnswer (.between "Third" "Target") =
    .error (.unresolvedRelation "Third" "Target" .undetermined) := by
  obtain ⟨-, -, hshown, hrefers⟩ := shown_views
  obtain ⟨view, hview, -, hproperties⟩ := exists_view "Third" atThird hshown
  rw [Schema.relationAnswer_eq rfl hview]
  refine (Registry.associate_of_not_candidate view rfl hrefers).2.mpr fun x hx => ?_
  rw [hproperties, List.mem_singleton] at hx
  rw [hx]
  exact hrefers

end NarrowedOnce

/-- An inherited reference does not always count for the entity it was declared against. -/
theorem not_every_reference_counts :
    ¬ ∀ (m : Model) (settings : Settings) (s : Schema), m.build settings = .ok s →
      settings.narrowReferences = true → ∀ (p q : Property) (target d : String)
        (line : List String) (e : Entity) (type : TypeReference), p.type.kind = .entity target →
        s.registry.type? p.type.id = some type → type.kind = p.type.kind →
        s.registry.Inherits p (d :: line) e q →
        s.relationAnswer (.between e.id target) ≠
          .error (.unresolvedRelation e.id target .undetermined) := by
  intro h
  exact h _ _ _ NarrowedOnce.build_model rfl _ _ "Target" "Third" ["Second"] _ _ rfl rfl rfl
    NarrowedOnce.inherits_third NarrowedOnce.relationAnswer_third

end Model

end EntityModel
