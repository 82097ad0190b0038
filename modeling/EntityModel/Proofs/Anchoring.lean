import EntityModel.Proofs.Freezing
import EntityModel.Proofs.Loading
import EntityModel.Proofs.Rooting
import EntityModel.Proofs.SelfContained

/-!
# The joins of a schema

A fragment is attached behind its anchor, so that what has been attached is rooted. Adding entities,
attaching fragments, including models and loading keep it so. To clear the fragments of an entity, to
set its base, or to choose whether it inherits tables may take a fragment away, or bring another one
forward, under those that have been attached already. A schema is then still built as long as every
anchor is there, also when anchors lead in a circle.
-/

namespace EntityModel

namespace Change

/-- The changes by which an entity may lose fragments, or inherit others. -/
def loosens : Change → Bool
  | clearFragments _ | setBase _ _ | setInheritsBaseTables _ _ => true
  | _ => false

end Change

namespace Model

variable {m m' other : Model} {id : String} {e : Entity} {change : Entity → Entity}

/-- What an entity attaches itself is rooted, once no two entities share an identifier. -/
def KeepsRoots (m : Model) : Prop := (m.allEntities.map (·.id)).Nodup → m.registry.OwnRooted

/-- Entities that are widened one by one stay rooted. -/
lemma KeepsRoots.widen (h : m.KeepsRoots)
    (hwidens : List.Forall₂ m.registry.Widens m.allEntities m'.allEntities) : m'.KeepsRoots := by
  intro hdistinct
  have hids : m.allEntities.map (·.id) = m'.allEntities.map (·.id) := by
    rw [← List.forall₂_eq_eq_eq, List.forall₂_map_left_iff, List.forall₂_map_right_iff]
    exact hwidens.imp fun _ _ hwide => hwide.id.symm
  have hrooted := h (hids ▸ hdistinct)
  have hto : m.registry.WidensTo m'.registry := by
    refine Registry.widensTo_of_entities hdistinct fun e he => ?_
    obtain ⟨position, hlt, rfl⟩ := List.mem_iff_getElem.mp he
    have hlt' := hwidens.length_eq ▸ hlt
    exact ⟨m'.allEntities[position], List.getElem_mem hlt', hwidens.get hlt hlt'⟩
  refine Registry.ownRooted_of_origins fun e' he' => .inr ?_
  obtain ⟨position, hlt', rfl⟩ := List.mem_iff_getElem.mp he'
  have hlt := hwidens.length_eq ▸ hlt'
  exact ⟨m.registry, m.allEntities[position], hto, hrooted, List.getElem_mem hlt,
    hwidens.get hlt hlt'⟩

/-- Where there is nothing but the entities of some models, and entities without fragments, roots are
kept. -/
lemma keepsRoots_of_parts (h : ∀ e ∈ m'.allEntities, e.fragments = [] ∨ ∃ m : Model,
    m.KeepsRoots ∧ m.allEntities.Subperm m'.allEntities ∧ e ∈ m.allEntities) : m'.KeepsRoots := by
  intro hdistinct
  refine Registry.ownRooted_of_origins fun e he => (h e he).imp_right ?_
  rintro ⟨m, hkeeps, hsub, hmem⟩
  have hwithin : m.registry.Within m'.registry := Registry.within_of_subset hdistinct hsub.subset
  obtain ⟨l, hperm, hsublist⟩ := hsub
  have hdistinct' := (hperm.map (·.id)).nodup_iff.mp (hdistinct.sublist (hsublist.map (·.id)))
  exact ⟨m.registry, e, hwithin.widensTo, hkeeps hdistinct', hmem, .refl _ e⟩

lemma KeepsRoots.of_perm (h : m.KeepsRoots) (hperm : m'.allEntities.Perm m.allEntities) :
    m'.KeepsRoots :=
  keepsRoots_of_parts fun _ he => .inr ⟨m, h, hperm.symm.subperm, hperm.mem_iff.mp he⟩

lemma KeepsRoots.congr (h : m.KeepsRoots) (hentities : m'.entities = m.entities)
    (hincludes : m'.includes = m.includes) : m'.KeepsRoots := by
  refine h.of_perm (List.Perm.of_eq ?_)
  rw [allEntities_eq, allEntities_eq m, hentities, hincludes]

lemma KeepsRoots.withBare (h : m.KeepsRoots) (e : Entity) : (m.withBare e).KeepsRoots := by
  have hall : (m.withBare e).allEntities.Perm
      ({ e with fragments := [], properties := [] } :: m.allEntities) := by
    rw [allEntities_eq, allEntities_eq m, Model.withBare, List.append_assoc, List.singleton_append]
    exact List.perm_middle
  refine keepsRoots_of_parts fun x hx => ?_
  rcases List.mem_cons.mp (hall.mem_iff.mp hx) with rfl | hx
  · exact .inl rfl
  · exact .inr ⟨m, h, ((List.sublist_cons_self _ _).subperm).trans hall.symm.subperm, hx⟩

lemma KeepsRoots.include (h : m.KeepsRoots) (hother : other.KeepsRoots) :
    KeepsRoots { m with includes := m.includes ++ [other] } := by
  have hall : ({ m with includes := m.includes ++ [other] } : Model).allEntities =
      m.allEntities ++ other.allEntities := by
    rw [allEntities_eq, allEntities_eq m]
    simp [allEntities, List.flatMap_append]
  refine keepsRoots_of_parts fun x hx => .inr ?_
  rw [hall] at hx ⊢
  rcases List.mem_append.mp hx with hx | hx
  · exact ⟨m, h, (List.sublist_append_left _ _).subperm, hx⟩
  · exact ⟨other, hother, (List.sublist_append_right _ _).subperm, hx⟩

lemma forall₂_changeFirst {R : Entity → Entity → Prop} {l : List Entity} (hrefl : ∀ e, R e e)
    (hfound : ∀ e, l.find? (·.id == id) = some e → R e (change e)) :
    List.Forall₂ R l (changeFirst id change l) := by
  induction l with
  | nil => exact .nil
  | cons e l ih =>
    rw [changeFirst]
    by_cases hid : e.id = id
    · rw [if_pos hid]
      exact .cons (hfound e (by simp [hid])) (List.forall₂_same.mpr fun x _ => hrefl x)
    · rw [if_neg hid]
      exact .cons (hrefl e) (ih fun x hx => hfound x (by simp [hid, hx]))

lemma KeepsRoots.changeEntity (h : m.KeepsRoots) (hown : m.ownEntity? id = some e)
    (hwidens : m.registry.Widens e (change e)) : (m.changeEntity id change).KeepsRoots := by
  refine h.widen ?_
  rw [allEntities_eq m, allEntities_eq (m.changeEntity id change)]
  refine List.rel_append (forall₂_changeFirst (.refl _) fun x hx => ?_)
    (List.forall₂_same.mpr fun x _ => .refl _ x)
  cases hown.symm.trans hx
  exact hwidens

end Model

namespace Edit

open Model (KeepsRoots)

variable {entity : String}

lemma keepsRoots_insertFragment (position : Nat) (ref : FragmentRef) :
    Keeps KeepsRoots (insertFragment entity position ref) := by
  refine (isAtomic_insertFragment entity position ref).keeps fun m _ m' hm h => ?_
  obtain ⟨e, attached, hown, heffective, hcheck, hanchor, rfl⟩ := insertFragment_eq_ok h
  obtain ⟨-, hfresh⟩ := m.registry.checkFragment_eq_ok_iff.mp hcheck
  exact hm.changeEntity hown (Registry.widens_insertFragment position heffective hfresh
    (Registry.checkAnchor_eq_ok_iff.mp hanchor))

lemma keepsRoots_attachFragment (ref : FragmentRef) :
    Keeps KeepsRoots (attachFragment entity ref) :=
  keeps_bind (keeps_ownEntity entity) fun _ => keepsRoots_insertFragment _ ref

/-- Changes to an entity that leave alone what it is, what it derives from and what it attaches. -/
lemma keepsRoots_changeEntity {change : Entity → Entity}
    (hchange : ∀ e, (change e).id = e.id ∧ (change e).base = e.base ∧
      (change e).inheritsBaseTables = e.inheritsBaseTables ∧ (change e).fragments = e.fragments) :
    Keeps KeepsRoots (changeEntity entity change) := by
  refine (isAtomic_changeEntity entity change).keeps fun m _ m' hm h => ?_
  obtain ⟨⟨e, hown⟩, rfl⟩ := run_changeEntity_eq_ok h
  obtain ⟨hid, hbase, hinherits, hfragments⟩ := hchange e
  exact hm.changeEntity hown (.of_fragments hid hbase hinherits hfragments)

lemma keepsRoots_insertProperty (position : Nat) (p : Property) :
    Keeps KeepsRoots (insertProperty entity position p) := by
  refine (isAtomic_insertProperty entity position p).keeps fun m _ m' hm h => ?_
  obtain ⟨e, attached, hown, -, -, rfl⟩ := insertProperty_eq_ok h
  exact hm.changeEntity hown (.of_fragments rfl rfl rfl rfl)

lemma keepsRoots_addProperty (p : Property) : Keeps KeepsRoots (addProperty entity p) :=
  keeps_bind (keeps_ownEntity entity) fun _ => keepsRoots_insertProperty _ p

lemma keepsRoots_removeProperty (aliasName : String) :
    Keeps KeepsRoots (removeProperty entity aliasName) := by
  refine (isAtomic_removeProperty entity aliasName).keeps fun m _ m' hm h => ?_
  obtain ⟨⟨e, hown⟩, rfl⟩ := removeProperty_eq_ok h
  exact hm.changeEntity hown (.of_fragments rfl rfl rfl rfl)

lemma keepsRoots_addEntity (e : Entity) : Keeps KeepsRoots (addEntity e) := by
  refine (isAtomic_addEntity e).keeps fun m _ m' hm h => ?_
  obtain ⟨-, hrun⟩ := run_addEntity_eq_ok_iff.mp h
  have hattach : Keeps KeepsRoots (attachDeclared e.id e.fragments e.properties) :=
    keeps_bind (keeps_forM keepsRoots_attachFragment e.fragments) fun _ =>
      keeps_forM keepsRoots_addProperty e.properties
  exact hattach.run_ok (hm.withBare e) hrun

lemma keepsRoots_addInclude {other : Model} (hother : other.KeepsRoots) :
    Keeps KeepsRoots (addInclude other) := by
  refine (isAtomic_addInclude other).keeps fun m _ m' hm h => ?_
  rw [addInclude_eq_ok h]
  exact hm.include hother

end Edit

open Edit in
/-- Whatever does not loosen an entity keeps roots. -/
lemma Change.keepsRoots {c : Change} (h : c.loosens = false) : Keeps Model.KeepsRoots c.edit := by
  cases c with
  | addType type => exact keeps_unless fun m _ hm => hm.congr rfl rfl
  | addFragment fragment => exact keeps_unless fun m _ hm => hm.congr rfl rfl
  | addEntity entity => exact keepsRoots_addEntity entity
  | addRelation relation => exact keeps_unless fun m _ hm => hm.congr rfl rfl
  | setModelExtension name node => exact keeps_modify fun m hm => hm.congr rfl rfl
  | addProperty entity p => exact keepsRoots_addProperty p
  | insertProperty entity position p => exact keepsRoots_insertProperty position p
  | removeProperty entity aliasName =>
    exact keeps_bind (keepsRoots_removeProperty aliasName) fun _ => keeps_pure ()
  | attachFragment entity ref => exact keepsRoots_attachFragment ref
  | insertFragment entity position ref => exact keepsRoots_insertFragment position ref
  | suppress entity name =>
    refine keepsRoots_changeEntity fun e => ?_
    split <;> exact ⟨rfl, rfl, rfl, rfl⟩
  | addEntityRelation entity relation => exact keepsRoots_changeEntity fun _ => ⟨rfl, rfl, rfl, rfl⟩
  | setExtension entity name node => exact keepsRoots_changeEntity fun _ => ⟨rfl, rfl, rfl, rfl⟩
  | setDisabled entity disabled => exact keepsRoots_changeEntity fun _ => ⟨rfl, rfl, rfl, rfl⟩
  | clearFragments entity => cases h
  | setBase entity base => cases h
  | setInheritsBaseTables entity inherits => cases h

namespace ModelSource

open Model (KeepsRoots)

variable {m m' : Model}

/-- The entities are attached one by one and then put back into their order, which does not matter. -/
lemma keepsRoots_of_replayDeclared {types : List TypeReference} {fragments : List SourceFragment}
    {entities : List Entity} {relations : List Relation} (hm : m.KeepsRoots)
    (hentities : m.entities = []) (hrelations : m.relations = [])
    (hrun : (replayDeclared types fragments entities relations).run m = .ok () m') :
    m'.KeepsRoots := by
  obtain ⟨ground, hground, hadds, -, rfl⟩ :=
    (replayDeclared_eq_ok_iff hentities hrelations).mp hrun
  have hsame := prepareDeclared_eq_ok hground
  have hroots : ground.KeepsRoots := by
    rw [hsame]
    exact hm.congr rfl rfl
  have hfilled := (forM_addEntity_eq_ok_iff (m := ground) (by rw [hsame]; exact hentities)
    (basesFirst entities)).mpr ⟨hadds, rfl⟩
  have hplaced := (Edit.keeps_forM (fun e => Edit.keepsRoots_addEntity (withAliases e))
    (basesFirst entities)).run_ok hroots hfilled
  refine hplaced.of_perm ?_
  rw [Model.allEntities_eq, Model.allEntities_eq (withEntities ground (basesFirst entities))]
  exact ((basesFirst_perm entities).symm.map attached).append_right _

mutual

theorem load_keepsRoots : (source : ModelSource) → {m : Model} → source.load = .ok m →
    m.KeepsRoots
  | ⟨nameSpace, types, fragments, entities, relations, includes, extensions⟩, m, h => by
    rw [load, Edit.result_eq_ok_iff] at h
    obtain ⟨_, next, hincludes, hdeclared⟩ := Edit.run_bind_eq_ok h
    have hnext := replayIncludes_eq_ok includes hincludes
    have hblank : KeepsRoots { Model.ofNameSpace nameSpace with extensions := extensions } :=
      fun _ e he => nomatch he
    exact keepsRoots_of_replayDeclared ((keepsRoots_replayIncludes includes).run_ok hblank hincludes)
      (by rw [hnext]; rfl) (by rw [hnext]; rfl) hdeclared
termination_by structural source => source

theorem keepsRoots_replayIncludes : (sources : List ModelSource) →
    Edit.Keeps KeepsRoots (replayIncludes sources)
  | [] => Edit.keeps_pure ()
  | source :: rest => by
    rw [replayIncludes]
    cases hload : source.load with
    | error err => exact fun m hm => hm
    | ok other =>
      rw [Edit.check_ok, pure_bind]
      exact Edit.keeps_bind (Edit.keepsRoots_addInclude (load_keepsRoots source hload)) fun _ =>
        keepsRoots_replayIncludes rest
termination_by structural sources => sources

end

end ModelSource

namespace Model

/-- The models that come from one with rooted fragments by nothing that loosens an entity. -/
inductive Tied : Model → Prop where
  | start {m : Model} (h : m.Reachable) (hrooted : m.registry.Rooted) : Tied m
  | annotate {m : Model} (nameSpace : Option String) (extensions : Extensions) (h : Tied m) :
      Tied { m with nameSpace := nameSpace, extensions := extensions }
  | change {m : Model} (c : Change) (hc : c.loosens = false) (h : Tied m) : Tied (c.edit.after m)
  | combine {m other : Model} (h : Tied m) (hother : Tied other) :
      Tied ((Edit.addInclude other).after m)
  | load {source : ModelSource} {m : Model} (h : source.load = .ok m) : Tied m

lemma Tied.keepsRoots {m : Model} (h : m.Tied) : m.KeepsRoots := by
  induction h with
  | start h hrooted => exact fun _ => hrooted.ownRooted
  | annotate nameSpace extensions h ih => exact ih.congr rfl rfl
  | change c hc h ih => exact Change.keepsRoots hc _ ih
  | combine h hother ih ihother => exact Edit.keepsRoots_addInclude ihother _ ih
  | load h => exact ModelSource.load_keepsRoots _ h

lemma tied_ofChanges {changes : List Change} (h : ∀ c ∈ changes, c.loosens = false) :
    (ofChanges changes).Tied := by
  induction changes using List.reverseRecOn with
  | nil => exact .start (.start none) fun e he => nomatch he
  | append_singleton changes c ih =>
    rw [ofChanges, List.foldl_append]
    exact .change c (h c (by simp)) (ih fun x hx => h x (List.mem_append_left _ hx))

end Model

namespace Schema

variable {m : Model} {settings : Settings} {s : Schema}

/-- In a schema every anchor of an effective fragment is attached, and the fragments of an entity are all
rooted just when no anchors among them lead in a circle. There are no circles at all when the model
has been made without loosening an entity since a moment at which there were none. -/
theorem fragments_rooted_iff_circleFree (hbuild : m.build settings = .ok s) :
    (∀ e ∈ s.entities, ∃ attached, s.registry.effectiveFragments e = .ok attached ∧
      (attached.map (·.fragment)).Nodup ∧
      (∀ ref ∈ attached, ∀ anchor ∈ ref.anchor, isAttached attached anchor = true) ∧
      ((∀ ref ∈ attached, RootedIn attached ref.fragment) ↔ CircleFree attached)) ∧
    (m.Tied → s.registry.Rooted) := by
  obtain ⟨rfl, -, hsound⟩ := Model.build_eq_ok_iff.mp hbuild
  have hdistinct : (m.allEntities.map (·.id)).Nodup := hsound.distinct
  refine ⟨fun e he => ?_, fun h => ?_⟩
  · obtain ⟨chain, hchain⟩ := hsound.chains e he
    have hanchors (ref : FragmentRef) (href : ref ∈ Registry.gatherFragments [] chain) :
        ∀ anchor ∈ ref.anchor, isAttached (Registry.gatherFragments [] chain) anchor = true :=
      (hsound.gathered_anchors he hchain href).resolve_left List.not_mem_nil
    exact ⟨_, Registry.effectiveFragments_of_lineage hchain,
      Registry.nodup_gatherFragments List.nodup_nil, hanchors, rootedIn_iff_circleFree hanchors⟩
  · have hrooted : m.registry.Rooted := (h.keepsRoots hdistinct).rooted
    exact hrooted.congr rfl (Model.entity?_flatten hdistinct settings)

end Schema

/-! Two levels of one chain of joins, and two entities that join the same tables the other way round. -/

namespace Model.JoinedTables

def fragments : List Change :=
  [.addFragment (.ofName "main" "main"), .addFragment (.ofName "extra" "extra"),
    .addFragment (.ofName "more" "more")]

def first : Entity :=
  { Entity.ofName "First" "First" with fragments := [.primary "main", .secondary "extra" "main" .outer] }

def second : Entity :=
  { Entity.ofName "Second" "Second" with
    base := some "First"
    fragments := [.secondary "more" "extra" .inner] }

def levels : Model := ofChanges (fragments ++ [.addEntity first, .addEntity second])

def levelsSchema : Schema := Schema.flatten levels .default

lemma build_levels : levels.build .default = .ok levelsSchema :=
  build_of_problems (by decide +kernel) (by decide +kernel)

theorem fragments_rooted_iff_circleFree_levels :
    (∃ e ∈ levelsSchema.entities, ∃ attached,
      levelsSchema.registry.effectiveFragments e = .ok attached ∧
        attached.map (·.fragment) = ["more", "main", "extra"] ∧ CircleFree attached) ∧
      levelsSchema.registry.Rooted := by
  obtain ⟨hchains, htied⟩ := Schema.fragments_rooted_iff_circleFree build_levels
  have hrooted := htied (tied_ofChanges (by decide))
  have hshown : ∃ e ∈ levelsSchema.entities,
      (levelsSchema.registry.effectiveFragments e).toOption.map (·.map (·.fragment)) =
        some ["more", "main", "extra"] := by
    decide +kernel
  obtain ⟨e, he, hshown⟩ := hshown
  obtain ⟨attached, heffective, -, -, hcircle⟩ := hchains e he
  rw [heffective] at hshown
  have hfree : CircleFree attached := hcircle.mp (hrooted e he attached heffective)
  exact ⟨⟨e, he, attached, heffective, Option.some.inj hshown, hfree⟩, hrooted⟩

def other : Entity :=
  { Entity.ofName "Other" "Other" with fragments := [.primary "extra", .secondary "main" "extra" .outer] }

/-- An entity that joins one table to the other and then gets a base that joins them the other way. -/
def circle : Model :=
  ofChanges (fragments ++ [
    .addEntity { Entity.ofName "First" "First" with fragments := [.primary "main"] },
    .addEntity other,
    .addEntity { Entity.ofName "Second" "Second" with
      base := some "First"
      fragments := [.secondary "extra" "main" .outer] },
    .setBase "Second" (some "Other")])

lemma build_circle : circle.build .default = .ok (Schema.flatten circle .default) :=
  build_of_problems (by decide +kernel) (by decide +kernel)

end Model.JoinedTables

lemma RootedIn.exists_primary {attached : List FragmentRef} {fragment : String}
    (h : RootedIn attached fragment) : ∃ ref ∈ attached, ref.isSecondary = false := by
  induction h with
  | primary hfound hprimary =>
    exact ⟨_, (mem_of_refTo? hfound).1, by rw [FragmentRef.isSecondary, hprimary]; rfl⟩
  | secondary hfound hanchor hrooted ih => exact ih

open Model.JoinedTables in
/-- A schema may be built although the anchors of an entity's fragments lead in a circle: each of them
is secondary. -/
theorem Schema.build_not_rooted :
    ¬ ∀ (m : Model) (settings : Settings) (s : Schema), m.Reachable → m.build settings = .ok s →
      s.registry.Rooted := by
  intro h
  have hcircle : ∃ e ∈ (flatten circle .default).entities,
      ((flatten circle .default).registry.effectiveFragments e).toOption.isSome ∧
        ∀ attached ∈ ((flatten circle .default).registry.effectiveFragments e).toOption,
          attached ≠ [] ∧ ∀ ref ∈ attached, ref.isSecondary = true := by
    decide +kernel
  obtain ⟨e, he, hsome, hcircle⟩ := hcircle
  obtain ⟨attached, heffective⟩ := exists_eq_ok hsome
  rw [heffective] at hcircle
  obtain ⟨hne, hsecondary⟩ := hcircle attached rfl
  obtain ⟨ref, href⟩ := List.exists_mem_of_ne_nil _ hne
  have hrooted := h _ _ _ (Model.reachable_ofChanges _) build_circle e he attached heffective
  obtain ⟨primary, hmem, hprimary⟩ := (hrooted ref href).exists_primary
  rw [hsecondary primary hmem] at hprimary
  cases hprimary

end EntityModel
