import EntityModel.Proofs.Association
import EntityModel.Proofs.Collision
import EntityModel.Proofs.Declarations

/-!
# Narrowing switched on and off

Of everything that a merge decides, nothing depends on the entities that references are to. Two runs
over the same declarations, of which only one narrows, therefore go the same way, and their results
differ in the targets of references and in the marks of narrowing.
-/

namespace EntityModel

/-- The kind of a type, without the entity that a reference is to. -/
def TypeKind.untargeted : TypeKind → TypeKind
  | entity _ => entity ""
  | kind => kind

/-- A property without the entity it refers to, and without the mark that this has been narrowed. -/
def Property.untargeted (p : Property) : Property :=
  { p with type := ⟨p.type.id, p.type.kind.untargeted⟩, refreshed := false }

def Entity.untargeted (e : Entity) : Entity :=
  { e with properties := e.properties.map (·.untargeted) }

/-- A property with all that inheriting does to it but to narrow it. -/
def Property.handedTo (entity : String) (attached : List FragmentRef) (p : Property) : Property :=
  { p with
    sourceFragment := p.sourceFragment.filter (isAttached attached)
    fromBase := true
    owner := some entity }

namespace Registry

open Labelled (label)

variable {r r' : Registry} {e old old' view view' : Entity} {chain : List Entity}

lemma narrow_untargeted (r : Registry) (completing : String) (type : TypeReference) :
    (r.narrow completing type).1.id = type.id ∧
      (r.narrow completing type).1.kind.untargeted = type.kind.untargeted := by
  obtain heq | ⟨target, derived, -, htarget, -, heq⟩ := r.narrow_cases completing type
  · rw [heq]
    exact ⟨rfl, rfl⟩
  · rw [heq]
    refine ⟨rfl, ?_⟩
    change TypeKind.entity "" = type.kind.untargeted
    unfold TypeReference.target? TypeKind.target? at htarget
    split at htarget
    · next hkind =>
      rw [hkind]
      rfl
    · cases htarget

lemma untargeted_inheritedCopy (r : Registry) (entity : String) (attached : List FragmentRef)
    (p : Property) :
    (r.inheritedCopy entity attached p).untargeted = p.untargeted.handedTo entity attached := by
  obtain ⟨hid, hkind⟩ := r.narrow_untargeted entity p.type
  unfold inheritedCopy inheritedForm Property.ownedBy Property.handedTo Property.untargeted
  dsimp only
  rw [hid, hkind]

lemma untargeted_properties (hmerge : r.merge (some old) e = .ok view)
    (hold : (old.properties.map (·.aliasName)).Nodup) :
    view.untargeted.properties =
      (Handover.handedDown e.properties old.untargeted.properties).map
          (·.handedTo e.id view.fragments) ++
        (Handover.kept e.properties old.untargeted.properties).map
          fun p => (p.ownedBy e.id).untargeted := by
  have hlabel (p : Property) : label p.untargeted = label p := rfl
  unfold Entity.untargeted
  dsimp only
  rw [r.merge_properties hmerge hold, Handover.handedDown_map _ hlabel, Handover.kept_map _ hlabel,
    List.map_append, List.map_map, List.map_map, List.map_map]
  congr 1
  exact List.map_congr_left fun p _ => r.untargeted_inheritedCopy e.id view.fragments p

namespace SameDeclarations

variable (h : r.SameDeclarations r')

include h

/-- Merges that succeed on both sides take over the same from bases that differ in targets only. -/
lemma untargeted_of_merge (hmerge : r.merge (some old) e = .ok view)
    (hmerge' : r'.merge (some old') e = .ok view') (hsame : old.untargeted = old'.untargeted)
    (hold : (old.properties.map (·.aliasName)).Nodup)
    (hold' : (old'.properties.map (·.aliasName)).Nodup) : view.untargeted = view'.untargeted := by
  have hproperties := untargeted_properties hmerge hold
  have hproperties' := untargeted_properties hmerge' hold'
  rw [merge_some] at hmerge hmerge'
  obtain ⟨settled, hsettle, hmerge⟩ := bind_eq_ok_iff.mp hmerge
  obtain ⟨settled', hsettle', hmerge'⟩ := bind_eq_ok_iff.mp hmerge'
  rw [h.settle] at hsettle
  cases hsettle.symm.trans hsettle'
  obtain ⟨fragments, draft, hfragments, -, rfl⟩ := r.bequeath_eq_ok hmerge
  obtain ⟨fragments', draft', hfragments', -, rfl⟩ := r'.bequeath_eq_ok hmerge'
  -- the tables of a base are inserted without a look at its properties
  have hinsert : r.insertMissingTables old = r'.insertMissingTables old' := by
    rw [insertMissingTables_congr h.fragment?]
    change r'.insertMissingTables old.untargeted = r'.insertMissingTables old'.untargeted
    rw [hsame]
  rw [hinsert] at hfragments
  cases hfragments.symm.trans hfragments'
  have hdrafts : draft.properties.map (·.untargeted) = draft'.properties.map (·.untargeted) := by
    change (bequest old settled fragments draft).untargeted.properties = _
    rw [hproperties, hsame]
    exact hproperties'.symm
  have hbequest (base : Entity) (d : Draft) : (bequest base settled fragments d).untargeted =
      bequest base.untargeted settled fragments ⟨d.properties.map (·.untargeted), 0⟩ := rfl
  rw [hbequest, hbequest, hsame, hdrafts]

/-- Merging with bases that differ in targets only goes the same way on both sides. -/
lemma merge_untargeted (hsound : r.Sound) (hsound' : r'.Sound) (he : e ∈ r.entities)
    (hchain : r.lineage e = .ok chain) (hold : r.SoundView old) (hold' : r'.SoundView old')
    (hsame : old.untargeted = old'.untargeted) :
    (r.merge (some old) e).map (·.untargeted) = (r'.merge (some old') e).map (·.untargeted) := by
  cases hsettle : r.settle e with
  | error err =>
    rw [merge_some, merge_some, ← h.settle, hsettle]
    rfl
  | ok settled =>
    obtain ⟨_, -, -, -, hdistinct, -, -⟩ := r.settle_eq_ok_iff.mp hsettle
    have hmerge := hsound.merge_eq he hchain hdistinct hold
    have hmerge' := hsound'.merge_eq (h.entities ▸ he) (h.lineage ▸ hchain) hdistinct hold'
    have hcollision : (Handover.collision? e.properties [] old.properties).map (·.untargeted) =
        (Handover.collision? e.properties [] old'.properties).map (·.untargeted) := by
      have hlabel (p : Property) : label p.untargeted = label p := rfl
      rw [← Handover.collision?_map _ hlabel, ← Handover.collision?_map _ hlabel]
      exact congrArg (Handover.collision? e.properties []) (congrArg Entity.properties hsame)
    cases hfirst : Handover.collision? e.properties [] old.properties with
    | some p =>
      obtain ⟨p', hfirst', hsame'⟩ := exists_of_map_eq_map hcollision hfirst
      have halias : p.untargeted.aliasName = p'.untargeted.aliasName := by rw [hsame']
      change p.aliasName = p'.aliasName at halias
      rw [hfirst] at hmerge
      rw [hfirst'] at hmerge'
      rw [hmerge, hmerge', halias]
    | none =>
      rw [hfirst] at hmerge
      rw [eq_none_of_map_eq_map hcollision hfirst] at hmerge'
      obtain ⟨view, hview, -⟩ := hmerge
      obtain ⟨view', hview', -⟩ := hmerge'
      rw [hview, hview']
      exact congrArg Except.ok
        (h.untargeted_of_merge hview hview' hsame hold.distinct hold'.distinct)

/-- Registries of the same declarations complete an entity alike but for the targets of references,
whatever their options. -/
theorem complete_untargeted (hsound : r.Sound) (hsound' : r'.Sound) (id : String) :
    (r.complete id).map (·.untargeted) = (r'.complete id).map (·.untargeted) := by
  cases hfound : r.entity? id with
  | none => rw [complete_unknown hfound, complete_unknown (h.entity? ▸ hfound)]
  | some e =>
    have he := (r.mem_of_entity? hfound).1
    obtain ⟨chain, hchain⟩ := hsound.chains e he
    -- both runs go down the same chain
    induction chain generalizing id e with
    | nil => cases mem_lineage_self hchain
    | cons x rest ih =>
      have hfound' : r'.entity? id = some e := h.entity? ▸ hfound
      have hchain' : r'.lineage e = .ok (x :: rest) := h.lineage ▸ hchain
      rcases lineage_cases hchain with ⟨hbase, -⟩ | ⟨b, rest', hbase, hrest, hcons⟩
      · rw [complete_root hfound hbase, complete_root hfound' (h.base? ▸ hbase), merge_none,
          merge_none, h.settle]
      · cases hcons
        rw [complete_base hfound hchain hbase, complete_base hfound' hchain' (h.base? ▸ hbase)]
        have hbelow := ih b.id b (base?_eq_some hbase).2 (mem_of_base? hbase) hrest
        refine map_bind_congr hbelow fun old old' hold hold' hsame => ?_
        exact h.merge_untargeted hsound hsound' he hchain (hsound.soundView hold)
          (hsound'.soundView hold') hsame

end SameDeclarations

lemma narrow_of_off (hoff : r.options.narrowReferences = false) (completing : String)
    (type : TypeReference) : r.narrow completing type = (type, false) := by
  obtain heq | ⟨_, _, hon, -⟩ := r.narrow_cases completing type
  · exact heq
  · rw [hoff] at hon
    cases hon

lemma Inherits.type_eq_of_off {p q : Property} {line : List String} (h : r.Inherits p line e q)
    (hoff : r.options.narrowReferences = false) :
    q.type = p.type ∧ (line ≠ [] → q.refreshed = false) := by
  induction h with
  | declared hfound hp hview hq => exact ⟨rfl, fun hne => absurd rfl hne⟩
  | @handed line b e view q h hfound hbase hview hq ih =>
    have hnarrow := narrow_of_off hoff e.id q.type
    refine ⟨?_, fun _ => congrArg Prod.snd hnarrow⟩
    exact (congrArg Prod.fst hnarrow).trans ih.1

end Registry

namespace Schema

variable {m : Model} {settings settings' : Settings}

lemma sameDeclarations_flatten (m : Model) (settings settings' : Settings) :
    (flatten m settings).registry.SameDeclarations (flatten m settings').registry :=
  ⟨rfl, rfl, rfl, rfl, rfl⟩

/-- Whether a model can be built does not depend on settings. -/
lemma build_of_build {s : Schema} (hbuild : m.build settings = .ok s) (settings' : Settings) :
    m.build settings' = .ok (flatten m settings') := by
  obtain ⟨rfl, hcycle, hsound⟩ := Model.build_eq_ok_iff.mp hbuild
  refine Model.build_eq_ok_iff.mpr ⟨rfl, hcycle, ?_⟩
  rw [← Registry.problems_eq_nil_iff] at hsound ⊢
  rw [(sameDeclarations_flatten m settings' settings).problems]
  exact hsound

/-- The narrowing switch changes only the targets of references. A model that builds does so with
narrowing on and off. Then every request for a complete view gets the same answer from both schemas,
be it a view or an error, but for what the references of the view are to and whether they count as
narrowed. With narrowing off, every property has the type with which it was declared at the start of
the line it has come down, and one that has been inherited does not count as narrowed. -/
theorem narrowing_only_retargets {s : Schema} (hbuild : m.build settings = .ok s) :
    ∃ on off, m.build { settings with narrowReferences := true } = .ok on ∧
      m.build { settings with narrowReferences := false } = .ok off ∧
      (∀ id, (on.answer id).map (·.untargeted) = (off.answer id).map (·.untargeted)) ∧
      (∀ id view, off.answer id = .ok view → ∃ e, off.entity? id = some e ∧
        ∀ q ∈ view.properties, ∃ p line, off.registry.Inherits p line e q) ∧
      ∀ p line e q, off.registry.Inherits p line e q →
        q.type = p.type ∧ (line ≠ [] → q.refreshed = false) := by
  have hon := build_of_build hbuild { settings with narrowReferences := true }
  have hoff := build_of_build hbuild { settings with narrowReferences := false }
  obtain ⟨-, -, hsound⟩ := Model.build_eq_ok_iff.mp hon
  obtain ⟨-, -, hsound'⟩ := Model.build_eq_ok_iff.mp hoff
  refine ⟨_, _, hon, hoff, fun id => ?_, fun id view hview => ?_,
    fun p line e q h => h.type_eq_of_off rfl⟩
  · rw [answer_eq, answer_eq]
    exact (sameDeclarations_flatten m _ _).complete_untargeted hsound hsound' id
  · rw [answer_eq] at hview
    obtain ⟨e, chain, hfound, -, -⟩ := Registry.complete_eq_ok hview
    obtain ⟨-, rfl⟩ := Registry.mem_of_entity? _ hfound
    exact ⟨e, hfound, fun q hq => Registry.exists_inherits hfound hview hq⟩

end Schema

namespace Model.NarrowedOnce

theorem narrowing_only_retargets_second : ∃ on off,
    model.build { Settings.default with narrowReferences := true } = .ok on ∧
      model.build { Settings.default with narrowReferences := false } = .ok off ∧
      (on.answer "Second").toOption.map (·.properties.map (·.type.kind)) =
        some [.entity "Special"] ∧
      (off.answer "Second").toOption.map (·.properties.map (·.type.kind)) =
        some [.entity "Target"] ∧
      (on.answer "Second").map (·.untargeted) = (off.answer "Second").map (·.untargeted) := by
  obtain ⟨on, off, hon, hoff, hsame, -⟩ := Schema.narrowing_only_retargets build_model
  obtain ⟨rfl, -⟩ := Model.build_eq_ok_iff.mp hon
  obtain ⟨rfl, -⟩ := Model.build_eq_ok_iff.mp hoff
  refine ⟨_, _, hon, hoff, ?_, ?_, hsame "Second"⟩
  · rw [Schema.answer_eq]
    decide +kernel
  · rw [Schema.answer_eq]
    decide +kernel

end Model.NarrowedOnce

end EntityModel
