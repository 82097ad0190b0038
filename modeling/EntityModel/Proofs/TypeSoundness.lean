import EntityModel.Proofs.Association
import EntityModel.Proofs.Collision
import EntityModel.Proofs.References

/-!
# Types in complete views

A property of a complete view has the type that is registered under its identifier, except that a
reference may be to a descendant of the registered target. Narrowing keeps that on every level, as it
goes from an entity to one that is derived from it.
-/

namespace EntityModel

namespace Registry

/-- A type is the one that is registered under its identifier. Where that refers to an entity, it may
as well refer to a descendant of it. -/
def Respects (r : Registry) (type : TypeReference) : Prop :=
  ∃ registered, r.type? type.id = some registered ∧
    ((∀ top, registered.kind ≠ .entity top) → type.kind = registered.kind) ∧
    ∀ top, registered.kind = .entity top →
      ∃ target, type.kind = .entity target ∧ (r.entity? target).isSome ∧ r.Descends target top

variable {r : Registry}

lemma Descends.isSome {derived base : String} (h : r.Descends derived base) :
    (r.entity? derived).isSome := by
  obtain ⟨e, -, -, hfound, -⟩ := h
  exact Option.isSome_iff_exists.mpr ⟨e, hfound⟩

lemma descends_self {id : String} (hknown : (r.entity? id).isSome) : r.Descends id id := by
  obtain ⟨e, hfound⟩ := Option.isSome_iff_exists.mp hknown
  exact ⟨e, 0, e, hfound, rfl, (r.mem_of_entity? hfound).2⟩

lemma IsAdmissible.respects {type : TypeReference} (h : r.IsAdmissible type) (hsound : r.Sound) :
    r.Respects type := by
  obtain ⟨registered, hregistered, hconsistent, hknown⟩ := h
  have hends : ∀ e ∈ r.entities, ¬ r.Revisits e :=
    fun e he => lineage_eq_ok_iff.mp (hsound.chains e he)
  refine ⟨registered, hregistered, fun hnot => ?_, fun top htop => ?_⟩
  · rcases (isConsistent_iff hends).mp hconsistent with hkind | ⟨_, target, -, htarget, -⟩
    · exact hkind
    · exact absurd htarget (hnot target)
  · rcases (isConsistent_iff hends).mp hconsistent with hkind | ⟨declared, target, hkind, htarget, hd⟩
    · have hsome : (r.entity? top).isSome := hknown top (target?_eq_some_iff.mpr htop)
      exact ⟨top, hkind.trans htop, hsome, descends_self hsome⟩
    · cases htop.symm.trans htarget
      exact ⟨declared, hkind, hd.isSome, hd⟩

/-- An inherited reference keeps its target, or gets an enabled entity whose base that is. -/
lemma narrow_target {completing : String} {type : TypeReference}
    (hmoved : (r.narrow completing type).1.target? ≠ type.target?) :
    ∃ target, type.target? = some target ∧ ∃ d ∈ r.entities, d.base = some target ∧
      d.disabled = false ∧ (r.narrow completing type).1.target? = some d.id := by
  obtain heq | ⟨target, derived, -, htarget, hderived, heq⟩ := r.narrow_cases completing type
  · rw [heq] at hmoved
    exact absurd rfl hmoved
  · obtain ⟨d, hd, hbase, hdisabled, rfl⟩ := mem_activeSubtypes.mp (narrowedTarget?_mem hderived)
    rw [heq]
    exact ⟨target, htarget, d, hd, hbase, hdisabled, rfl⟩

end Registry

namespace Schema

/-- Narrowing is type sound. In a complete view every type is the registered one, or refers to a
descendant of the registered target. What an inherited reference has been narrowed to is an enabled
entity whose base is the target from before. So any entity may inherit the properties of the view:
their types pass the check again after they have been narrowed for it. -/
theorem narrowing_is_type_sound {m : Model} {settings : Settings} {s : Schema}
    (hbuild : m.build settings = .ok s) {e : Entity} (he : e ∈ s.entities) {view : Entity}
    (hview : s.answer e.id = .ok view) :
    (∀ p ∈ view.properties, s.registry.Respects p.type) ∧
    (∀ base, e.base = some base → ∃ old, s.answer base = .ok old ∧ ∃ inherited own : List Property,
      inherited.Sublist old.properties ∧ own.Sublist e.properties ∧
      view.properties = inherited.map (s.registry.inheritedCopy e.id view.fragments) ++
        own.map (·.ownedBy e.id) ∧
      ∀ q ∈ inherited,
        (s.registry.inheritedCopy e.id view.fragments q).type.target? ≠ q.type.target? →
          ∃ target, q.type.target? = some target ∧ ∃ d ∈ s.entities, d.base = some target ∧
            d.disabled = false ∧
            (s.registry.inheritedCopy e.id view.fragments q).type.target? = some d.id) ∧
    ∀ completing attached, ∀ p ∈ view.properties, s.registry.checkPropertyType completing
      (s.registry.inheritedForm completing attached p) = .ok () := by
  obtain ⟨-, -, hsound⟩ := Model.build_eq_ok_iff.mp hbuild
  rw [answer_eq] at hview ⊢
  have hfound := hsound.entity?_of_mem he
  have hadmissible := (hsound.soundView hview).types
  refine ⟨fun p hp => (hadmissible p hp).respects hsound, fun base hbase => ?_,
    fun completing attached p hp => (hsound.narrow_admissible (hadmissible p hp) completing).check⟩
  obtain ⟨b, hb⟩ := Option.isSome_iff_exists.mp (hsound.bases e he base hbase)
  have hbase? : s.registry.base? e = some b := by
    rw [Registry.base?, hbase]
    exact hb
  obtain ⟨old, hold, inherited, own, hinherited, hown, hproperties⟩ :=
    Registry.complete_split hfound hbase? hview
  rw [(s.registry.mem_of_entity? hb).2] at hold
  exact ⟨old, hold, inherited, own, hinherited, hown, hproperties,
    fun q _ hmoved => Registry.narrow_target hmoved⟩

end Schema

namespace Model.NarrowedOnce

lemma targets : atFirst.type.target? = some "Target" ∧ atSecond.type.target? = some "Special" := by
  decide +kernel

theorem narrowing_is_type_sound_second : ∃ old view, schema.answer "First" = .ok old ∧
    schema.answer "Second" = .ok view ∧ old.properties = [atFirst] ∧ view.properties = [atSecond] ∧
      atFirst.type.target? = some "Target" ∧
      (∃ d ∈ schema.entities, d.base = some "Target" ∧ d.disabled = false ∧
        atSecond.type.target? = some d.id ∧ d.id = "Special") ∧
      schema.registry.Respects atSecond.type ∧
      schema.registry.checkPropertyType "Third" (schema.registry.inheritedForm "Third" [] atSecond) =
        .ok () := by
  obtain ⟨old, hold, -, hfirst⟩ := exists_view "First" atFirst shown_views.1
  obtain ⟨view, hview, hfragments, hsecond⟩ := exists_view "Second" atSecond shown_views.2.1
  rw [← Schema.answer_eq] at hold hview
  have hmem : second ∈ schema.entities :=
    (schema.registry.mem_of_entity? (show schema.registry.entity? second.id = some second from rfl)).1
  obtain ⟨hrespects, hbase, hcheck⟩ := Schema.narrowing_is_type_sound build_model hmem hview
  obtain ⟨old', hold', inherited, own, hinherited, hown, hproperties, hmoved⟩ := hbase "First" rfl
  cases hold.symm.trans hold'
  have hatSecond : atSecond ∈ view.properties := hsecond ▸ List.mem_singleton_self _
  -- the entity declares nothing, so what it shows is what it inherits
  obtain rfl : own = [] := List.sublist_nil.mp hown
  have hone : inherited = [atFirst] := by
    rw [hsecond, List.map_nil, List.append_nil] at hproperties
    refine (hfirst ▸ hinherited).eq_of_length ?_
    have hlength := congrArg List.length hproperties
    rw [List.length_map] at hlength
    exact hlength.symm
  obtain ⟨htarget, hnarrowed⟩ := targets
  have hcopy : schema.registry.inheritedCopy second.id view.fragments atFirst = atSecond := by
    rw [hfragments]
    rfl
  obtain ⟨target, htarget', d, hd, hdbase, henabled, hdid⟩ :=
    hmoved atFirst (hone ▸ List.mem_singleton_self _) (by rw [hcopy, htarget, hnarrowed]; decide)
  rw [hcopy] at hdid
  cases htarget.symm.trans htarget'
  exact ⟨old, view, hold, hview, hfirst, hsecond, htarget,
    ⟨d, hd, hdbase, henabled, hdid, Option.some.inj (hdid.symm.trans hnarrowed)⟩,
    hrespects _ hatSecond, hcheck _ _ _ hatSecond⟩

end Model.NarrowedOnce

end EntityModel
