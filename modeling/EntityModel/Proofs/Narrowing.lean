import EntityModel.Proofs.Merge
import EntityModel.Proofs.Soundness

/-!
# Narrowed references

An inherited reference is narrowed to an active entity that is derived from its target. In a sound
registry the narrowed type is as good as the declared one: what a type may be, it may still be when
it has been narrowed.
-/

namespace EntityModel.Registry

/-- A type that a property may have: it is registered, the registered type has no unknown target, and
the kinds are consistent. -/
def IsAdmissible (r : Registry) (type : TypeReference) : Prop :=
  ∃ registered, r.type? type.id = some registered ∧
    r.isConsistent type.kind registered.kind = true ∧
    ∀ target ∈ registered.target?, r.isKnown target = true

variable {r : Registry} {completing target derived : String} {type : TypeReference}

lemma IsAdmissible.check {entity : String} {p : Property} (h : r.IsAdmissible p.type) :
    r.checkPropertyType entity p = .ok () := by
  obtain ⟨registered, htype, hconsistent, -⟩ := h
  exact checkPropertyType_eq_ok_iff.mpr ⟨registered, htype, hconsistent⟩

lemma mem_activeSubtypes :
    derived ∈ r.activeSubtypes target ↔
      ∃ e ∈ r.entities, e.base = some target ∧ e.disabled = false ∧ e.id = derived := by
  simp [activeSubtypes, activeEntities, and_assoc]

lemma narrowedTarget?_mem (h : r.narrowedTarget? completing target = some derived) :
    derived ∈ r.activeSubtypes target := by
  unfold narrowedTarget? at h
  split at h
  · next only he =>
    cases h
    rw [he]
    exact List.mem_singleton_self _
  · next hmany =>
    split at h
    · next hcontains =>
      cases h
      simpa using hcontains
    · cases h

lemma narrow_cases (r : Registry) (completing : String) (type : TypeReference) :
    r.narrow completing type = (type, false) ∨
      ∃ target derived, r.options.narrowReferences = true ∧ type.target? = some target ∧
        r.narrowedTarget? completing target = some derived ∧
        r.narrow completing type = (type.retarget derived, true) := by
  unfold narrow
  split
  · exact .inl rfl
  · next target htarget =>
    obtain ⟨htarget, hon⟩ := Option.filter_eq_some_iff.mp htarget
    split
    · next derived hderived => exact .inr ⟨target, derived, hon, htarget, hderived, rfl⟩
    · exact .inl rfl

namespace Sound

/-- The subtypes of an entity derive from all that the entity derives from. -/
lemma derivesFrom_subtype (h : r.Sound) {base : String} (hd : derived ∈ r.activeSubtypes target)
    (hbase : r.derivesFrom target base = true) : r.derivesFrom derived base = true := by
  obtain ⟨e, he, htarget, -, rfl⟩ := mem_activeSubtypes.mp hd
  obtain ⟨b, chain, hb, -, -⟩ := derivesFrom_eq_true.mp hbase
  obtain ⟨chain, hchain⟩ := h.chains e he
  have hbase? : r.base? e = some b := by
    rw [base?, htarget]
    exact hb
  rw [derivesFrom_base_iff (h.entity?_of_mem he) hchain hbase?, (r.mem_of_entity? hb).2]
  exact .inr hbase

lemma derivesFrom_refl (h : r.Sound) (hknown : r.isKnown target = true) :
    r.derivesFrom target target = true := by
  obtain ⟨e, he⟩ := Option.isSome_iff_exists.mp hknown
  obtain ⟨chain, hchain⟩ := h.chains e (r.mem_of_entity? he).1
  exact derivesFrom_self he hchain

lemma declared_admissible (h : r.Sound) {e : Entity} (he : e ∈ r.entities) {p : Property}
    (hp : p ∈ e.properties) : r.IsAdmissible p.type := by
  obtain ⟨chain, hchain⟩ := h.chains e he
  have hentity := h.entities e he _ (effectiveFragments_of_lineage hchain)
  obtain ⟨registered, htype, hconsistent⟩ := checkPropertyType_eq_ok_iff.mp (hentity.types p hp)
  exact ⟨registered, htype, hconsistent, h.targets e he p hp registered htype⟩

/-- Narrowing a type keeps it admissible. -/
theorem narrow_admissible (h : r.Sound) (htype : r.IsAdmissible type) (completing : String) :
    r.IsAdmissible (r.narrow completing type).1 := by
  obtain ⟨registered, hregistered, hconsistent, hknown⟩ := htype
  obtain heq | ⟨target, derived, -, htarget, hderived, heq⟩ := r.narrow_cases completing type
  · rw [heq]
    exact ⟨registered, hregistered, hconsistent, hknown⟩
  · rw [heq]
    refine ⟨registered, hregistered, ?_, hknown⟩
    have hkind : type.kind = .entity target := by
      unfold TypeReference.target? TypeKind.target? at htarget
      split at htarget <;> simp_all
    rw [hkind] at hconsistent
    change r.isConsistent (.entity derived) registered.kind = true
    cases hkind' : registered.kind with
    | native _ => simp [hkind', isConsistent] at hconsistent
    | user _ _ => simp [hkind', isConsistent] at hconsistent
    | entity top =>
      have htop : r.derivesFrom target top = true := by
        simp only [hkind', isConsistent, Bool.or_eq_true, beq_iff_eq] at hconsistent
        rcases hconsistent with rfl | hderives
        · refine h.derivesFrom_refl (hknown target ?_)
          rw [TypeReference.target?, hkind']
          rfl
        · exact hderives
      simp only [isConsistent, Bool.or_eq_true]
      exact .inr (h.derivesFrom_subtype (narrowedTarget?_mem hderived) htop)

end Sound

end EntityModel.Registry
