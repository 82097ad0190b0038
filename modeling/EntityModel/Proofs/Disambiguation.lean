import EntityModel.Proofs.Folding
import EntityModel.Proofs.Freezing
import EntityModel.Proofs.Resolution

/-!
# What an alias tells

Without an alias an entity relation is looked for among the references of the complete owner, and with
one among its aliases. The aliases of a complete entity are distinct, so that each property that the
first search comes to is what the second one finds.
-/

namespace EntityModel

/-- The relation with its property named. -/
def EntityRelation.withAlias (relation : EntityRelation) (aliasName : String) : EntityRelation :=
  { relation with propertyAlias := some aliasName }

namespace Registry

open ModelError (IsRefusal)

/-- The properties of a complete owner by which an entity relation may be meant. -/
def candidates (r : Registry) (relation : EntityRelation) (owner : Entity) : List Property :=
  owner.properties.filter (r.refersTo · relation.sourceEntity)

variable {r : Registry} {relation : EntityRelation} {owner : Entity} {p : Property} {id : String}

lemma propertyByAlias?_of_mem (hdistinct : (owner.properties.map (·.aliasName)).Nodup)
    (hp : p ∈ owner.properties) : owner.propertyByAlias? p.aliasName = some p :=
  (find?_key_eq_some_iff hdistinct).mpr ⟨hp, rfl⟩

/-- Completing an entity never fails for want of an association. -/
lemma complete_failsWith_other (r : Registry) (id : String) :
    FailsWith (fun err => ∀ entity source fault, err ≠ .unresolvedRelation entity source fault)
      (r.complete id) := by
  cases hfound : r.entity? id with
  | none =>
    rw [complete_unknown hfound]
    exact failsWith_error fun _ _ _ h => (nomatch h)
  | some e =>
    cases hchain : r.lineage e with
    | error err =>
      obtain ⟨path, rfl⟩ := lineage_error hchain
      rw [complete_cyclic hfound hchain]
      exact failsWith_error fun _ _ _ h => (nomatch h)
    | ok chain =>
      refine (complete_refuses hfound hchain).mono ?_
      rintro err hrefusal entity source fault rfl
      exact hrefusal

lemma relationProperty_of_complete (hview : r.complete relation.entity = .ok owner) :
    r.relationProperty relation = r.associate relation owner := by
  obtain ⟨e, -, hfound, -⟩ := complete_eq_ok hview
  exact relationProperty_of_found (by rw [hfound]; rfl) hview

/-- Whatever becomes of a relation, it is found in the complete owner, or else it fails before. -/
lemma relationProperty_cases (r : Registry) (relation : EntityRelation) :
    (∃ owner, r.complete relation.entity = .ok owner ∧
      r.relationProperty relation = r.associate relation owner) ∨
    ∃ err, r.relationProperty relation = .error err ∧
      ∀ entity source fault, err ≠ .unresolvedRelation entity source fault := by
  by_cases hregistered : (r.entity? relation.entity).isNone = true
  · refine .inr ⟨.unknownEntity relation.entity .relationOwner, ?_, fun _ _ _ h => (nomatch h)⟩
    unfold relationProperty relationPropertyBy
    dsimp only
    rw [if_pos hregistered]
    rfl
  · cases hview : r.complete relation.entity with
    | ok owner => exact .inl ⟨owner, rfl, relationProperty_of_complete hview⟩
    | error err =>
      refine .inr ⟨err, ?_, r.complete_failsWith_other relation.entity err hview⟩
      unfold relationProperty relationPropertyBy
      dsimp only
      rw [if_neg hregistered, hview]
      rfl

lemma associate_candidate (hnone : relation.propertyAlias = none)
    (h : r.associate relation owner = .ok p) : p ∈ r.candidates relation owner := by
  unfold associate at h
  rw [hnone] at h
  dsimp only at h
  split at h
  · next only hcandidates =>
    cases h
    rw [candidates, hcandidates]
    exact List.mem_singleton_self p
  · cases h
  · cases h

lemma associate_multiple {entity source : String} (hnone : relation.propertyAlias = none)
    (h : r.associate relation owner = .error (.unresolvedRelation entity source .multiple)) :
    2 ≤ (r.candidates relation owner).length := by
  unfold associate at h
  rw [hnone] at h
  dsimp only at h
  split at h
  · cases h
  · cases h
  · next hmany hsome =>
    unfold candidates
    match hcandidates : owner.properties.filter (r.refersTo · relation.sourceEntity) with
    | [] => exact absurd hcandidates hsome
    | [only] => exact absurd hcandidates (hmany only)
    | _ :: _ :: _ => simp

/-- Named by its alias each candidate is what is found. -/
lemma relationProperty_withAlias (hview : r.complete relation.entity = .ok owner)
    (hp : p ∈ r.candidates relation owner) :
    r.relationProperty (relation.withAlias p.aliasName) = .ok p := by
  have hfound : owner.propertyByAlias? p.aliasName = some p :=
    propertyByAlias?_of_mem (complete_distinct hview) (List.mem_of_mem_filter hp)
  have hview' : r.complete (relation.withAlias p.aliasName).entity = .ok owner := hview
  rw [relationProperty_of_complete hview']
  unfold associate EntityRelation.withAlias
  dsimp only
  rw [hfound]

/-- An alias settles a relation. With the alias of the property that is found without one the same
property is found. Where several properties may be meant, there are two of them at least, and with the
alias of any of them it is that one which is found. A schema that keeps views gives the same answer,
with an alias or without, whatever it has been asked before. -/
theorem alias_settles_relation (hnone : relation.propertyAlias = none) :
    (∀ p, r.relationProperty relation = .ok p →
      r.relationProperty (relation.withAlias p.aliasName) = .ok p) ∧
    (∀ entity source, r.relationProperty relation =
        .error (.unresolvedRelation entity source .multiple) →
      ∃ owner, r.complete relation.entity = .ok owner ∧
        2 ≤ (r.candidates relation owner).length ∧
        ∀ p ∈ r.candidates relation owner,
          r.relationProperty (relation.withAlias p.aliasName) = .ok p) ∧
    ∀ (s : Schema) (asked : List String) (relation : EntityRelation), s.registry = r →
      s.answerAfter asked (relationPropertyBy s.complete s.registry relation) =
        r.relationProperty relation := by
  refine ⟨fun p hp => ?_, fun entity source hfails => ?_, fun s asked relation hs => ?_⟩
  · rcases r.relationProperty_cases relation with ⟨owner, hview, hsearch⟩ | ⟨err, herr, -⟩
    · rw [hsearch] at hp
      exact relationProperty_withAlias hview (associate_candidate hnone hp)
    · rw [herr] at hp
      cases hp
  · rcases r.relationProperty_cases relation with ⟨owner, hview, hsearch⟩ | ⟨err, herr, hother⟩
    · rw [hsearch] at hfails
      exact ⟨owner, hview, associate_multiple hnone hfails,
        fun p hp => relationProperty_withAlias hview hp⟩
    · rw [herr] at hfails
      exact absurd (Except.error.inj hfails) (hother entity source .multiple)
  · rw [s.answerAfter_relationProperty, hs]

end Registry

namespace Model.TwoReferences

def reference : TypeReference := ⟨"person", .entity "Person"⟩

/-- `Office` refers to `Person` by a reference that it inherits, and that is narrowed to `Clerk` there,
and by one of its own. -/
def model : Model :=
  { ofNameSpace none with
    types := [reference]
    entities := [Entity.ofName "Person" "Person",
      { Entity.ofName "Clerk" "Clerk" with base := some "Person" },
      { Entity.ofName "Unit" "Unit" with properties := [Property.ofType "Head" reference] },
      { Entity.ofName "Office" "Office" with
        base := some "Unit"
        properties := [Property.ofType "Deputy" reference] }] }

def registry : Registry := (Schema.flatten model .default).registry

def relation : EntityRelation := .between "Office" "Person"

theorem alias_settles_relation_office :
    relation.propertyAlias = none ∧
      registry.relationProperty relation =
        .error (.unresolvedRelation "Office" "Person" .multiple) ∧
      ∃ owner, registry.complete "Office" = .ok owner ∧
        2 ≤ (registry.candidates relation owner).length ∧
        ∀ p ∈ registry.candidates relation owner,
          registry.relationProperty (relation.withAlias p.aliasName) = .ok p := by
  have hnone : relation.propertyAlias = none := rfl
  have hmultiple : registry.relationProperty relation =
      .error (.unresolvedRelation "Office" "Person" .multiple) := by decide +kernel
  exact ⟨hnone, hmultiple, (Registry.alias_settles_relation hnone).2.1 _ _ hmultiple⟩

end Model.TwoReferences

end EntityModel
