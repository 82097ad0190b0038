import EntityModel.Proofs.Identifiers
import EntityModel.Proofs.Merge
import EntityModel.Proofs.Reachable
import EntityModel.Proofs.References

/-!
# What changes preserve

Changes check what they add against the model they find, and nothing that is registered ever goes
away again. So in every reachable model and in all that it includes the entities are intact: aliases
and fragments are told apart, properties know whose they are, and types and fragments are found.
-/

namespace EntityModel

/-- An entity as changes keep it, with what it names found from a model. -/
structure Entity.IntactIn (e : Entity) (m : Model) : Prop where
  aliases : (e.properties.map (·.aliasName)).Nodup
  fragments : (e.fragments.map (·.fragment)).Nodup
  owners : ∀ p ∈ e.properties, p.owner = some e.id
  types : ∀ p ∈ e.properties, (m.type? p.type.id).isSome
  attached : ∀ ref ∈ e.fragments, (m.fragment? ref.fragment).isSome

namespace Model

/-- What a part of a model declares itself is intact, with what it names found from the model. -/
structure IntactIn (part m : Model) : Prop where
  entities : ∀ e ∈ part.entities, e.IntactIn m
  joins : ∀ relation ∈ part.relations, (m.fragment? relation.sourceFragment).isSome

/-- The types and fragments that are found from one model are found from another one. -/
structure SeenFrom (m m' : Model) : Prop where
  types : m.visibleIds .type ⊆ m'.visibleIds .type
  fragments : m.visibleIds .sourceFragment ⊆ m'.visibleIds .sourceFragment

variable {m m' part : Model} {e e' : Entity}

lemma visibleIds_subset {kind : Identified} (hids : m.ids kind ⊆ m'.ids kind)
    (hincludes : m.includes ⊆ m'.includes) : m.visibleIds kind ⊆ m'.visibleIds kind := by
  intro id hid
  rw [visibleIds_eq] at hid ⊢
  rcases List.mem_append.mp hid with hid | hid
  · exact List.mem_append_left _ (hids hid)
  · obtain ⟨other, hother, hid⟩ := List.mem_flatMap.mp hid
    exact List.mem_append_right _ (List.mem_flatMap.mpr ⟨other, hincludes hother, hid⟩)

lemma SeenFrom.of_subset (htypes : m.types ⊆ m'.types) (hfragments : m.fragments ⊆ m'.fragments)
    (hincludes : m.includes ⊆ m'.includes) : m.SeenFrom m' :=
  ⟨visibleIds_subset (List.map_subset _ htypes) hincludes,
    visibleIds_subset (List.map_subset _ hfragments) hincludes⟩

lemma SeenFrom.type? (h : m.SeenFrom m') {id : String} (hfound : (m.type? id).isSome) :
    (m'.type? id).isSome :=
  isSome_type?_iff.mpr (h.types (isSome_type?_iff.mp hfound))

lemma SeenFrom.fragment? (h : m.SeenFrom m') {id : String} (hfound : (m.fragment? id).isSome) :
    (m'.fragment? id).isSome :=
  isSome_fragment?_iff.mpr (h.fragments (isSome_fragment?_iff.mp hfound))

/-- What a part of a model finds is found from the model. -/
lemma seenFrom_of_mem_tree (h : part ∈ m.tree) : part.SeenFrom m := by
  have hsub (kind : Identified) : part.visibleIds kind ⊆ m.visibleIds kind := by
    induction m using induct with
    | h m ih =>
      rw [tree_eq, List.mem_cons, List.mem_flatMap] at h
      rcases h with rfl | ⟨other, hother, hpart⟩
      · exact List.Subset.refl _
      · exact fun id hid => visibleIds_subset_of_include hother (ih other hother hpart hid)
  exact ⟨hsub .type, hsub .sourceFragment⟩

end Model

open Model (SeenFrom)

variable {m m' part : Model} {e e' : Entity}

lemma Entity.IntactIn.mono (h : e.IntactIn m) (hseen : m.SeenFrom m') : e.IntactIn m' where
  aliases := h.aliases
  fragments := h.fragments
  owners := h.owners
  types p hp := hseen.type? (h.types p hp)
  attached ref href := hseen.fragment? (h.attached ref href)

/-- What an entity attaches itself counts as attached to it. -/
lemma Registry.isAttached_own {r : Registry} {attached : List FragmentRef} {ref : FragmentRef}
    (heffective : r.effectiveFragments e = .ok attached) (href : ref ∈ e.fragments) :
    isAttached attached ref.fragment = true := by
  cases hchain : r.lineage e with
  | error err =>
    unfold effectiveFragments at heffective
    rw [hchain] at heffective
    cases heffective
  | ok chain =>
    cases (effectiveFragments_of_lineage hchain).symm.trans heffective
    exact (isAttached_effectiveFragments hchain).mpr ⟨0, e, rfl, ⟨ref, href, rfl⟩,
      fun before hlt => absurd hlt (Nat.not_lt_zero before)⟩

namespace Model

lemma IntactIn.mono (h : part.IntactIn m) (hseen : m.SeenFrom m') : part.IntactIn m' where
  entities e he := (h.entities e he).mono hseen
  joins relation hrelation := hseen.fragment? (h.joins relation hrelation)

/-- The checks of a change see to it that the entity stays intact. They are made against the effective
fragments, which are more than its own. -/
lemma Adjusts.intact (h : m.Adjusts e e') (he : e.IntactIn m) : e'.IntactIn m := by
  cases h with
  | @insertProperty position p attached heffective hcheck =>
    obtain ⟨haliases, htype, -⟩ := (m.registry.checkProperty_eq_ok_iff).mp hcheck
    obtain ⟨registered, hregistered, -⟩ := Registry.checkPropertyType_eq_ok_iff.mp htype
    refine ⟨nodup_map_insertWithin he.aliases haliases, he.fragments, fun q hq => ?_,
      fun q hq => ?_, he.attached⟩
    · rcases mem_insertWithin.mp hq with rfl | hq
      · rfl
      · exact he.owners q hq
    · rcases mem_insertWithin.mp hq with rfl | hq
      · exact Option.isSome_of_eq_some hregistered
      · exact he.types q hq
  | removeProperty aliasName =>
    have hsub := List.eraseP_sublist (p := fun q : Property => q.aliasName == aliasName)
      (l := e.properties)
    exact ⟨he.aliases.sublist (hsub.map _), he.fragments, fun q hq => he.owners q (hsub.mem hq),
      fun q hq => he.types q (hsub.mem hq), he.attached⟩
  | @insertFragment position ref attached heffective hcheck =>
    obtain ⟨hregistered, hnew⟩ := (m.registry.checkFragment_eq_ok_iff).mp hcheck
    have hown : ∀ own ∈ e.fragments, own.fragment ≠ ref.fragment := by
      intro own hown hsame
      obtain ⟨other, hother, hfragment⟩ :=
        List.any_eq_true.mp (Registry.isAttached_own heffective hown)
      exact hnew other hother ((beq_iff_eq.mp hfragment).trans hsame)
    refine ⟨he.aliases, nodup_map_insertWithin he.fragments hown, he.owners, he.types,
      fun other hother => ?_⟩
    rcases mem_insertWithin.mp hother with rfl | hother
    · exact hregistered
    · exact he.attached other hother
  | clearFragments =>
    exact ⟨he.aliases, List.nodup_nil, he.owners, he.types, fun ref href => (nomatch href)⟩
  | other hid hproperties hfragments =>
    exact ⟨hproperties ▸ he.aliases, hfragments ▸ he.fragments, hproperties ▸ hid ▸ he.owners,
      hproperties ▸ he.types, hfragments ▸ he.attached⟩

lemma Step.includes (h : m.Step m') : m'.includes = m.includes := by
  cases h <;> rfl

/-- A step only ever registers more. -/
lemma Step.seenFrom (h : m.Step m') : m.SeenFrom m' := by
  refine .of_subset ?_ ?_ (h.includes ▸ List.Subset.refl _)
  · cases h with
    | declareType hnew => exact List.subset_append_left _ _
    | _ => exact List.Subset.refl _
  · cases h with
    | declareFragment hnew => exact List.subset_append_left _ _
    | _ => exact List.Subset.refl _

lemma Step.intact (hstep : m.Step m') (h : m.IntactIn m) : m'.IntactIn m' := by
  have hmore := hstep.seenFrom
  have hseen := h.mono hmore
  cases hstep with
  | annotate nameSpace extensions => exact ⟨hseen.entities, hseen.joins⟩
  | declareType hnew => exact ⟨hseen.entities, hseen.joins⟩
  | declareFragment hnew => exact ⟨hseen.entities, hseen.joins⟩
  | declareEntity hnew =>
    refine ⟨fun e he => ?_, hseen.joins⟩
    rcases List.mem_append.mp he with he | he
    · exact hseen.entities e he
    · rw [List.mem_singleton.mp he]
      exact ⟨List.nodup_nil, List.nodup_nil, fun p hp => (nomatch hp), fun p hp => (nomatch hp),
        fun ref href => (nomatch href)⟩
  | relate hknown =>
    refine ⟨hseen.entities, fun relation hrelation => ?_⟩
    rcases List.mem_append.mp hrelation with hrelation | hrelation
    · exact hseen.joins relation hrelation
    · rw [List.mem_singleton.mp hrelation]
      exact hmore.fragment? hknown
  | adjust hown hchange =>
    refine ⟨fun e he => ?_, hseen.joins⟩
    rcases mem_changeFirst he with he | ⟨x, hx, rfl⟩
    · exact hseen.entities e he
    · cases hown.symm.trans hx
      exact (hchange.intact (h.entities _ (List.mem_of_find?_eq_some hown))).mono hmore
  | reorder hsub hdistinct =>
    exact ⟨fun e he => hseen.entities e (hsub e he), hseen.joins⟩

/-- Every part of a model that has grown finds itself what it names. -/
lemma Grown.intact (h : m.Grown) : ∀ part ∈ m.tree, part.IntactIn part := by
  induction h with
  | start nameSpace =>
    refine forall_mem_tree.mpr ⟨⟨fun e he => (nomatch he), fun relation h => (nomatch h)⟩, ?_⟩
    exact fun other hother => (nomatch hother)
  | step h hstep ih =>
    obtain ⟨hroot, hothers⟩ := forall_mem_tree.mp ih
    exact forall_mem_tree.mpr ⟨hstep.intact hroot, hstep.includes ▸ hothers⟩
  | @combine m other h hother hclash ih ihother =>
    obtain ⟨hroot, hothers⟩ := forall_mem_tree.mp ih
    -- the root sees more than before, and the new include brings its own parts
    have hmore : m.SeenFrom { m with includes := m.includes ++ [other] } :=
      .of_subset (List.Subset.refl _) (List.Subset.refl _) (List.subset_append_left _ _)
    have hseen := hroot.mono hmore
    refine forall_mem_tree.mpr ⟨⟨hseen.entities, hseen.joins⟩, fun x hx => ?_⟩
    rcases List.mem_append.mp hx with hx | hx
    · exact hothers x hx
    · rw [List.mem_singleton.mp hx]
      exact ihother

/-- No entity that is visible declares an alias twice. -/
def DistinctAliases (m : Model) : Prop :=
  ∀ e ∈ m.allEntities, (e.properties.map (·.aliasName)).Nodup

lemma Reachable.distinctAliases (h : m.Reachable) : m.DistinctAliases := by
  intro e he
  obtain ⟨part, hpart, he⟩ := List.mem_flatMap.mp he
  exact ((h.grown.intact part hpart).entities e he).aliases

/-- However a model has been made, it and all that it includes are intact: what is declared at any
depth is found where it is declared, and from the model as a whole. -/
theorem Reachable.intact_everywhere (h : m.Reachable) :
    ∀ part ∈ m.tree, part.IntactIn part ∧ part.IntactIn m := by
  intro part hpart
  have hintact := h.grown.intact part hpart
  exact ⟨hintact, hintact.mono (seenFrom_of_mem_tree hpart)⟩

namespace SharedStore

def text : TypeReference := ⟨"text", .native ⟨"String", .reference⟩⟩

def items : Model :=
  ofChanges [.addType text, .addFragment (.ofName "Items" "Items"), .addEntity
    { Entity.ofName "Item" "Item" with
      fragments := [.primary "Items"]
      properties := [.ofType "title" text] }]

/-- An entity and a relation that use the type and the table of an included model, and a property that
is refused for its alias. -/
def model : Model :=
  [Change.addEntity
      { Entity.ofName "Book" "Book" with
        base := some "Item"
        properties := [.ofType "author" text] },
    .addRelation (.binary (.ofEnds "Items" (.ofField "Book" "book") (.ofField "Item" "item"))),
    .addProperty "Book" (.ofType "author" text)].foldl (fun m c => c.edit.after m)
      ((Edit.addInclude items).after (ofNameSpace none))

theorem intact_everywhere_sharedStore :
    model.Reachable ∧
      model.allEntities.map (fun e => (e.properties.map (·.aliasName), e.fragments)) =
        [(["author"], []), (["title"], [.primary "Items"])] ∧
      model.allRelations.map (·.sourceFragment) = ["Items"] ∧
      ∀ part ∈ model.tree, part.IntactIn part ∧ part.IntactIn model := by
  have hstart : ((Edit.addInclude items).after (ofNameSpace none)).Reachable :=
    .combine (.start none) (reachable_ofChanges _)
  have hreachable : model.Reachable := .change _ (.change _ (.change _ hstart))
  exact ⟨hreachable, by decide +kernel, by decide +kernel, hreachable.intact_everywhere⟩

end SharedStore

end Model

end EntityModel
