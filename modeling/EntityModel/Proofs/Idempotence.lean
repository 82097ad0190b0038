import EntityModel.Proofs.Collision
import EntityModel.Proofs.Memoization
import EntityModel.Proofs.Representation

/-!
# Merging without a base

To settle an entity is to go through the checks that a finished entity has passed, so settling leaves
the finished entities as they are, and no others. What a merge gives is finished. In a schema so is the
declaration of a root.
-/

namespace EntityModel

namespace Registry

variable {r : Registry} {e : Entity}

lemma effectiveFragments_root (hbase : r.base? e = none)
    (hdistinct : (e.fragments.map (·.fragment)).Nodup) : r.effectiveFragments e = .ok e.fragments := by
  have hgather : gatherFragments [] [e] = e.fragments.foldl addMissing [] := by
    rw [gatherFragments]
    split <;> rfl
  rw [effectiveFragments_of_lineage (lineage_root hbase), hgather, foldl_addMissing_eq_self hdistinct]

/-- Settling leaves the finished entities as they are, and no others. -/
theorem settle_eq_self_iff : r.settle e = .ok e ↔ r.Finished e := by
  refine ⟨finished_of_settle, fun h => ?_⟩
  have hbase : r.base? e = none := by rw [base?, h.base, Option.bind_none]
  refine r.settle_eq_ok_iff.mpr ⟨e.fragments, effectiveFragments_root hbase h.fragments, h.registered,
    h.fragments, h.properties.aliases,
    fun p hp => ⟨h.properties.types p hp, h.properties.bindings p hp⟩, ?_⟩
  have hproperties : e.properties.map (·.ownedBy e.id) = e.properties := by
    refine (List.map_congr_left fun p hp => ?_).trans (List.map_id e.properties)
    rw [Property.ownedBy, ← h.properties.owners p hp, id]
  rw [hproperties, ← h.base]

/-- The declaration of a root goes through the checks of a merge once validation has found it sound. -/
lemma Sound.finished_root {m : Model} (h : r.Sound) (he : e ∈ r.entities) (hbase : e.base = none)
    (hintact : e.IntactIn m) : r.Finished e := by
  have hroot : r.base? e = none := by rw [base?, hbase, Option.bind_none]
  have hentity := h.entities e he _ (effectiveFragments_root hroot hintact.fragments)
  exact ⟨hbase, hentity.fragments, hintact.fragments,
    ⟨hintact.aliases, hentity.types, hentity.bindings, hintact.owners⟩⟩

end Registry

namespace Schema

variable {m : Model} {settings : Settings} {s : Schema}

/-- In a schema the complete view of a root is its declaration, whatever has been asked before, and
the complete view of any entity comes out of another merge as it is when there is no base. -/
theorem merging_without_base_is_identity (hreach : m.Reachable)
    (hbuild : m.build settings = .ok s) :
    (∀ e ∈ s.entities, e.base = none → ∀ asked, s.answerAfter asked (s.complete e.id) = .ok e) ∧
      ∀ asked id view, s.answerAfter asked (s.complete id) = .ok view →
        s.registry.merge none view = .ok view := by
  obtain ⟨rfl, -, hsound⟩ := Model.build_eq_ok_iff.mp hbuild
  refine ⟨fun e he hbase asked => ?_, fun asked id view hview => ?_⟩
  · obtain ⟨part, hpart, hdeclared⟩ := List.mem_flatMap.mp he
    have hintact := (hreach.grown.intact part hpart).entities e hdeclared
    have hroot : (Schema.flatten m settings).registry.base? e = none := by
      rw [Registry.base?, hbase, Option.bind_none]
    rw [answerAfter_complete, Registry.complete_root (hsound.entity?_of_mem he) hroot,
      Registry.merge_none]
    exact Registry.settle_eq_self_iff.mpr (hsound.finished_root he hbase hintact)
  · rw [answerAfter_complete] at hview
    rw [Registry.merge_none]
    exact Registry.settle_eq_self_iff.mpr (Registry.finished_of_complete hview)

end Schema

namespace Model.TiedOrders

def item : TypeReference := ⟨"item", .entity "Item"⟩

/-- References are narrowed twice on the way down, and the table of the root is left behind halfway. -/
def model : Model :=
  ofChanges [.addType item, .addFragment (.ofName "Items" "Items"),
    .addFragment (.ofName "Orders" "Orders"),
    .addEntity
      { Entity.ofName "Item" "Item" with
        description := some ""
        fragments := [.primary "Items"]
        properties := [(Property.ofType "parent" item).storedIn "Items" "parent_id"] },
    .addEntity
      { Entity.ofName "Order" "Order" with
        base := some "Item"
        inheritsBaseTables := false
        fragments := [.primary "Orders"]
        suppressed := ["parent"]
        properties := [(Property.ofType "origin" item).storedIn "Orders" "origin_id"] },
    .addEntity
      { Entity.ofName "Rush" "Rush" with base := some "Order", suppressed := ["origin"] }]

def schema : Schema := Schema.flatten model .default

lemma build_model : model.build .default = .ok schema :=
  build_of_problems (by decide +kernel) (by decide +kernel)

/-- The root has an empty description, and the last view shows `parent` without the table behind it. -/
theorem merging_without_base_is_identity_tiedOrders :
    model.Reachable ∧ model.build .default = .ok schema ∧
      (∃ root ∈ schema.entities, root.base = none ∧ root.description = some "" ∧
        schema.answerAfter ["Rush"] (schema.complete root.id) = .ok root) ∧
      ∃ view, schema.answerAfter [] (schema.complete "Rush") = .ok view ∧
        view.properties.map (fun p => (p.name, p.type.kind, p.sourceFragment)) =
          [("parent", .entity "Rush", none), ("origin", .entity "Order", some "Orders")] ∧
        view.suppressed = ["origin", "parent"] ∧ schema.registry.merge none view = .ok view := by
  have hreach : model.Reachable := reachable_ofChanges _
  have hdeclared : schema.entities.head?.map (fun e => (e.base, e.description)) =
      some (none, some "") := by decide +kernel
  have hshown : (schema.registry.complete "Rush").toOption.map (fun view =>
      (view.properties.map (fun p => (p.name, p.type.kind, p.sourceFragment)), view.suppressed)) =
        some ([("parent", .entity "Rush", none), ("origin", .entity "Order", some "Orders")],
          ["origin", "parent"]) := by decide +kernel
  obtain ⟨hroots, hviews⟩ := Schema.merging_without_base_is_identity hreach build_model
  obtain ⟨root, hhead, hparts⟩ := Option.map_eq_some_iff.mp hdeclared
  obtain ⟨hbase, hdescription⟩ := Prod.mk.inj hparts
  obtain ⟨view, hview, hparts⟩ := exists_ok_of_map hshown
  obtain ⟨hproperties, hsuppressed⟩ := Prod.mk.inj hparts
  have hroot := List.mem_of_mem_head? hhead
  rw [← Schema.answerAfter_complete schema []] at hview
  exact ⟨hreach, build_model, ⟨root, hroot, hbase, hdescription, hroots root hroot hbase _⟩,
    view, hview, hproperties, hsuppressed, hviews _ _ _ hview⟩

end Model.TiedOrders

end EntityModel
