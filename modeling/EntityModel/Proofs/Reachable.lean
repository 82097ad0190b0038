import EntityModel.Proofs.Atomicity
import EntityModel.Proofs.Placement
import Mathlib.Data.List.Induction
import Mathlib.Data.List.Nodup

/-!
# Reachable models

A model is made by changes to a model without declarations, by including one model in another and by
loading a source. All of that comes down to a few steps, each of which adds one declaration or
adjusts one entity: what every step keeps holds of every reachable model.
-/

namespace EntityModel

/-- A public operation that changes a model. -/
inductive Change where
  | addType (type : TypeReference)
  | addFragment (fragment : SourceFragment)
  | addEntity (entity : Entity)
  | addRelation (relation : Relation)
  | setModelExtension (name : String) (node : ExtensionNode)
  | addProperty (entity : String) (p : Property)
  | insertProperty (entity : String) (position : Nat) (p : Property)
  | removeProperty (entity aliasName : String)
  | attachFragment (entity : String) (ref : FragmentRef)
  | insertFragment (entity : String) (position : Nat) (ref : FragmentRef)
  | clearFragments (entity : String)
  | suppress (entity name : String)
  | addEntityRelation (entity : String) (relation : EntityRelation)
  | setExtension (entity name : String) (node : ExtensionNode)
  | setBase (entity : String) (base : Option String)
  | setInheritsBaseTables (entity : String) (inherits : Bool)
  | setDisabled (entity : String) (disabled : Bool)

namespace Change

def edit : Change → Edit Unit
  | addType type => Edit.addType type
  | addFragment fragment => Edit.addFragment fragment
  | addEntity entity => Edit.addEntity entity
  | addRelation relation => Edit.addRelation relation
  | setModelExtension name node => Edit.setModelExtension name node
  | addProperty entity p => Edit.addProperty entity p
  | insertProperty entity position p => Edit.insertProperty entity position p
  | removeProperty entity aliasName => discard (Edit.removeProperty entity aliasName)
  | attachFragment entity ref => Edit.attachFragment entity ref
  | insertFragment entity position ref => Edit.insertFragment entity position ref
  | clearFragments entity => Edit.clearFragments entity
  | suppress entity name => Edit.suppress entity name
  | addEntityRelation entity relation => Edit.addEntityRelation entity relation
  | setExtension entity name node => Edit.setExtension entity name node
  | setBase entity base => Edit.setBase entity base
  | setInheritsBaseTables entity inherits => Edit.setInheritsBaseTables entity inherits
  | setDisabled entity disabled => Edit.setDisabled entity disabled

end Change

namespace Model

/-- The models that can be made. A change counts also when it fails, with what it leaves behind. -/
inductive Reachable : Model → Prop where
  | start (nameSpace : Option String) : Reachable (ofNameSpace nameSpace)
  | annotate {m : Model} (nameSpace : Option String) (extensions : Extensions) (h : Reachable m) :
      Reachable { m with nameSpace := nameSpace, extensions := extensions }
  | change {m : Model} (c : Change) (h : Reachable m) : Reachable (c.edit.after m)
  | combine {m other : Model} (h : Reachable m) (hother : Reachable other) :
      Reachable ((Edit.addInclude other).after m)
  | load {source : ModelSource} {m : Model} (h : source.load = .ok m) : Reachable m

/-- What may become of an entity that a model declares itself. -/
inductive Adjusts (m : Model) (e : Entity) : Entity → Prop where
  | insertProperty (position : Nat) (p : Property) {attached : List FragmentRef}
      (heffective : m.registry.effectiveFragments e = .ok attached)
      (hcheck : m.registry.checkProperty e.id e.properties attached p = .ok ()) :
      Adjusts m e { e with properties := insertWithin e.properties position (p.ownedBy e.id) }
  | removeProperty (aliasName : String) :
      Adjusts m e { e with properties := e.properties.eraseP (·.aliasName == aliasName) }
  | insertFragment (position : Nat) (ref : FragmentRef) {attached : List FragmentRef}
      (heffective : m.registry.effectiveFragments e = .ok attached)
      (hcheck : m.registry.checkFragment e.id attached ref = .ok ()) :
      Adjusts m e { e with fragments := insertWithin e.fragments position ref }
  | clearFragments : Adjusts m e { e with fragments := [] }
  | other {e' : Entity} (hid : e'.id = e.id) (hproperties : e'.properties = e.properties)
      (hfragments : e'.fragments = e.fragments) : Adjusts m e e'

lemma Adjusts.id {m : Model} {e e' : Entity} (h : m.Adjusts e e') : e'.id = e.id := by
  cases h with
  | insertProperty position p heffective hcheck => rfl
  | removeProperty aliasName => rfl
  | insertFragment position ref heffective hcheck => rfl
  | clearFragments => rfl
  | other hid hproperties hfragments => exact hid

/-- One declaration more, one entity adjusted, or what concerns no declaration. -/
inductive Step (m : Model) : Model → Prop where
  | annotate (nameSpace : Option String) (extensions : Extensions) :
      Step m { m with nameSpace := nameSpace, extensions := extensions }
  | declareType {t : TypeReference} (hnew : m.type? t.id = none) :
      Step m { m with types := m.types ++ [t] }
  | declareFragment {f : SourceFragment} (hnew : m.fragment? f.id = none) :
      Step m { m with fragments := m.fragments ++ [f] }
  | declareEntity {e : Entity} (hnew : m.entity? e.id = none) : Step m (m.withBare e)
  | relate {relation : Relation} (hknown : (m.fragment? relation.sourceFragment).isSome) :
      Step m { m with relations := m.relations ++ [relation] }
  | adjust {id : String} {change : Entity → Entity} {e : Entity} (hown : m.ownEntity? id = some e)
      (hchange : m.Adjusts e (change e)) : Step m (m.changeEntity id change)
  | reorder {entities : List Entity} (hsub : ∀ e ∈ entities, e ∈ m.entities)
      (hdistinct : (entities.map (·.id)).Nodup) : Step m { m with entities := entities }

/-- The models that grow step by step, and by including others that have grown. -/
inductive Grown : Model → Prop where
  | start (nameSpace : Option String) : Grown (ofNameSpace nameSpace)
  | step {m m' : Model} (h : Grown m) (hstep : m.Step m') : Grown m'
  | combine {m other : Model} (h : Grown m) (hother : Grown other)
      (hclash : m.clash? other = none) : Grown { m with includes := m.includes ++ [other] }

variable {m m' : Model} {id : String} {change : Entity → Entity}

lemma mem_changeFirst {l : List Entity} {x : Entity} (h : x ∈ changeFirst id change l) :
    x ∈ l ∨ ∃ e, l.find? (·.id == id) = some e ∧ x = change e := by
  induction l with
  | nil => cases h
  | cons e l ih =>
    rw [changeFirst] at h
    rw [List.find?_cons]
    by_cases hid : e.id = id
    · rw [if_pos hid] at h
      rw [beq_iff_eq.mpr hid]
      rcases List.mem_cons.mp h with rfl | h
      · exact .inr ⟨e, rfl, rfl⟩
      · exact .inl (List.mem_cons_of_mem _ h)
    · rw [if_neg hid] at h
      rw [beq_false_of_ne hid]
      rcases List.mem_cons.mp h with rfl | h
      · exact .inl List.mem_cons_self
      · exact (ih h).imp_left (List.mem_cons_of_mem _)

lemma map_changeFirst {α : Type} {key : Entity → α} {l : List Entity}
    (hchange : ∀ e, l.find? (·.id == id) = some e → key (change e) = key e) :
    (changeFirst id change l).map key = l.map key := by
  induction l with
  | nil => rfl
  | cons e l ih =>
    rw [changeFirst]
    by_cases hid : e.id = id
    · rw [if_pos hid, List.map_cons, List.map_cons, hchange e (by simp [hid])]
    · rw [if_neg hid, List.map_cons, List.map_cons, ih fun x hx => hchange x (by simp [hid, hx])]

lemma Adjusts.map_id {e : Entity} (h : m.Adjusts e (change e)) (hown : m.ownEntity? id = some e) :
    (m.changeEntity id change).entities.map (·.id) = m.entities.map (·.id) := by
  refine map_changeFirst fun x hx => ?_
  cases hown.symm.trans hx
  exact h.id

lemma map_id_withBare (m : Model) (e : Entity) :
    (m.withBare e).entities.map (·.id) = m.entities.map (·.id) ++ [e.id] :=
  List.map_append

/-- No two entities that a model declares itself share an identifier. -/
lemma Grown.nodup_ids (h : m.Grown) : (m.entities.map (·.id)).Nodup := by
  induction h with
  | start nameSpace => exact List.nodup_nil
  | step h hstep ih =>
    cases hstep with
    | annotate nameSpace extensions => exact ih
    | declareType hnew => exact ih
    | declareFragment hnew => exact ih
    | declareEntity hnew =>
      rw [map_id_withBare, List.nodup_append']
      refine ⟨ih, List.nodup_singleton _, List.disjoint_singleton.mpr fun hmem => ?_⟩
      obtain ⟨x, hx, hid⟩ := List.mem_map.mp hmem
      exact ne_of_entity?_eq_none hnew x hx hid
    | relate hknown => exact ih
    | adjust hown hchange => exact (hchange.map_id hown).symm ▸ ih
    | reorder hsub hdistinct => exact hdistinct
  | combine h hother hclash ih ihother => exact ih

end Model

namespace Edit

open Model (Grown)

variable {α : Type} {m m' : Model}

lemma keeps_grown_modify {change : Model → Model} (h : ∀ m : Model, m.Step (change m)) :
    Keeps Grown (modify change) := keeps_modify fun m hm => hm.step (h m)

/-- Changes to an entity that leave its identifier, its properties and its fragments alone. -/
lemma keeps_grown_changeEntity {id : String} {change : Entity → Entity}
    (hchange : ∀ e, (change e).id = e.id ∧ (change e).properties = e.properties ∧
      (change e).fragments = e.fragments) : Keeps Grown (changeEntity id change) := by
  refine (isAtomic_changeEntity id change).keeps fun m _ m' hm h => ?_
  obtain ⟨⟨e, hown⟩, rfl⟩ := run_changeEntity_eq_ok h
  obtain ⟨hid, hproperties, hfragments⟩ := hchange e
  exact hm.step (.adjust hown (.other hid hproperties hfragments))

/-- A change that is refused under a condition and else is a step. -/
lemma keeps_grown_unless {refused : Model → Bool} {err : ModelError} {change : Model → Model}
    (h : ∀ m : Model, refused m = false → m.Step (change m)) :
    Keeps Grown (do
      if refused (← get) then throw err
      modify change) :=
  keeps_unless fun m haccepted hm => hm.step (h m haccepted)

lemma keeps_grown_addType (t : TypeReference) : Keeps Grown (addType t) :=
  keeps_grown_unless fun _ hnew => .declareType (by simpa using hnew)

lemma keeps_grown_addFragment (f : SourceFragment) : Keeps Grown (addFragment f) :=
  keeps_grown_unless fun _ hnew => .declareFragment (by simpa using hnew)

lemma keeps_grown_addRelation (relation : Relation) : Keeps Grown (addRelation relation) :=
  keeps_grown_unless fun _ hknown => .relate (by simpa using hknown)

lemma keeps_grown_addInclude {other : Model} (hother : other.Grown) :
    Keeps Grown (addInclude other) := by
  intro m hm
  unfold addInclude
  rw [after_bind]
  change Grown (Edit.after _ m)
  split
  · exact hm
  · next hclash => exact hm.combine hother hclash

lemma keeps_grown_insertProperty (entity : String) (position : Nat) (p : Property) :
    Keeps Grown (insertProperty entity position p) := by
  refine (isAtomic_insertProperty entity position p).keeps fun m _ m' hm h => ?_
  obtain ⟨e, attached, hown, heffective, hcheck, rfl⟩ := insertProperty_eq_ok h
  exact hm.step (.adjust hown (.insertProperty position p heffective hcheck))

lemma keeps_grown_addProperty (entity : String) (p : Property) :
    Keeps Grown (addProperty entity p) :=
  keeps_bind (keeps_ownEntity entity) fun _ => keeps_grown_insertProperty entity _ p

lemma keeps_grown_removeProperty (entity aliasName : String) :
    Keeps Grown (removeProperty entity aliasName) := by
  refine (isAtomic_removeProperty entity aliasName).keeps fun m _ m' hm h => ?_
  obtain ⟨⟨e, hown⟩, rfl⟩ := removeProperty_eq_ok h
  exact hm.step (.adjust hown (.removeProperty aliasName))

lemma keeps_grown_insertFragment (entity : String) (position : Nat) (ref : FragmentRef) :
    Keeps Grown (insertFragment entity position ref) := by
  refine (isAtomic_insertFragment entity position ref).keeps fun m _ m' hm h => ?_
  obtain ⟨e, attached, hown, heffective, hcheck, -, rfl⟩ := insertFragment_eq_ok h
  exact hm.step (.adjust hown (.insertFragment position ref heffective hcheck))

lemma keeps_grown_attachFragment (entity : String) (ref : FragmentRef) :
    Keeps Grown (attachFragment entity ref) :=
  keeps_bind (keeps_ownEntity entity) fun _ => keeps_grown_insertFragment entity _ ref

lemma keeps_grown_clearFragments (entity : String) : Keeps Grown (clearFragments entity) := by
  refine (isAtomic_changeEntity entity _).keeps fun m _ m' hm h => ?_
  obtain ⟨⟨e, hown⟩, rfl⟩ := run_changeEntity_eq_ok h
  exact hm.step (.adjust hown .clearFragments)

lemma keeps_grown_suppress (entity name : String) : Keeps Grown (suppress entity name) := by
  refine keeps_grown_changeEntity fun e => ?_
  split <;> exact ⟨rfl, rfl, rfl⟩

lemma keeps_grown_setBase (entity : String) (base : Option String) :
    Keeps Grown (setBase entity base) := by
  refine (isAtomic_setBase entity base).keeps fun m _ m' hm h => ?_
  obtain ⟨⟨e, hown⟩, rfl⟩ := setBase_eq_ok h
  exact hm.step (.adjust hown (.other rfl rfl rfl))

lemma keeps_grown_addEntity (e : Entity) : Keeps Grown (addEntity e) := by
  refine (isAtomic_addEntity e).keeps fun m _ m' hm h => ?_
  obtain ⟨hnew, hrun⟩ := run_addEntity_eq_ok_iff.mp h
  have hattach : Keeps Grown (attachDeclared e.id e.fragments e.properties) :=
    keeps_bind (keeps_forM (keeps_grown_attachFragment e.id) e.fragments) fun _ =>
      keeps_forM (keeps_grown_addProperty e.id) e.properties
  exact hattach.run_ok (hm.step (.declareEntity hnew)) hrun

end Edit

namespace Change

open Edit in
/-- Every change comes down to steps. -/
lemma keeps_grown (c : Change) : Edit.Keeps Model.Grown c.edit := by
  cases c with
  | addType type => exact keeps_grown_addType type
  | addFragment fragment => exact keeps_grown_addFragment fragment
  | addEntity entity => exact keeps_grown_addEntity entity
  | addRelation relation => exact keeps_grown_addRelation relation
  | setModelExtension name node => exact keeps_grown_modify fun m => .annotate m.nameSpace _
  | addProperty entity p => exact keeps_grown_addProperty entity p
  | insertProperty entity position p => exact keeps_grown_insertProperty entity position p
  | removeProperty entity aliasName =>
    exact keeps_bind (keeps_grown_removeProperty entity aliasName) fun _ => keeps_pure ()
  | attachFragment entity ref => exact keeps_grown_attachFragment entity ref
  | insertFragment entity position ref => exact keeps_grown_insertFragment entity position ref
  | clearFragments entity => exact keeps_grown_clearFragments entity
  | suppress entity name => exact keeps_grown_suppress entity name
  | addEntityRelation entity relation => exact keeps_grown_changeEntity fun _ => ⟨rfl, rfl, rfl⟩
  | setExtension entity name node => exact keeps_grown_changeEntity fun _ => ⟨rfl, rfl, rfl⟩
  | setBase entity base => exact keeps_grown_setBase entity base
  | setInheritsBaseTables entity inherits =>
    exact keeps_grown_changeEntity fun _ => ⟨rfl, rfl, rfl⟩
  | setDisabled entity disabled => exact keeps_grown_changeEntity fun _ => ⟨rfl, rfl, rfl⟩

end Change

namespace ModelSource

open Model (Grown)

variable {m m' : Model}

lemma restoreOrder_perm (order : List String) (m : Model) :
    (restoreOrder order m).entities.Perm m.entities := List.mergeSort_perm _ _

/-- Putting the entities into another order is a step. -/
lemma step_restoreOrder (hm : m.Grown) (order : List String) : m.Step (restoreOrder order m) := by
  have hperm := restoreOrder_perm order m
  exact .reorder (fun e he => hperm.mem_iff.mp he) ((hperm.map (·.id)).nodup_iff.mpr hm.nodup_ids)

lemma grown_of_replayDeclared {types : List TypeReference} {fragments : List SourceFragment}
    {entities : List Entity} {relations : List Relation} (hm : m.Grown)
    (hrun : (replayDeclared types fragments entities relations).run m = .ok () m') : m'.Grown := by
  unfold replayDeclared at hrun
  obtain ⟨_, m₁, htypes, hrun⟩ := Edit.run_bind_eq_ok hrun
  obtain ⟨_, m₂, hfragments, hrun⟩ := Edit.run_bind_eq_ok hrun
  obtain ⟨_, m₃, hentities, hrun⟩ := Edit.run_bind_eq_ok hrun
  obtain ⟨_, m₄, hrestore, hrelations⟩ := Edit.run_bind_eq_ok hrun
  cases hrestore
  have hm₁ := (Edit.keeps_forM Edit.keeps_grown_addType types).run_ok hm htypes
  have hm₂ := (Edit.keeps_forM Edit.keeps_grown_addFragment fragments).run_ok hm₁ hfragments
  have hm₃ := (Edit.keeps_forM (fun e => Edit.keeps_grown_addEntity (withAliases e))
    (basesFirst entities)).run_ok hm₂ hentities
  exact (Edit.keeps_forM Edit.keeps_grown_addRelation relations).run_ok
    (hm₃.step (step_restoreOrder hm₃ _)) hrelations

mutual

theorem load_grown : (source : ModelSource) → {m : Model} → source.load = .ok m → m.Grown
  | ⟨nameSpace, types, fragments, entities, relations, includes, extensions⟩, m, h => by
    rw [load, Edit.result_eq_ok_iff] at h
    obtain ⟨_, next, hincludes, hdeclared⟩ := Edit.run_bind_eq_ok h
    have hblank := (Grown.start nameSpace).step (.annotate nameSpace extensions)
    exact grown_of_replayDeclared
      ((keeps_grown_replayIncludes includes).run_ok hblank hincludes) hdeclared
termination_by structural source => source

theorem keeps_grown_replayIncludes : (sources : List ModelSource) →
    Edit.Keeps Grown (replayIncludes sources)
  | [] => Edit.keeps_pure ()
  | source :: rest => by
    rw [replayIncludes]
    cases hload : source.load with
    | error err => exact fun m hm => hm
    | ok other =>
      rw [Edit.check_ok, pure_bind]
      exact Edit.keeps_bind (Edit.keeps_grown_addInclude (load_grown source hload)) fun _ =>
        keeps_grown_replayIncludes rest
termination_by structural sources => sources

end

end ModelSource

namespace Model

/-- However a model has been made, it has grown step by step. -/
theorem Reachable.grown {m : Model} (h : m.Reachable) : m.Grown := by
  induction h with
  | start nameSpace => exact .start nameSpace
  | annotate nameSpace extensions h ih => exact ih.step (.annotate nameSpace extensions)
  | change c h ih => exact c.keeps_grown _ ih
  | combine h hother ih ihother => exact Edit.keeps_grown_addInclude ihother _ ih
  | load h => exact ModelSource.load_grown _ h

/-- The model that is made by some changes, one after the other. -/
def ofChanges (changes : List Change) : Model :=
  changes.foldl (fun m c => c.edit.after m) (ofNameSpace none)

lemma reachable_ofChanges (changes : List Change) : (ofChanges changes).Reachable := by
  induction changes using List.reverseRecOn with
  | nil => exact .start none
  | append_singleton changes c ih =>
    rw [ofChanges, List.foldl_append]
    exact .change c ih

end Model

end EntityModel
