import EntityModel.Model.Edit
import Mathlib.Data.List.Basic

/-!
# Runs of changes

A change asks the model whether it may be made and then makes it. What it has asked and made is read
off a run that succeeds. Two changes write first: a base is set before the chain is followed, and an
entity is added bare before its declarations are attached.
-/

namespace EntityModel

namespace Model

variable {m m' : Model} {id : String} {e : Entity} {change : Entity → Entity}

/-- The model with an entity behind the others that has no properties and no fragments yet. -/
def withBare (m : Model) (e : Entity) : Model :=
  { m with entities := m.entities ++ [{ e with fragments := [], properties := [] }] }

/-- A model with one more entity behind the others, of an identifier. -/
def ExtendedBy (m : Model) (id : String) (m' : Model) : Prop :=
  ∃ e : Entity, e.id = id ∧ m' = { m with entities := m.entities ++ [e] }

lemma ExtendedBy.withBare (m : Model) (e : Entity) : m.ExtendedBy e.id (m.withBare e) :=
  ⟨{ e with fragments := [], properties := [] }, rfl, rfl⟩

lemma mem_allEntities (he : e ∈ m.entities) : e ∈ m.allEntities := by
  unfold allEntities
  rw [tree_eq, List.flatMap_cons]
  exact List.mem_append_left _ he

lemma entity?_eq_none_iff : m.entity? id = none ↔ ∀ x ∈ m.allEntities, x.id ≠ id := by
  constructor
  · rintro hnone x hx rfl
    exact absurd hnone (Option.isSome_iff_ne_none.mp (isSome_entity? hx))
  · intro hnew
    by_contra hsome
    obtain ⟨x, hx⟩ := Option.ne_none_iff_exists'.mp hsome
    obtain ⟨hmem, hid⟩ := mem_of_entity? hx
    exact hnew x hmem hid

lemma ne_of_entity?_eq_none (h : m.entity? id = none) : ∀ x ∈ m.entities, x.id ≠ id :=
  fun x hx => entity?_eq_none_iff.mp h x (mem_allEntities hx)

lemma changeFirst_concat {l : List Entity} (hnew : ∀ x ∈ l, x.id ≠ id) (hid : e.id = id) :
    changeFirst id change (l ++ [e]) = l ++ [change e] := by
  induction l with
  | nil => simp [changeFirst, hid]
  | cons x l ih =>
    rw [List.cons_append, changeFirst, if_neg (hnew x List.mem_cons_self),
      ih fun y hy => hnew y (List.mem_cons_of_mem _ hy), List.cons_append]

lemma ExtendedBy.changeEntity (h : m.ExtendedBy id m') (hnew : ∀ x ∈ m.entities, x.id ≠ id)
    (hchange : ∀ e, (change e).id = e.id) : m.ExtendedBy id (m'.changeEntity id change) := by
  obtain ⟨e, hid, rfl⟩ := h
  refine ⟨change e, (hchange e).trans hid, ?_⟩
  unfold Model.changeEntity
  rw [changeFirst_concat hnew hid]

/-- Only the first entity of the identifier matters to a change. -/
lemma changeFirst_eq_self {l : List Entity}
    (h : ∀ e, l.find? (·.id == id) = some e → change e = e) : changeFirst id change l = l := by
  induction l with
  | nil => rfl
  | cons e l ih =>
    rw [changeFirst]
    by_cases hid : e.id = id
    · rw [if_pos hid, h e (by simp [hid])]
    · rw [if_neg hid, ih fun x hx => h x (by simp [hid, hx])]

lemma changeFirst_changeFirst {change' : Entity → Entity} (hchange : ∀ e, (change e).id = e.id)
    (l : List Entity) : changeFirst id change' (changeFirst id change l) =
      changeFirst id (fun e => change' (change e)) l := by
  induction l with
  | nil => rfl
  | cons e l ih =>
    by_cases hid : e.id = id
    · simp [changeFirst, hid, hchange]
    · simp [changeFirst, hid, ih]

lemma find?_changeFirst (hchange : ∀ e, (change e).id = e.id) (l : List Entity) :
    (changeFirst id change l).find? (·.id == id) = (l.find? (·.id == id)).map change := by
  induction l with
  | nil => rfl
  | cons e l ih =>
    by_cases hid : e.id = id
    · simp [changeFirst, hid, hchange]
    · simp [changeFirst, hid, ih]

lemma find?_changeFirst_of_ne {other : String} (hchange : ∀ e, (change e).id = e.id)
    (hne : other ≠ id) (l : List Entity) :
    (changeFirst id change l).find? (·.id == other) = l.find? (·.id == other) := by
  induction l with
  | nil => rfl
  | cons e l ih =>
    by_cases hid : e.id = id
    · simp [changeFirst, hid, hchange, hne.symm]
    · simp [changeFirst, hid, List.find?_cons, ih]

/-- The own entities of a model come before those of its includes. -/
lemma entity?_eq (m : Model) (id : String) :
    m.entity? id =
      (m.ownEntity? id).or ((m.includes.flatMap tree).findSome? (·.ownEntity? id)) := by
  unfold entity? ownEntity?
  rw [tree_eq, List.findSome?_cons]
  cases m.entities.find? (·.id == id) <;> rfl

section Changed

variable (hchange : ∀ e, (change e).id = e.id)

include hchange

lemma ownEntity?_changeEntity :
    (m.changeEntity id change).ownEntity? id = (m.ownEntity? id).map change :=
  find?_changeFirst hchange m.entities

/-- For all other identifiers the same is found as before. -/
lemma entity?_changeEntity_of_ne {other : String} (hne : other ≠ id) :
    (m.changeEntity id change).entity? other = m.entity? other := by
  have hown : (m.changeEntity id change).ownEntity? other = m.ownEntity? other :=
    find?_changeFirst_of_ne hchange hne m.entities
  rw [entity?_eq, entity?_eq m, hown]
  rfl

end Changed

/-- A change to an entity is undone by one that gives back what the entity was. -/
lemma changeEntity_undo {undo : Entity → Entity} (hown : m.ownEntity? id = some e)
    (hchange : ∀ e, (change e).id = e.id) (hundo : undo (change e) = e) :
    (m.changeEntity id change).changeEntity id undo = m := by
  have hentities : changeFirst id undo (changeFirst id change m.entities) = m.entities := by
    rw [changeFirst_changeFirst hchange]
    refine changeFirst_eq_self fun x hx => ?_
    cases hown.symm.trans hx
    exact hundo
  unfold changeEntity
  dsimp only
  rw [hentities]
  cases m
  rfl

end Model

namespace Edit

variable {α β : Type} {P : Model → Prop} {m m' : Model} {err : ModelError}

/-- The model as a change leaves it, also when it fails. -/
def after (edit : Edit α) (m : Model) : Model :=
  match edit.run m with
  | .ok _ m' => m'
  | .error _ m' => m'

/-- A change keeps a property of models, whether it succeeds or fails. -/
def Keeps (P : Model → Prop) (edit : Edit α) : Prop := ∀ m, P m → P (edit.after m)

section Runs

variable {a : α} {b : β} {mid : Model} {edit : Edit α} {f : α → Edit β}

lemma run_bind (edit : Edit α) (f : α → Edit β) (m : Model) :
    (edit >>= f).run m = match edit.run m with
      | .ok a m' => (f a).run m'
      | .error err m' => .error err m' := by
  unfold EStateM.run
  change EStateM.bind edit f m = _
  unfold EStateM.bind
  cases edit m <;> rfl

lemma after_bind (edit : Edit α) (f : α → Edit β) (m : Model) :
    (edit >>= f).after m = match edit.run m with
      | .ok a m' => (f a).after m'
      | .error _ m' => m' := by
  unfold after
  rw [run_bind]
  cases edit.run m <;> rfl

lemma run_bind_eq_ok_iff : (edit >>= f).run m = .ok b m' ↔
    ∃ a after, edit.run m = .ok a after ∧ (f a).run after = .ok b m' := by
  rw [run_bind]
  cases edit.run m with
  | ok a after => exact ⟨fun h => ⟨a, after, rfl, h⟩, fun ⟨_, _, h, hf⟩ => by cases h; exact hf⟩
  | error err after => exact ⟨fun h => (nomatch h), fun ⟨_, _, h, _⟩ => (nomatch h)⟩

lemma run_bind_eq_ok (h : (edit >>= f).run m = .ok b m') :
    ∃ a after, edit.run m = .ok a after ∧ (f a).run after = .ok b m' :=
  run_bind_eq_ok_iff.mp h

lemma result_eq_ok_iff {edit : Edit Unit} : edit.result m = .ok m' ↔ edit.run m = .ok () m' := by
  unfold result
  cases edit.run m with
  | ok a after => exact ⟨fun h => by cases h; rfl, fun h => by cases h; rfl⟩
  | error err after => exact ⟨fun h => (nomatch h), fun h => (nomatch h)⟩

lemma run_ownEntity (id : String) (m : Model) : (ownEntity id).run m =
    match m.ownEntity? id with
    | some e => .ok e m
    | none => .error (.unknownEntity id .mutation) m := by
  change (match m.ownEntity? id with
    | some e => pure e
    | none => throw (.unknownEntity id .mutation) : Edit Entity).run m = _
  cases m.ownEntity? id <;> rfl

lemma run_ownEntity_bind_eq_ok {id : String} {f : Entity → Edit β}
    (h : (ownEntity id >>= f).run m = .ok b m') :
    ∃ e, m.ownEntity? id = some e ∧ (f e).run m = .ok b m' := by
  rw [run_bind, run_ownEntity] at h
  cases hown : m.ownEntity? id with
  | none =>
    rw [hown] at h
    cases h
  | some e =>
    rw [hown] at h
    exact ⟨e, rfl, h⟩

lemma run_check_bind_eq_ok_iff {result : Except ModelError α} :
    (check result >>= f).run m = .ok b m' ↔ ∃ a, result = .ok a ∧ (f a).run m = .ok b m' := by
  cases result with
  | ok a => exact ⟨fun h => ⟨a, rfl, h⟩, fun ⟨_, h, hf⟩ => by cases h; exact hf⟩
  | error err => exact ⟨fun h => (nomatch h), fun ⟨_, h, _⟩ => (nomatch h)⟩

lemma run_check_bind_eq_ok {result : Except ModelError α}
    (h : (check result >>= f).run m = .ok b m') :
    ∃ a, result = .ok a ∧ (f a).run m = .ok b m' :=
  run_check_bind_eq_ok_iff.mp h

lemma run_get_bind_eq_ok {f : Model → Edit β} (h : (get >>= f).run m = .ok b m') :
    (f m).run m = .ok b m' := h

lemma run_changeEntity (id : String) (change : Entity → Entity) (m : Model) :
    (changeEntity id change).run m = match m.ownEntity? id with
      | some _ => .ok () (m.changeEntity id change)
      | none => .error (.unknownEntity id .mutation) m := by
  unfold changeEntity
  rw [run_bind, run_ownEntity]
  cases m.ownEntity? id <;> rfl

lemma run_changeEntity_eq_ok {id : String} {change : Entity → Entity} {u : Unit}
    (h : (changeEntity id change).run m = .ok u m') :
    (∃ e, m.ownEntity? id = some e) ∧ m' = m.changeEntity id change := by
  rw [run_changeEntity] at h
  split at h
  · next e hown =>
    cases h
    exact ⟨⟨e, hown⟩, rfl⟩
  · cases h

/-- How setting a base goes: the chain is followed in the model as it would be, and when it does not
end the model stays as it is. -/
lemma run_setBase (entity : String) (base : Option String) (m : Model) :
    (setBase entity base).run m = match m.ownEntity? entity with
      | none => .error (.unknownEntity entity .mutation) m
      | some e =>
        match (m.changeEntity entity fun e => { e with base := base }).registry.lineage
            { e with base := base } with
        | .ok _ => .ok () (m.changeEntity entity fun e => { e with base := base })
        | .error err => .error err m := by
  have hid (e : Entity) : ({ e with base := base } : Entity).id = e.id := rfl
  unfold setBase
  rw [run_bind, run_ownEntity]
  cases hown : m.ownEntity? entity with
  | none => rfl
  | some e =>
    have hchanged : (m.changeEntity entity fun e => { e with base := base }).ownEntity? entity =
        some { e with base := base } := by
      rw [Model.ownEntity?_changeEntity hid, hown, Option.map_some]
    dsimp only
    rw [run_bind, run_changeEntity, hown]
    dsimp only
    rw [run_bind, run_ownEntity, hchanged]
    dsimp only
    rw [run_bind]
    change EStateM.run (match Registry.lineage _ _ with
      | .ok _ => (pure () : Edit Unit)
      | .error err => changeEntity entity _ >>= fun _ => throw err) _ = _
    cases (m.changeEntity entity fun e => { e with base := base }).registry.lineage
        { e with base := base } with
    | ok chain => rfl
    | error err =>
      dsimp only
      rw [run_bind, run_changeEntity, hchanged]
      dsimp only
      rw [Model.changeEntity_undo hown hid rfl]
      rfl

/-- How adding an entity goes: it is refused, or added bare, and taken off again when what it
declares cannot be attached. -/
lemma run_addEntity (e : Entity) (m : Model) : (addEntity e).run m =
    if (m.entity? e.id).isSome then .error (.duplicateIdentifier .entity e.id) m
    else match (attachDeclared e.id e.fragments e.properties).run (m.withBare e) with
      | .ok _ after => .ok () after
      | .error err after => .error err { after with entities := after.entities.dropLast } := by
  change (if (m.entity? e.id).isSome then
    (throw (.duplicateIdentifier .entity e.id) : Edit Unit) >>= _ else _ : Edit Unit).run m = _
  by_cases hknown : (m.entity? e.id).isSome
  · rw [if_pos hknown, if_pos hknown]
    rfl
  · rw [if_neg hknown, if_neg hknown]
    change EStateM.tryCatch (attachDeclared e.id e.fragments e.properties) _ (m.withBare e) = _
    unfold EStateM.tryCatch EStateM.run
    dsimp only
    cases attachDeclared e.id e.fragments e.properties (m.withBare e) <;> rfl

/-- A loop over changes fails where the first of them does. -/
lemma run_forM_of_error {edit : α → Edit Unit} {before rest : List α} {a : α} {mid : Model}
    {err : ModelError} (hbefore : (before.forM edit).run m = .ok () mid)
    (hfails : (edit a).run mid = .error err m') :
    ((before ++ a :: rest).forM edit).run m = .error err m' := by
  induction before generalizing m with
  | nil =>
    cases hbefore
    change (edit a >>= fun _ => rest.forM edit).run mid = _
    rw [run_bind, hfails]
  | cons b before ih =>
    obtain ⟨_, next, hb, hrest⟩ := run_bind_eq_ok hbefore
    change (edit b >>= fun _ => (before ++ a :: rest).forM edit).run m = _
    rw [run_bind, hb]
    exact ih hrest

end Runs

section Keeps

lemma keeps_pure (a : α) : Keeps P (pure a) := fun _ h => h

lemma keeps_throw (err : ModelError) : Keeps P (throw err : Edit α) := fun _ h => h

lemma keeps_modify {f : Model → Model} (hf : ∀ m, P m → P (f m)) : Keeps P (modify f) := hf

lemma keeps_get : Keeps P (get : Edit Model) := fun _ h => h

lemma keeps_bind {edit : Edit α} {f : α → Edit β} (hedit : Keeps P edit)
    (hf : ∀ a, Keeps P (f a)) : Keeps P (edit >>= f) := by
  intro m hm
  have hafter := hedit m hm
  rw [after_bind]
  unfold after at hafter
  cases hrun : edit.run m with
  | ok a m' =>
    rw [hrun] at hafter
    exact hf a m' hafter
  | error err m' =>
    rw [hrun] at hafter
    exact hafter

/-- A change that is refused under a condition. -/
lemma keeps_unless {refused : Model → Bool} {err : ModelError} {change : Model → Model}
    (h : ∀ m, refused m = false → P m → P (change m)) :
    Keeps P (do
      if refused (← get) then throw err
      modify change) := by
  intro m hm
  change P (Edit.after (if refused m then
    (throw err : Edit Unit) >>= fun _ => modify change else modify change) m)
  split
  · exact hm
  · next haccepted => exact h m (Bool.eq_false_iff.mpr haccepted) hm

lemma check_ok (a : α) : check (.ok a) = pure a := rfl

lemma keeps_ownEntity (id : String) : Keeps P (ownEntity id) := by
  refine keeps_bind keeps_get fun m => ?_
  cases m.ownEntity? id with
  | none => exact keeps_throw _
  | some e => exact keeps_pure e

lemma keeps_forM {edit : α → Edit Unit} (h : ∀ a, Keeps P (edit a)) (l : List α) :
    Keeps P (l.forM edit) := by
  induction l with
  | nil => exact keeps_pure ()
  | cons a l ih => exact keeps_bind (h a) fun _ => ih

lemma Keeps.run_ok {edit : Edit α} {a : α} (h : Keeps P edit) (hm : P m)
    (hrun : edit.run m = .ok a m') : P m' := by
  have hafter := h m hm
  unfold after at hafter
  rwa [hrun] at hafter

lemma Keeps.run_error {edit : Edit α} (h : Keeps P edit) (hm : P m)
    (hrun : edit.run m = .error err m') : P m' := by
  have hafter := h m hm
  unfold after at hafter
  rwa [hrun] at hafter

end Keeps

section Successes

variable {entity aliasName : String} {position : Nat} {p : Property} {ref : FragmentRef}

lemma insertProperty_eq_ok {u : Unit} (h : (insertProperty entity position p).run m = .ok u m') :
    ∃ e attached, m.ownEntity? entity = some e ∧ m.registry.effectiveFragments e = .ok attached ∧
      m.registry.checkProperty e.id e.properties attached p = .ok () ∧
      m' = m.changeEntity entity fun e =>
        { e with properties := insertWithin e.properties position (p.ownedBy e.id) } := by
  obtain ⟨e, hown, h⟩ := run_ownEntity_bind_eq_ok h
  obtain ⟨attached, hattached, h⟩ := run_check_bind_eq_ok (run_get_bind_eq_ok h)
  obtain ⟨_, hcheck, h⟩ := run_check_bind_eq_ok h
  exact ⟨e, attached, hown, hattached, hcheck, (run_changeEntity_eq_ok h).2⟩

lemma addProperty_eq_ok {u : Unit} (h : (addProperty entity p).run m = .ok u m') :
    ∃ position, (insertProperty entity position p).run m = .ok u m' := by
  obtain ⟨e, -, h⟩ := run_ownEntity_bind_eq_ok h
  exact ⟨_, h⟩

lemma removeProperty_eq_ok {removed : Property}
    (h : (removeProperty entity aliasName).run m = .ok removed m') :
    (∃ e, m.ownEntity? entity = some e) ∧ m' = m.changeEntity entity fun e =>
      { e with properties := e.properties.eraseP (·.aliasName == aliasName) } := by
  obtain ⟨e, -, h⟩ := run_ownEntity_bind_eq_ok h
  split at h
  · cases h
  · obtain ⟨_, _, hchange, h⟩ := run_bind_eq_ok h
    cases h
    exact run_changeEntity_eq_ok hchange

lemma insertFragment_eq_ok {u : Unit} (h : (insertFragment entity position ref).run m = .ok u m') :
    ∃ e attached, m.ownEntity? entity = some e ∧ m.registry.effectiveFragments e = .ok attached ∧
      m.registry.checkFragment e.id attached ref = .ok () ∧ checkAnchor e.id attached ref = .ok () ∧
      m' = m.changeEntity entity fun e =>
        { e with fragments := insertWithin e.fragments position ref } := by
  obtain ⟨e, hown, h⟩ := run_ownEntity_bind_eq_ok h
  obtain ⟨attached, hattached, h⟩ := run_check_bind_eq_ok (run_get_bind_eq_ok h)
  obtain ⟨_, hcheck, h⟩ := run_check_bind_eq_ok h
  obtain ⟨_, hanchor, h⟩ := run_check_bind_eq_ok h
  exact ⟨e, attached, hown, hattached, hcheck, hanchor, (run_changeEntity_eq_ok h).2⟩

lemma attachFragment_eq_ok {u : Unit} (h : (attachFragment entity ref).run m = .ok u m') :
    ∃ position, (insertFragment entity position ref).run m = .ok u m' := by
  obtain ⟨e, -, h⟩ := run_ownEntity_bind_eq_ok h
  exact ⟨_, h⟩

lemma setBase_eq_ok {base : Option String} {u : Unit}
    (h : (setBase entity base).run m = .ok u m') :
    (∃ e, m.ownEntity? entity = some e) ∧
      m' = m.changeEntity entity fun e => { e with base := base } := by
  rw [run_setBase] at h
  split at h
  · cases h
  · next e hown =>
    split at h
    · cases h
      exact ⟨⟨e, hown⟩, rfl⟩
    · cases h

lemma run_addEntity_eq_ok_iff {e : Entity} {u : Unit} : (addEntity e).run m = .ok u m' ↔
    m.entity? e.id = none ∧
      (attachDeclared e.id e.fragments e.properties).run (m.withBare e) = .ok () m' := by
  rw [run_addEntity]
  by_cases hknown : (m.entity? e.id).isSome
  · rw [if_pos hknown]
    exact ⟨nofun, fun ⟨hunknown, _⟩ => by simp [hunknown] at hknown⟩
  · rw [if_neg hknown]
    have hunknown : m.entity? e.id = none := by simpa using hknown
    cases (attachDeclared e.id e.fragments e.properties).run (m.withBare e) with
    | ok _ after => exact ⟨fun h => ⟨hunknown, by cases h; rfl⟩, fun ⟨_, h⟩ => by cases h; rfl⟩
    | error err after => exact ⟨nofun, fun ⟨_, h⟩ => (nomatch h)⟩

end Successes

end Edit

end EntityModel
