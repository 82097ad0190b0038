import EntityModel.Proofs.Edits

/-!
# Changes that fail

A change that fails leaves the model as it was. Most ask before they write, and nothing is left to
take back; what adding an entity or setting a base has written by then is taken back exactly.
-/

namespace EntityModel

namespace Edit

variable {α β : Type} {P : Model → Prop} {m m' : Model}

/-- A change that fails leaves the model as it was. -/
def IsAtomic (edit : Edit α) : Prop := ∀ m err m', edit.run m = .error err m' → m' = m

/-- A question to the model: it stays as it is. -/
def Reads (edit : Edit α) : Prop := ∀ m, edit.after m = m

/-- Of a change that leaves no trace when it fails only the success has to be looked at. -/
lemma IsAtomic.keeps {edit : Edit α} (h : IsAtomic edit)
    (hok : ∀ m a m', P m → edit.run m = .ok a m' → P m') : Keeps P edit := by
  intro m hm
  unfold after
  cases hrun : edit.run m with
  | ok a m' => exact hok m a m' hm hrun
  | error err m' => exact (h m err m' hrun).symm ▸ hm

section Atomic

variable {edit : Edit α} {f : α → Edit β}

lemma reads_get : Reads (get : Edit Model) := fun _ => rfl

lemma reads_check (result : Except ModelError α) : Reads (check result) := by
  cases result <;> exact fun _ => rfl

lemma reads_ownEntity (id : String) : Reads (ownEntity id) := by
  intro m
  unfold after
  rw [run_ownEntity]
  cases m.ownEntity? id <;> rfl

lemma isAtomic_throw (err : ModelError) : IsAtomic (throw err : Edit α) := by
  intro m err' m' h
  cases h
  rfl

lemma isAtomic_modify (change : Model → Model) : IsAtomic (modify change : Edit Unit) :=
  fun _ _ _ h => (nomatch h)

/-- A change that asks first is atomic when what it does after each answer is. -/
lemma Reads.bind (hedit : Reads edit) (hf : ∀ a, IsAtomic (f a)) : IsAtomic (edit >>= f) := by
  intro m err m' h
  have hafter := hedit m
  unfold after at hafter
  rw [run_bind] at h
  cases hrun : edit.run m with
  | ok a next =>
    rw [hrun] at h hafter
    cases hafter
    exact hf a _ err m' h
  | error err next =>
    rw [hrun] at h hafter
    cases h
    exact hafter

lemma IsAtomic.map (hedit : IsAtomic edit) (g : α → β) :
    IsAtomic (edit >>= fun a => pure (g a)) := by
  intro m err m' h
  rw [run_bind] at h
  cases hrun : edit.run m with
  | ok a next =>
    rw [hrun] at h
    cases h
  | error err next =>
    rw [hrun] at h
    cases h
    exact hedit m err _ hrun

lemma isAtomic_guard {c : Prop} [Decidable c] {err : ModelError} {edit : PUnit → Edit α}
    (h : IsAtomic (edit ⟨⟩)) : IsAtomic (if c then throw err >>= edit else edit ⟨⟩) := by
  split
  · intro m err' m' hrun
    cases hrun
    rfl
  · exact h

lemma isAtomic_changeEntity (id : String) (change : Entity → Entity) :
    IsAtomic (changeEntity id change) :=
  (reads_ownEntity id).bind fun _ => isAtomic_modify _

lemma isAtomic_addType (t : TypeReference) : IsAtomic (addType t) :=
  reads_get.bind fun _ => isAtomic_guard (isAtomic_modify _)

lemma isAtomic_addFragment (f : SourceFragment) : IsAtomic (addFragment f) :=
  reads_get.bind fun _ => isAtomic_guard (isAtomic_modify _)

lemma isAtomic_addRelation (relation : Relation) : IsAtomic (addRelation relation) :=
  reads_get.bind fun _ => isAtomic_guard (isAtomic_modify _)

lemma isAtomic_addInclude (other : Model) : IsAtomic (addInclude other) := by
  refine reads_get.bind fun m => ?_
  split
  · exact isAtomic_throw _
  · exact isAtomic_modify _

lemma isAtomic_insertProperty (entity : String) (position : Nat) (p : Property) :
    IsAtomic (insertProperty entity position p) :=
  (reads_ownEntity entity).bind fun _ => reads_get.bind fun _ => (reads_check _).bind fun _ =>
    (reads_check _).bind fun _ => isAtomic_changeEntity entity _

lemma isAtomic_addProperty (entity : String) (p : Property) : IsAtomic (addProperty entity p) :=
  (reads_ownEntity entity).bind fun _ => isAtomic_insertProperty entity _ p

lemma isAtomic_removeProperty (entity aliasName : String) :
    IsAtomic (removeProperty entity aliasName) := by
  refine (reads_ownEntity entity).bind fun e => ?_
  split
  · exact isAtomic_throw _
  · exact (isAtomic_changeEntity entity _).map _

lemma isAtomic_insertFragment (entity : String) (position : Nat) (ref : FragmentRef) :
    IsAtomic (insertFragment entity position ref) :=
  (reads_ownEntity entity).bind fun _ => reads_get.bind fun _ => (reads_check _).bind fun _ =>
    (reads_check _).bind fun _ => (reads_check _).bind fun _ => isAtomic_changeEntity entity _

lemma isAtomic_attachFragment (entity : String) (ref : FragmentRef) :
    IsAtomic (attachFragment entity ref) :=
  (reads_ownEntity entity).bind fun _ => isAtomic_insertFragment entity _ ref

lemma isAtomic_setBase (entity : String) (base : Option String) : IsAtomic (setBase entity base) := by
  intro m err m' h
  rw [run_setBase] at h
  split at h
  · cases h
    rfl
  · split at h
    · cases h
    · cases h
      rfl

end Atomic

lemma run_of_isOk {edit : Edit Unit} (h : (edit.result m).isOk = true) :
    edit.run m = .ok () (edit.after m) := by
  unfold result at h
  unfold after
  cases hrun : edit.run m with
  | ok _ m' => rfl
  | error err m' =>
    rw [hrun] at h
    cases h

lemma IsAtomic.run_of_refused {edit : Edit Unit} {err : ModelError} (hatomic : IsAtomic edit)
    (h : (edit.result m).map (fun _ => ()) = .error err) : edit.run m = .error err m := by
  unfold result at h
  cases hrun : edit.run m with
  | ok _ m' =>
    rw [hrun] at h
    cases h
  | error err' m' =>
    rw [hrun] at h
    cases h
    rw [hatomic m err m' hrun]

section AddEntity

variable {m₀ : Model} {id : String}

lemma keeps_extendedBy_attachFragment (hnew : ∀ x ∈ m₀.entities, x.id ≠ id) (ref : FragmentRef) :
    Keeps (m₀.ExtendedBy id) (attachFragment id ref) := by
  refine (isAtomic_attachFragment id ref).keeps fun m _ m' hm h => ?_
  obtain ⟨position, h⟩ := attachFragment_eq_ok h
  obtain ⟨e, attached, -, -, -, -, rfl⟩ := insertFragment_eq_ok h
  exact hm.changeEntity hnew fun _ => rfl

lemma keeps_extendedBy_addProperty (hnew : ∀ x ∈ m₀.entities, x.id ≠ id) (p : Property) :
    Keeps (m₀.ExtendedBy id) (addProperty id p) := by
  refine (isAtomic_addProperty id p).keeps fun m _ m' hm h => ?_
  obtain ⟨position, h⟩ := addProperty_eq_ok h
  obtain ⟨e, attached, -, -, -, rfl⟩ := insertProperty_eq_ok h
  exact hm.changeEntity hnew fun _ => rfl

/-- While an entity is given what it declares, it stands behind the others, which stay as they are. -/
lemma keeps_extendedBy_attachDeclared (hnew : ∀ x ∈ m₀.entities, x.id ≠ id)
    (fragments : List FragmentRef) (properties : List Property) :
    Keeps (m₀.ExtendedBy id) (attachDeclared id fragments properties) :=
  keeps_bind (keeps_forM (keeps_extendedBy_attachFragment hnew) fragments) fun _ =>
    keeps_forM (keeps_extendedBy_addProperty hnew) properties

/-- When a declaration of an entity cannot be attached, taking the entity off again gives back the
model to which it has been added. -/
lemma run_addEntity_of_error {e : Entity} {err : ModelError} {failed : Model}
    (hnew : m.entity? e.id = none)
    (hrun : (attachDeclared e.id e.fragments e.properties).run (m.withBare e) = .error err failed) :
    (addEntity e).run m = .error err m := by
  obtain ⟨last, -, rfl⟩ := (keeps_extendedBy_attachDeclared (Model.ne_of_entity?_eq_none hnew)
    e.fragments e.properties).run_error (.withBare m e) hrun
  have hunknown : ¬ (m.entity? e.id).isSome = true := by simp [hnew]
  rw [run_addEntity, if_neg hunknown, hrun]
  dsimp only
  rw [List.dropLast_concat]
  cases m
  rfl

lemma isAtomic_addEntity (e : Entity) : IsAtomic (addEntity e) := by
  intro m err m' h
  cases hnew : m.entity? e.id with
  | some other =>
    rw [run_addEntity, if_pos (by simp [hnew])] at h
    cases h
    rfl
  | none =>
    cases hrun : (attachDeclared e.id e.fragments e.properties).run (m.withBare e) with
    | ok _ after =>
      rw [run_addEntity, if_neg (by simp [hnew]), hrun] at h
      cases h
    | error err' failed =>
      rw [run_addEntity_of_error hnew hrun] at h
      cases h
      rfl

/-- No change that fails leaves a trace in the model: it is the one to which the change has been
made. In particular an entity is not there when any of its fragments or properties, with all before it
attached, has been refused. -/
theorem failed_changes_leave_no_trace :
    ((∀ t, IsAtomic (addType t)) ∧ (∀ f, IsAtomic (addFragment f)) ∧
      (∀ e, IsAtomic (addEntity e)) ∧ (∀ relation, IsAtomic (addRelation relation)) ∧
      (∀ other, IsAtomic (addInclude other)) ∧
      (∀ entity position p, IsAtomic (insertProperty entity position p)) ∧
      (∀ entity p, IsAtomic (addProperty entity p)) ∧
      (∀ entity aliasName, IsAtomic (removeProperty entity aliasName)) ∧
      (∀ entity position ref, IsAtomic (insertFragment entity position ref)) ∧
      (∀ entity ref, IsAtomic (attachFragment entity ref)) ∧
      ∀ entity base, IsAtomic (setBase entity base)) ∧
    ∀ (m : Model) (e : Entity), m.entity? e.id = none →
      (∀ before ref rest partly err failed, e.fragments = before ++ ref :: rest →
        (attachDeclared e.id before []).run (m.withBare e) = .ok () partly →
        (attachFragment e.id ref).run partly = .error err failed →
        (addEntity e).run m = .error err m) ∧
      ∀ before p rest partly err failed, e.properties = before ++ p :: rest →
        (attachDeclared e.id e.fragments before).run (m.withBare e) = .ok () partly →
        (addProperty e.id p).run partly = .error err failed →
        (addEntity e).run m = .error err m := by
  refine ⟨⟨isAtomic_addType, isAtomic_addFragment, isAtomic_addEntity, isAtomic_addRelation,
    isAtomic_addInclude, isAtomic_insertProperty, isAtomic_addProperty, isAtomic_removeProperty,
    isAtomic_insertFragment, isAtomic_attachFragment, isAtomic_setBase⟩, fun m e hnew => ⟨?_, ?_⟩⟩
  · intro before ref rest partly err failed hsplit hbefore hfails
    obtain ⟨_, _, hbefore, hnone⟩ := run_bind_eq_ok hbefore
    cases hnone
    have hrun : (attachDeclared e.id e.fragments e.properties).run (m.withBare e) =
        .error err failed := by
      unfold attachDeclared
      rw [hsplit, run_bind, run_forM_of_error hbefore hfails]
    exact run_addEntity_of_error hnew hrun
  · intro before p rest partly err failed hsplit hbefore hfails
    obtain ⟨_, attached, hfragments, hbefore⟩ := run_bind_eq_ok hbefore
    have hrun : (attachDeclared e.id e.fragments e.properties).run (m.withBare e) =
        .error err failed := by
      unfold attachDeclared
      rw [hsplit, run_bind, hfragments]
      exact run_forM_of_error hbefore hfails
    exact run_addEntity_of_error hnew hrun

end AddEntity

namespace SecondTitle

def text : TypeReference := ⟨"text", .native ⟨"String", .reference⟩⟩

def title : Property := .ofType "title" text

def subtitle : Property := { title with name := "subtitle" }

/-- An entity whose second property is refused for its alias. -/
def book : Entity :=
  { Entity.ofName "Book" "Book" with
    properties := [title, subtitle, .ofType "author" text] }

def model : Model := { Model.ofNameSpace none with types := [text] }

/-- The model when the first property of the entity has been attached. -/
def partly : Model := (attachDeclared "Book" [] [title]).after (model.withBare book)

theorem failed_changes_leave_no_trace_secondTitle :
    model.entity? book.id = none ∧
      (attachDeclared book.id book.fragments [title]).run (model.withBare book) = .ok () partly ∧
      (addProperty book.id subtitle).run partly =
        .error (.duplicateAlias "Book" "title") partly ∧
      (addEntity book).run model = .error (.duplicateAlias "Book" "title") model := by
  have hnew : model.entity? book.id = none := by decide +kernel
  have hfirst : (attachDeclared book.id book.fragments [title]).run (model.withBare book) =
      .ok () partly :=
    run_of_isOk (by decide +kernel)
  have hsecond : (addProperty book.id subtitle).run partly =
      .error (.duplicateAlias "Book" "title") partly :=
    (isAtomic_addProperty _ _).run_of_refused (by decide +kernel)
  exact ⟨hnew, hfirst, hsecond, (failed_changes_leave_no_trace.2 model book hnew).2 [title] _ _ _ _ _
    rfl hfirst hsecond⟩

end SecondTitle

end Edit

end EntityModel
