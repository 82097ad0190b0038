import EntityModel.Proofs.Adding
import EntityModel.Proofs.Representation

/-!
# Properties that are put in and taken out

An alias is free when a property is inserted, so that the removal by this alias takes out the same one.
Conversely a model that validates stays as good as it was for a property that is taken out: what the
property is checked against does not depend on the properties of its entity.
-/

namespace EntityModel

section Places

variable {α : Type} {l : List α} {a : α} {place : Nat}

/-- Where something is inserted the list is split. -/
lemma exists_split_insertWithin (l : List α) (position : Nat) (a : α) :
    ∃ before after, l = before ++ after ∧ insertWithin l position a = before ++ a :: after := by
  have hlength : (l.take (min position l.length)).length = min position l.length := by simp
  refine ⟨l.take (min position l.length), l.drop (min position l.length),
    (List.take_append_drop _ _).symm, ?_⟩
  rw [← insertWithin_append, List.take_append_drop, hlength]
  unfold insertWithin
  rw [Nat.min_assoc, Nat.min_self]

lemma exists_split_of_getElem? (h : l[place]? = some a) :
    ∃ before after, l = before ++ a :: after ∧ before.length = place := by
  obtain ⟨hplace, rfl⟩ := List.getElem?_eq_some_iff.mp h
  refine ⟨l.take place, l.drop (place + 1), ?_, by simp; omega⟩
  rw [List.getElem_cons_drop, List.take_append_drop]

end Places

namespace Entity

/-- The entity with one more property. -/
def inserted (e : Entity) (position : Nat) (p : Property) : Entity :=
  { e with properties := insertWithin e.properties position (p.ownedBy e.id) }

/-- The entity without the first property of an alias. -/
def without (e : Entity) (aliasName : String) : Entity :=
  { e with properties := e.properties.eraseP (·.aliasName == aliasName) }

variable {e : Entity} {p : Property} {position place : Nat} {before after : List Property}

section Split

variable (hbefore : ∀ q ∈ before, q.aliasName ≠ p.aliasName)

include hbefore

lemma find?_aliasName :
    (before ++ p :: after).find? (·.aliasName == p.aliasName) = some p := by
  have hnone : before.find? (·.aliasName == p.aliasName) = none := by simpa using hbefore
  rw [List.find?_append, hnone, Option.none_or, List.find?_cons, beq_self_eq_true]

lemma eraseP_aliasName :
    (before ++ p :: after).eraseP (·.aliasName == p.aliasName) = before ++ after := by
  rw [List.eraseP_append_right _ (by simpa using hbefore), List.eraseP_cons, beq_self_eq_true]
  rfl

end Split

section Fresh

variable (hfresh : ∀ q ∈ e.properties, q.aliasName ≠ p.aliasName)

include hfresh

lemma split_inserted (position : Nat) : ∃ before after, e.properties = before ++ after ∧
    insertWithin e.properties position (p.ownedBy e.id) = before ++ p.ownedBy e.id :: after ∧
    ∀ q ∈ before, q.aliasName ≠ (p.ownedBy e.id).aliasName := by
  obtain ⟨before, after, he, hinserted⟩ :=
    exists_split_insertWithin e.properties position (p.ownedBy e.id)
  exact ⟨before, after, he, hinserted, fun q hq => hfresh q (he ▸ List.mem_append_left _ hq)⟩

lemma propertyByAlias?_inserted :
    (e.inserted position p).propertyByAlias? p.aliasName = some (p.ownedBy e.id) := by
  obtain ⟨before, after, -, hinserted, hbefore⟩ := split_inserted hfresh position
  unfold propertyByAlias? inserted
  rw [hinserted]
  exact find?_aliasName hbefore

lemma without_inserted : (e.inserted position p).without p.aliasName = e := by
  obtain ⟨before, after, he, hinserted, hbefore⟩ := split_inserted hfresh position
  have herased : (insertWithin e.properties position (p.ownedBy e.id)).eraseP
      (·.aliasName == p.aliasName) = e.properties := by
    rw [hinserted, he]
    exact eraseP_aliasName hbefore
  unfold without inserted
  dsimp only
  rw [herased]

end Fresh

section Placed

variable (hdistinct : (e.properties.map (·.aliasName)).Nodup) (hp : e.properties[place]? = some p)

include hdistinct hp

/-- With distinct aliases a property is the first one of its alias, and the only one. -/
lemma split_placed : ∃ before after, e.properties = before ++ p :: after ∧ before.length = place ∧
    (∀ q ∈ before, q.aliasName ≠ p.aliasName) ∧ ∀ q ∈ after, q.aliasName ≠ p.aliasName := by
  obtain ⟨before, after, he, hplace⟩ := exists_split_of_getElem? hp
  rw [he, List.map_append, List.map_cons, List.nodup_middle, List.nodup_cons] at hdistinct
  have hfresh : ∀ q ∈ before ++ after, q.aliasName ≠ p.aliasName := by
    intro q hq hsame
    refine hdistinct.1 ?_
    rw [← List.map_append, ← hsame]
    exact List.mem_map_of_mem hq
  exact ⟨before, after, he, hplace, fun q hq => hfresh q (List.mem_append_left _ hq),
    fun q hq => hfresh q (List.mem_append_right _ hq)⟩

lemma without_fresh : ∀ q ∈ (e.without p.aliasName).properties, q.aliasName ≠ p.aliasName := by
  obtain ⟨before, after, he, -, hbefore, hafter⟩ := split_placed hdistinct hp
  unfold without
  rw [he, eraseP_aliasName hbefore]
  exact fun q hq => (List.mem_append.mp hq).elim (hbefore q) (hafter q)

lemma inserted_without (howner : p.owner = some e.id) :
    (e.without p.aliasName).inserted place p.detached = e := by
  obtain ⟨before, after, he, rfl, hbefore, -⟩ := split_placed hdistinct hp
  have howned : p.detached.ownedBy e.id = p := by
    unfold Property.ownedBy Property.detached
    rw [← howner]
  have hinserted : insertWithin (e.properties.eraseP (·.aliasName == p.aliasName)) before.length
      (p.detached.ownedBy e.id) = e.properties := by
    rw [howned, he, eraseP_aliasName hbefore, insertWithin_append]
  unfold inserted without
  dsimp only
  rw [hinserted]

end Placed

end Entity

namespace Edit

variable {m m' : Model} {e : Entity} {entity : String} {p : Property}

/-- The first property of an alias is removed, and handed back without an owner. -/
lemma run_removeProperty {aliasName : String} (hown : m.ownEntity? entity = some e)
    (hfound : e.propertyByAlias? aliasName = some p) :
    (removeProperty entity aliasName).run m =
      .ok p.detached (m.changeEntity entity (·.without aliasName)) := by
  unfold removeProperty
  rw [run_ownEntity_bind hown, hfound]
  dsimp only
  rw [run_bind, run_changeEntity, hown]
  rfl

/-- What has been inserted is taken out again by its alias. -/
theorem removeProperty_of_insertProperty {position : Nat}
    (h : (insertProperty entity position p).run m = .ok () m') :
    (removeProperty entity p.aliasName).run m' = .ok p.detached m := by
  have hid (e : Entity) : (e.inserted position p).id = e.id := rfl
  obtain ⟨e, attached, hown, -, hcheck, hm'⟩ := insertProperty_eq_ok h
  have hfresh := (m.registry.checkProperty_eq_ok_iff.mp hcheck).1
  obtain rfl : m' = m.changeEntity entity (·.inserted position p) := hm'
  have hown' : (m.changeEntity entity (·.inserted position p)).ownEntity? entity =
      some (e.inserted position p) := by
    rw [Model.ownEntity?_changeEntity hid, hown, Option.map_some]
  have hback : (m.changeEntity entity (·.inserted position p)).changeEntity entity
      (·.without p.aliasName) = m :=
    Model.changeEntity_undo hown hid (Entity.without_inserted hfresh)
  rw [run_removeProperty hown' (Entity.propertyByAlias?_inserted hfresh), hback]
  rfl

end Edit

namespace Model

variable {m : Model} {e : Entity} {p : Property}

/-- A property is taken off an entity. -/
lemma detailedAt_without (m : Model) (e : Entity) (aliasName : String) :
    m.DetailedAt e.id (m.changeEntity e.id (·.without aliasName)) :=
  ⟨(·.without aliasName), fun _ => rfl, rfl⟩

/-- What a sound model has declared as a property of an entity may join that entity without it. -/
lemma joins_without (hsound : m.registry.Sound) (he : e ∈ m.allEntities) (hp : p ∈ e.properties)
    (aliasName : String) :
    ¬ (m.changeEntity e.id (·.without aliasName)).registry.Revisits (e.without aliasName) ∧
    (m.changeEntity e.id (·.without aliasName)).registry.checkPropertyType e.id p = .ok () ∧
    ∀ fragment ∈ p.sourceFragment,
      (m.changeEntity e.id (·.without aliasName)).registry.Attaches (e.without aliasName)
        fragment := by
  have hdetailed := detailedAt_without m e aliasName
  have hrefers := (Registry.sound_iff_refersSoundly.mp hsound).entities e he
  obtain ⟨chain, hchain⟩ := hsound.chains e he
  have hchecked := hsound.entities e he _ (Registry.effectiveFragments_of_lineage hchain)
  refine ⟨mt hdetailed.revisits_filled_iff.mp hrefers.chain, ?_, fun fragment hfragment => ?_⟩
  · rw [hdetailed.checkPropertyType_eq]
    exact hchecked.types p hp
  · refine (hdetailed.attaches_filled_iff hrefers.chain).mpr ?_
    exact Registry.attaches_iff.mp (hrefers.bindings p hp fragment hfragment)

/-- What has been taken off an intact entity of a sound model may be put back in its place. -/
theorem insertProperty_of_removeProperty {place : Nat} (hsound : m.registry.Sound)
    (hintact : e.IntactIn m) (hown : m.ownEntity? e.id = some e) (hplace : e.properties[place]? = some p) :
    ∃ m', (Edit.removeProperty e.id p.aliasName).run m = .ok p.detached m' ∧
      (Edit.insertProperty e.id place p.detached).run m' = .ok () m := by
  have hid (x : Entity) : (x.without p.aliasName).id = x.id := rfl
  have hp : p ∈ e.properties := List.mem_of_getElem? hplace
  have hfound : e.propertyByAlias? p.aliasName = some p :=
    (find?_key_eq_some_iff hintact.aliases).mpr ⟨hp, rfl⟩
  have hown' : (m.changeEntity e.id (·.without p.aliasName)).ownEntity? e.id =
      some (e.without p.aliasName) := by
    rw [ownEntity?_changeEntity hid, hown, Option.map_some]
  have hback : (m.changeEntity e.id (·.without p.aliasName)).changeEntity e.id
      (·.inserted place p.detached) = m :=
    changeEntity_undo hown hid
      (Entity.inserted_without hintact.aliases hplace (hintact.owners p hp))
  have he : e ∈ m.allEntities := mem_allEntities (List.mem_of_find?_eq_some hown)
  obtain ⟨hends, htype, hbinding⟩ := joins_without hsound he hp p.aliasName
  refine ⟨_, Edit.run_removeProperty hown hfound, ?_⟩
  refine (Edit.insertProperty_eq_ok_iff (e := e.without p.aliasName) hown').mpr ⟨?_, hback.symm⟩
  exact ⟨hends, Entity.without_fresh hintact.aliases hplace, htype, hbinding⟩

/-- Whatever property an insertion lets in, its removal by the alias hands it back without an owner, and
leaves the model as it was. Conversely a property that a model with no problems has taken off one of its
entities may always be put back in its place. -/
theorem Reachable.insertion_and_removal_are_inverse (h : m.Reachable) :
    (∀ entity position p m', (Edit.insertProperty entity position p).run m = .ok () m' →
      (Edit.removeProperty entity p.aliasName).run m' = .ok p.detached m) ∧
    (m.registry.validate = .ok () → ∀ e ∈ m.entities, ∀ place p, e.properties[place]? = some p →
      ∃ m', (Edit.removeProperty e.id p.aliasName).run m = .ok p.detached m' ∧
        (Edit.insertProperty e.id place p.detached).run m' = .ok () m) := by
  refine ⟨fun entity position p m' => Edit.removeProperty_of_insertProperty,
    fun hvalid e he place p hplace => ?_⟩
  have hsound : m.registry.Sound :=
    Registry.problems_eq_nil_iff.mp (Registry.validate_eq_ok_iff.mp hvalid)
  have hself : m ∈ m.tree := by
    rw [tree_eq]
    exact List.mem_cons_self
  have hintact : e.IntactIn m := (h.grown.intact m hself).entities e he
  exact insertProperty_of_removeProperty hsound hintact (ownEntity?_of_mem h.grown.nodup_ids he) hplace

namespace NarrowedFriend

def text : TypeReference := ⟨"text", .native ⟨"String", .reference⟩⟩

def party : TypeReference := ⟨"party", .entity "Party"⟩

/-- A reference to parties, narrowed to persons. -/
def friend : Property := .ofType "friend" (party.retarget "Person")

def title : Property := .ofType "title" text

/-- Persons have a property in a table that they inherit, and refer to themselves. -/
def model : Model :=
  ofChanges [.addType text, .addType party, .addFragment (.ofName "People" "People"),
    .addEntity { Entity.ofName "Party" "Party" with fragments := [.primary "People"] },
    .addEntity
      { Entity.ofName "Person" "Person" with
        base := some "Party"
        properties := [(Property.ofType "name" text).storedIn "People" "name", friend] }]

theorem insertion_and_removal_are_inverse_friend :
    model.Reachable ∧ model.registry.validate = .ok () ∧
      (∃ m', (Edit.insertProperty "Person" 7 title).run model = .ok () m' ∧
        (Edit.removeProperty "Person" "title").run m' = .ok title model) ∧
      ∃ m', (Edit.removeProperty "Person" "friend").run model = .ok friend m' ∧
        (Edit.insertProperty "Person" 1 friend).run m' = .ok () model := by
  have hreachable : model.Reachable := reachable_ofChanges _
  have hvalid : model.registry.validate = .ok () := by decide +kernel
  have hplaced : (model.ownEntity? "Person").bind (·.properties[1]?) =
      some (friend.ownedBy "Person") := by decide +kernel
  obtain ⟨hundone, hput⟩ := hreachable.insertion_and_removal_are_inverse
  obtain ⟨m', hm'⟩ : ∃ m', (Edit.insertProperty "Person" 7 title).result model = .ok m' :=
    exists_eq_ok (by decide +kernel)
  have hinserted := Edit.result_eq_ok_iff.mp hm'
  obtain ⟨e, hown, hfriend⟩ := Option.bind_eq_some_iff.mp hplaced
  have hid : e.id = "Person" := by simpa using List.find?_some hown
  obtain ⟨m'', hremoved, hback⟩ := hput hvalid e (List.mem_of_find?_eq_some hown) 1 _ hfriend
  rw [hid] at hremoved hback
  exact ⟨hreachable, hvalid, ⟨m', hinserted, hundone "Person" 7 title m' hinserted⟩, m'', hremoved,
    hback⟩

end NarrowedFriend

end Model

end EntityModel
