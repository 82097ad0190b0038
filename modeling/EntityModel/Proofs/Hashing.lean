import EntityModel.Proofs.ReadBack
import EntityModel.Proofs.Representation
import EntityModel.Proofs.RoundTrip

/-!
# What a content hash sees

A plain value has a text of its own, and a form from which a value is read is the form of that value
only. So the text of a model tells all that is declared in it and in its includes but for the owners
of properties, and in a model that can be made the owner of a property is the entity that declares it.
-/

namespace EntityModel

/-! ### Bytes -/

/-- The bytes from a position on are put behind those that have been read. -/
lemma toList_loop_eq (bytes : ByteArray) (position : Nat) (read : List UInt8) :
    ByteArray.toList.loop bytes position read =
      read.reverse ++ bytes.data.toList.drop position := by
  fun_induction ByteArray.toList.loop bytes position read with
  | case1 position read hlt ih =>
    have hnext : bytes.data.toList.drop position =
        bytes.get! position :: bytes.data.toList.drop (position + 1) := by
      rw [List.drop_eq_getElem_cons (by simpa using hlt)]
      exact congrArg (· :: _) (getElem!_pos bytes.data position hlt).symm
    rw [ih, hnext, List.reverse_cons, List.append_assoc, List.singleton_append]
  | case2 position read hge =>
    have hlength : bytes.data.toList.length ≤ position := by simpa using hge
    rw [List.drop_of_length_le hlength, List.append_nil]

/-- Texts with the same bytes are the same. -/
lemma toUTF8_toList_inj {s t : String} : s.toUTF8.toList = t.toUTF8.toList ↔ s = t := by
  refine ⟨fun h => ?_, fun h => h ▸ rfl⟩
  unfold ByteArray.toList at h
  rw [toList_loop_eq, toList_loop_eq] at h
  apply String.toByteArray_inj.mp
  apply ByteArray.ext
  apply Array.toList_inj.mp
  simpa using h

lemma digitChar_inj : ∀ i < 16, ∀ j < 16, i.digitChar = j.digitChar → i = j := by decide

/-- Two digits tell a byte. -/
lemma Digest.Sha256.hex_inj {bytes bytes' : List UInt8} : hex bytes = hex bytes' ↔ bytes = bytes' := by
  refine ⟨fun h => ?_, fun h => h ▸ rfl⟩
  have hchars := String.ofList_injective h
  clear h
  induction bytes generalizing bytes' with
  | nil =>
    cases bytes' with
    | nil => rfl
    | cons b' bytes' => simp at hchars
  | cons b bytes ih =>
    cases bytes' with
    | nil => simp at hchars
    | cons b' bytes' =>
      simp only [List.flatMap_cons, List.cons_append, List.nil_append, List.cons.injEq] at hchars
      obtain ⟨hhigh, hlow, hrest⟩ := hchars
      have hb := b.toNat_lt
      have hb' := b'.toNat_lt
      have hhigh' := digitChar_inj _ (by omega) _ (by omega) hhigh
      have hlow' := digitChar_inj _ (by omega) _ (by omega) hlow
      have hsame : b.toNat = b'.toNat := by omega
      rw [UInt8.toNat_inj.mp hsame, ih hrest]

/-! ### Forms -/

/-- The owners of properties come back when each is the entity that declares it. -/
lemma Entity.owned_detached {e : Entity} (h : ∀ p ∈ e.properties, p.owner = some e.id) :
    e.detached.owned = e := by
  have hproperties : (e.properties.map (·.detached)).map (·.ownedBy e.id) = e.properties := by
    rw [List.map_map]
    refine (List.map_congr_left fun p hp => ?_).trans (List.map_id _)
    rw [Function.comp_apply, Property.ownedBy, Property.detached, ← h p hp]
    rfl
  unfold Entity.owned Entity.detached
  rw [hproperties]

lemma eq_of_map_eq_map {α β : Type} {f : α → β} {l l' : List α} (h : l.map f = l'.map f)
    (hinj : ∀ a ∈ l, ∀ b ∈ l', f a = f b → a = b) : l = l' := by
  induction l generalizing l' with
  | nil => exact (List.map_eq_nil_iff.mp h.symm).symm
  | cons a l ih =>
    cases l' with
    | nil => cases h
    | cons b l' =>
      obtain ⟨hhead, htail⟩ := List.cons.inj h
      have hrest := ih htail fun x hx y hy =>
        hinj x (List.mem_cons_of_mem _ hx) y (List.mem_cons_of_mem _ hy)
      rw [hinj a List.mem_cons_self b List.mem_cons_self hhead, hrest]

namespace Model

variable {m m' : Model}

/-- Every property, also in an include, is owned by the entity that declares it. -/
def Owned (m : Model) : Prop :=
  ∀ part ∈ m.tree, ∀ e ∈ part.entities, ∀ p ∈ e.properties, p.owner = some e.id

lemma Reachable.owned (h : m.Reachable) : m.Owned :=
  fun part hpart e he => ((h.grown.intact part hpart).entities e he).owners

/-- Models whose properties have the right owners are written alike only when they are the same. -/
lemma toJson_inj (h : m.Owned) (h' : m'.Owned) (hsame : m.toJson = m'.toJson) : m = m' := by
  induction m using induct generalizing m' with
  | h m ih =>
    obtain ⟨hroot, hothers⟩ := forall_mem_tree.mp h
    obtain ⟨hroot', hothers'⟩ := forall_mem_tree.mp h'
    rw [toJson_eq, toJson_eq m'] at hsame
    have hmembers := Json.obj.inj hsame
    simp only [List.cons.injEq, Prod.mk.injEq, true_and, and_true] at hmembers
    obtain ⟨hnameSpace, htypes, hfragments, hentities, hrelations, hincludes, hextensions⟩ := hmembers
    have hentities' : m.entities = m'.entities := by
      refine eq_of_map_eq_map (Json.arr.inj hentities) fun e he e' he' halike => ?_
      rw [← Entity.owned_detached (hroot e he), Entity.toJson_eq_iff.mp halike,
        Entity.owned_detached (hroot' e' he')]
    have hincludes' : m.includes = m'.includes := by
      refine eq_of_map_eq_map (Json.arr.inj hincludes) fun other hother other' hother' halike => ?_
      exact ih other hother (hothers other hother) (hothers' other' hother') halike
    have hnameSpace' := (Decoder.reads_string? m.nameSpace).unique
      (hnameSpace ▸ Decoder.reads_string? m'.nameSpace)
    have htypes' := (Decoder.Reads.list TypeReference.reads m.types).unique
      (htypes ▸ Decoder.Reads.list TypeReference.reads m'.types)
    have hfragments' := (Decoder.Reads.list SourceFragment.reads m.fragments).unique
      (hfragments ▸ Decoder.Reads.list SourceFragment.reads m'.fragments)
    have hrelations' := (Decoder.Reads.list Relation.reads m.relations).unique
      (hrelations ▸ Decoder.Reads.list Relation.reads m'.relations)
    have hextensions' := (Extensions.reads m.extensions).unique
      (hextensions ▸ Extensions.reads m'.extensions)
    cases m
    cases m'
    cases hnameSpace'
    cases htypes'
    cases hfragments'
    cases hentities'
    cases hrelations'
    cases hincludes'
    cases hextensions'
    rfl

/-- The text of a model tells the model, and its hash does so unless two texts have one digest. -/
theorem Reachable.content_determines (h : m.Reachable) (h' : m'.Reachable) :
    (m.contentText.toUTF8.toList = m'.contentText.toUTF8.toList ↔ m = m') ∧
    (m.contentHash = m'.contentHash ↔ m = m' ∨
      m.contentText.toUTF8.toList ≠ m'.contentText.toUTF8.toList ∧
        Digest.Sha256.digest m.contentText.toUTF8.toList =
          Digest.Sha256.digest m'.contentText.toUTF8.toList) := by
  have htext : m.contentText.toUTF8.toList = m'.contentText.toUTF8.toList ↔ m = m' := by
    rw [toUTF8_toList_inj]
    unfold contentText
    rw [m.plain_toJson.compact_inj m'.plain_toJson]
    exact ⟨toJson_inj h.owned h'.owned, fun hsame => hsame ▸ rfl⟩
  refine ⟨htext, ?_⟩
  unfold contentHash
  rw [Digest.Sha256.hex_inj, Ne, htext]
  constructor
  · intro hdigest
    by_cases hsame : m = m'
    · exact .inl hsame
    · exact .inr ⟨hsame, hdigest⟩
  · rintro (rfl | ⟨-, hdigest⟩)
    · rfl
    · exact hdigest

namespace TwoOrders

def item : Entity := Entity.ofName "Item" "Item"

def order : Entity := Entity.ofName "Order" "Order"

def itemFirst : Model := ofChanges [.addEntity item, .addEntity order]

def orderFirst : Model := ofChanges [.addEntity order, .addEntity item]

/-- Also the order of declarations is seen. -/
theorem content_determines_twoOrders :
    itemFirst.contentText.toUTF8.toList ≠ orderFirst.contentText.toUTF8.toList := by
  have hitem : itemFirst.Reachable := reachable_ofChanges _
  have horder : orderFirst.Reachable := reachable_ofChanges _
  have hids : itemFirst.entities.map (·.id) ≠ orderFirst.entities.map (·.id) := by decide +kernel
  intro hbytes
  rw [(hitem.content_determines horder).1.mp hbytes] at hids
  exact hids rfl

end TwoOrders

end Model

end EntityModel
