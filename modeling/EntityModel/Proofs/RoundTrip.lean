import EntityModel.Proofs.Forms

/-!
# Declarations come back from their written form

A value that is at hand may be as deep as it is, so a decoder that reads a written form within any
number of levels reads it there. Of a declaration only the owners of its properties are lost on the
way, as they are not written.
-/

namespace EntityModel

namespace Decoder

variable {α : Type} {d : Decoder α} {json : Json} {a b : α}

lemma Reads.ofJson (h : d.Reads json a) : d.ofJson json = .ok a := by
  unfold Decoder.ofJson
  rw [(h json.depth).read, if_pos le_rfl]
  rfl

/-- A written form is that of one value only. -/
lemma Reads.unique (h : d.Reads json a) (h' : d.Reads json b) : a = b :=
  Except.ok.inj (h.ofJson.symm.trans h'.ofJson)

end Decoder

lemma BinaryRelation.reads (r : BinaryRelation) : (Decoder.record fields).Reads r.toJson r :=
  Fields.reads_record (by decide) r.writes

lemma SelfRelation.reads (r : SelfRelation) : (Decoder.record fields).Reads r.toJson r :=
  Fields.reads_record (by decide) r.writes

/-- Entities are written alike just when they are the same but for the owners of their properties. -/
theorem Entity.toJson_eq_iff {e e' : Entity} : e.toJson = e'.toJson ↔ e.detached = e'.detached := by
  constructor
  · intro h
    exact e.reads.unique (h ▸ e'.reads)
  · intro h
    rw [← e.toJson_detached, h, e'.toJson_detached]

/-- Decoding the written form of a declaration gives the declaration, with properties that have no
owner. -/
theorem decoding_undoes_encoding :
    (∀ type : TypeReference, TypeReference.decoder.ofJson type.toJson = .ok type) ∧
    (∀ f : SourceFragment, SourceFragment.decoder.ofJson f.toJson = .ok f) ∧
    (∀ ref : FragmentRef, FragmentRef.decoder.ofJson ref.toJson = .ok ref) ∧
    (∀ p : Property, Property.decoder.ofJson p.toJson = .ok { p with owner := none }) ∧
    (∀ e : Entity, Entity.decoder.ofJson e.toJson =
      .ok { e with properties := e.properties.map fun p => { p with owner := none } }) ∧
    (∀ relation : Relation, Relation.decoder.ofJson relation.toJson = .ok relation) ∧
    (∀ r : BinaryRelation, (Decoder.record BinaryRelation.fields).ofJson r.toJson = .ok r) ∧
    (∀ r : SelfRelation, (Decoder.record SelfRelation.fields).ofJson r.toJson = .ok r) ∧
    (∀ relation : EntityRelation, EntityRelation.decoder.ofJson relation.toJson = .ok relation) ∧
    (∀ node : ExtensionNode, ExtensionNode.decoder.ofJson node.toJson = .ok node) := by
  refine ⟨fun type => ?_, fun f => ?_, fun ref => ?_, fun p => ?_, fun e => ?_, fun relation => ?_,
    fun r => ?_, fun r => ?_, fun relation => ?_, fun node => ?_⟩
  · exact type.reads.ofJson
  · exact f.reads.ofJson
  · exact ref.reads.ofJson
  · exact p.reads.ofJson
  · exact e.reads.ofJson
  · exact relation.reads.ofJson
  · exact r.reads.ofJson
  · exact r.reads.ofJson
  · exact relation.reads.ofJson
  · exact node.reads.ofJson

end EntityModel
