import EntityModel.Form.Entity
import EntityModel.Model

/-!
# The written form of models

This is the text that a content hash is taken of.
-/

namespace EntityModel.Model

mutual

def toJson : Model → Json
  | ⟨nameSpace, types, fragments, entities, relations, includes, extensions⟩ =>
    .obj [("namespace", .ofString? nameSpace), ("types", .ofList TypeReference.toJson types),
      ("fragments", .ofList SourceFragment.toJson fragments),
      ("entities", .ofList Entity.toJson entities),
      ("relations", .ofList Relation.toJson relations), ("includes", .arr (forestToJson includes)),
      ("extensions", Extensions.toJson extensions)]
termination_by structural m => m

def forestToJson : List Model → List Json
  | [] => []
  | m :: rest => m.toJson :: forestToJson rest
termination_by structural ms => ms

end

end EntityModel.Model
