import EntityModel.Json.Decoder
import EntityModel.Relation

/-!
# The written form of relations

A relation of the model says by its kind of which shape it is; where the shape is known, the kind
is left out.
-/

namespace EntityModel

namespace RelationConstant

def toJson (c : RelationConstant) : Json := .obj [("name", .str c.name), ("value", .str c.value)]

def decoder : Decoder RelationConstant :=
  .record <| mk <$> .string "name" <*> .string "value"

end RelationConstant

namespace Accessor

def toJson (a : Accessor) : Json :=
  .obj [("name", .ofString? a.name), ("description", .ofString? a.description),
    ("entity_type", .ofString? a.entityType)]

def decoder : Decoder Accessor :=
  .record <| mk <$> .string? "name" <*> .string? "description" <*> .string? "entity_type"

end Accessor

namespace RelationEnd

def toJson (e : RelationEnd) : Json :=
  .obj [("entity", .str e.entity), ("fields", .ofStrings e.fields),
    ("cascade_delete", .bool e.cascadeDelete), ("accessor", e.accessor.toJson)]

def decoder : Decoder RelationEnd :=
  .record <| mk <$> .string "entity" <*> .required "fields" (.list .string) <*>
    .flag "cascade_delete" <*> .orElse "accessor" Accessor.decoder .unnamed

end RelationEnd

namespace SelfRelationEnd

def toJson (e : SelfRelationEnd) : Json :=
  .obj [("fields", .ofStrings e.fields), ("cascade_delete", .bool e.cascadeDelete),
    ("accessor", e.accessor.toJson)]

def decoder : Decoder SelfRelationEnd :=
  .record <| mk <$> .required "fields" (.list .string) <*> .flag "cascade_delete" <*>
    .orElse "accessor" Accessor.decoder .unnamed

end SelfRelationEnd

namespace BinaryRelation

def members (r : BinaryRelation) : List (String × Json) :=
  [("source_fragment", .str r.sourceFragment), ("left", r.left.toJson), ("right", r.right.toJson),
    ("underlying_entity", .ofString? r.underlyingEntity),
    ("constants", .ofList RelationConstant.toJson r.constants), ("disabled", .bool r.disabled)]

def toJson (r : BinaryRelation) : Json := .obj r.members

def fields : Fields BinaryRelation :=
  mk <$> .string "source_fragment" <*> .required "left" RelationEnd.decoder <*>
    .required "right" RelationEnd.decoder <*> .string? "underlying_entity" <*>
    .list "constants" RelationConstant.decoder <*> .flag "disabled"

end BinaryRelation

namespace SelfRelation

def members (r : SelfRelation) : List (String × Json) :=
  [("source_fragment", .str r.sourceFragment), ("entity", .str r.entity),
    ("direct", r.direct.toJson), ("reverse", r.reverse.toJson),
    ("underlying_entity", .ofString? r.underlyingEntity),
    ("constants", .ofList RelationConstant.toJson r.constants), ("disabled", .bool r.disabled)]

def toJson (r : SelfRelation) : Json := .obj r.members

def fields : Fields SelfRelation :=
  mk <$> .string "source_fragment" <*> .string "entity" <*>
    .required "direct" SelfRelationEnd.decoder <*> .required "reverse" SelfRelationEnd.decoder <*>
    .string? "underlying_entity" <*> .list "constants" RelationConstant.decoder <*>
    .flag "disabled"

end SelfRelation

namespace Relation

def toJson : Relation → Json
  | binary r => .obj (("kind", .str "binary") :: r.members)
  | self r => .obj (("kind", .str "self") :: r.members)

def kinds : List (String × Decoder Relation) :=
  [("binary", .record (binary <$> BinaryRelation.fields)),
    ("self", .record (self <$> SelfRelation.fields))]

/-- A relation in an array has its kind in front of its members. -/
def decoder : Decoder Relation :=
  .whole fun levels json =>
    match json with
    | .obj members =>
      match members.filter (·.1 == "kind") with
      | [(_, .str kind)] => do (← Decoder.named kinds kind).read levels json
      | _ => .error .mismatched
    | .arr (.str kind :: items) => do (← Decoder.named kinds kind).read levels (.arr items)
    | _ => .error .mismatched

end Relation

namespace EntityRelation

def toJson (r : EntityRelation) : Json :=
  .obj [("name", .ofString? r.name), ("entity", .str r.entity),
    ("source_entity", .str r.sourceEntity), ("property_alias", .ofString? r.propertyAlias),
    ("accessor", r.accessor.toJson), ("disabled", .bool r.disabled)]

def decoder : Decoder EntityRelation :=
  .record <| mk <$> .string? "name" <*> .string "entity" <*> .string "source_entity" <*>
    .string? "property_alias" <*> .orElse "accessor" Accessor.decoder .unnamed <*>
    .flag "disabled"

end EntityRelation

end EntityModel
