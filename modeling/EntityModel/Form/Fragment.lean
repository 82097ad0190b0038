import EntityModel.Fragment
import EntityModel.Json.Decoder

/-!
# The written form of source fragments
-/

namespace EntityModel

namespace ConstraintKind

def names : List (String × ConstraintKind) :=
  [("primary_key", .primaryKey), ("foreign_key", .foreignKey), ("unique", .unique)]

def toJson : ConstraintKind → Json
  | primaryKey => .str "primary_key"
  | foreignKey => .str "foreign_key"
  | unique => .str "unique"

def decoder : Decoder ConstraintKind := .constant names

end ConstraintKind

namespace SourceConstraint

def toJson (c : SourceConstraint) : Json :=
  .obj [("kind", c.kind.toJson), ("columns", .ofStrings c.columns)]

def decoder : Decoder SourceConstraint :=
  .record <| mk <$> .required "kind" ConstraintKind.decoder <*>
    .required "columns" (.list .string)

end SourceConstraint

namespace SourceField

def toJson (field : SourceField) : Json :=
  .obj [("column", .str field.column), ("source_type", .ofString? field.sourceType),
    ("size", .ofOption (fun size => .ofNat size.toNat) field.size),
    ("nullable", .bool field.nullable), ("identity", .bool field.identity),
    ("default", .ofString? field.defaultValue)]

def decoder : Decoder SourceField :=
  .record <| mk <$> .string "column" <*> .string? "source_type" <*>
    .optional "size" (.ofNat <$> .natBelow UInt32.size) <*> .orElse "nullable" .bool true <*>
    .flag "identity" <*> .string? "default"

end SourceField

namespace SourceFragment

def toJson (f : SourceFragment) : Json :=
  .obj [("id", .str f.id), ("name", .str f.name), ("selector", .ofString? f.selector),
    ("fields", .ofList SourceField.toJson f.fields),
    ("constraints", .ofList SourceConstraint.toJson f.constraints)]

def decoder : Decoder SourceFragment :=
  .record <| mk <$> .string "id" <*> .string "name" <*> .string? "selector" <*>
    .list "fields" SourceField.decoder <*> .list "constraints" SourceConstraint.decoder

end SourceFragment

namespace JoinType

def names : List (String × JoinType) := [("inner", .inner), ("outer", .outer)]

def toJson : JoinType → Json
  | inner => .str "inner"
  | outer => .str "outer"

def decoder : Decoder JoinType := .constant names

end JoinType

namespace JoinCondition

def toJson (c : JoinCondition) : Json :=
  .obj [("ref_column", .str c.refColumn), ("anchor_column", .str c.anchorColumn)]

def decoder : Decoder JoinCondition :=
  .record <| mk <$> .string "ref_column" <*> .string "anchor_column"

end JoinCondition

namespace FragmentRef

def toJson (ref : FragmentRef) : Json :=
  .obj [("fragment", .str ref.fragment), ("anchor", .ofString? ref.anchor),
    ("join_type", ref.joinType.toJson),
    ("conditions", .ofList JoinCondition.toJson ref.conditions)]

def decoder : Decoder FragmentRef :=
  .record <| mk <$> .string "fragment" <*> .string? "anchor" <*>
    .orElse "join_type" JoinType.decoder .inner <*> .list "conditions" JoinCondition.decoder

end FragmentRef

end EntityModel
