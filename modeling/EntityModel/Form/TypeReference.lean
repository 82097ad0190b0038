import EntityModel.Json.Decoder
import EntityModel.TypeReference

/-!
# The written form of types

A type reference is one object: its identifier, its kind, and what the kind declares.
-/

namespace EntityModel

namespace ValueShape

def names : List (String × ValueShape) :=
  [("reference", .reference), ("value", .value), ("enum", .enumeration), ("nullable", .nullable)]

def toJson : ValueShape → Json
  | reference => .str "reference"
  | value => .str "value"
  | enumeration => .str "enum"
  | nullable => .str "nullable"

def decoder : Decoder ValueShape := .heldConstant names

end ValueShape

namespace TypeHints

def toJson (hints : TypeHints) : Json :=
  .obj [("enumeration", .bool hints.enumeration), ("value_type", .bool hints.valueType),
    ("nullable", .bool hints.nullable)]

def decoder : Decoder TypeHints :=
  .record <| mk <$> .flag "enumeration" <*> .flag "value_type" <*> .flag "nullable"

end TypeHints

namespace TypeKind

def members : TypeKind → List (String × Json)
  | native type => [("kind", .str "native"), ("name", .str type.name), ("shape", type.shape.toJson)]
  | user name hints =>
    [("kind", .str "user"), ("name", .str name), ("hints", .ofOption TypeHints.toJson hints)]
  | entity target => [("kind", .str "entity"), ("entity", .str target)]

/-- What is read for each kind, by its name and by its place in the order of kinds. -/
def kinds : List (String × Fields TypeKind) :=
  [("native",
      (fun name shape => native ⟨name, shape⟩) <$> .string "name" <*>
        .required "shape" ValueShape.decoder),
    ("user", user <$> .string "name" <*> .optional "hints" TypeHints.decoder),
    ("entity", entity <$> .string "entity")]

def ofMembers (m : Decoder.Members) : Except JsonError TypeKind := do
  match ← m.get? "kind" with
  | some (.str name) => (← Decoder.named kinds name).build m
  | some (.int n) =>
    match if 0 ≤ n then kinds[n.toNat]? else none with
    | some kind => kind.2.build m
    | none => .error .mismatched
  | _ => .error .mismatched

end TypeKind

namespace TypeReference

def toJson (type : TypeReference) : Json := .obj (("id", .str type.id) :: type.kind.members)

def ofMembers (m : Decoder.Members) : Except JsonError TypeReference :=
  return { id := ← (Fields.string "id").build m, kind := ← TypeKind.ofMembers m }

def decoder : Decoder TypeReference :=
  .whole fun
    | levels, .obj members => do ofMembers ⟨← Decoder.enter levels, members⟩
    | _, _ => .error .mismatched

end TypeReference

end EntityModel
