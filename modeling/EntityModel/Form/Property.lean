import EntityModel.Form.TypeReference
import EntityModel.Property

/-!
# The written form of properties

The owner of a property is not written: a property is written inside the entity that owns it.
-/

namespace EntityModel

namespace Attributes

def toJson (a : Attributes) : Json := .ofNat a.bits.toNat

def decoder : Decoder Attributes := (⟨.ofNat ·⟩) <$> .natBelow UInt16.size

end Attributes

namespace AccessLevel

def names : List (String × AccessLevel) :=
  [("private", .privateLevel), ("protected", .protectedLevel), ("internal", .internalLevel),
    ("protected_internal", .protectedInternalLevel), ("public", .publicLevel)]

def toJson : AccessLevel → Json
  | privateLevel => .str "private"
  | protectedLevel => .str "protected"
  | internalLevel => .str "internal"
  | protectedInternalLevel => .str "protected_internal"
  | publicLevel => .str "public"

def decoder : Decoder AccessLevel := .constant names

end AccessLevel

namespace PropertyGroup

def toJson (g : PropertyGroup) : Json := .obj [("name", .str g.name), ("hide", .bool g.hide)]

def decoder : Decoder PropertyGroup :=
  .record <| mk <$> .string "name" <*> .orElse "hide" .bool true

end PropertyGroup

namespace ObsoleteKind

def names : List (String × ObsoleteKind) := [("warning", .warning), ("error", .error)]

def toJson : ObsoleteKind → Json
  | warning => .str "warning"
  | error => .str "error"

def decoder : Decoder ObsoleteKind := .constant names

end ObsoleteKind

namespace Obsolescence

def toJson (o : Obsolescence) : Json :=
  .obj [("kind", o.kind.toJson), ("message", .ofString? o.message)]

def decoder : Decoder Obsolescence :=
  .record <| mk <$> .required "kind" ObsoleteKind.decoder <*> .string? "message"

end Obsolescence

namespace Property

def members (p : Property) : List (String × Json) :=
  [("name", .str p.name), ("alias", .str p.aliasName), ("description", .ofString? p.description),
    ("attributes", p.attributes.toJson), ("type", p.type.toJson),
    ("field_name", .ofString? p.fieldName), ("field_alias", .ofString? p.fieldAlias),
    ("field_access", p.fieldAccess.toJson), ("property_access", p.propertyAccess.toJson),
    ("source_fragment", .ofString? p.sourceFragment), ("disabled", .bool p.disabled),
    ("deferred_group", .ofString? p.deferredGroup),
    ("obsolete", .ofOption Obsolescence.toJson p.obsolete),
    ("group", .ofOption PropertyGroup.toJson p.group), ("from_base", .bool p.fromBase),
    ("refreshed", .bool p.refreshed)]

def toJson (p : Property) : Json := .obj p.members

/-- The alias is left empty when it is not written; loading a model replaces it by the name. There
is no owner. -/
def decoder : Decoder Property :=
  .record <| (· none) <$> (mk <$> .string "name" <*> .orElse "alias" .string "" <*>
    .string? "description" <*> .orElse "attributes" Attributes.decoder .none <*>
    .required "type" TypeReference.decoder <*> .string? "field_name" <*> .string? "field_alias" <*>
    .orElse "field_access" AccessLevel.decoder .privateLevel <*>
    .orElse "property_access" AccessLevel.decoder .publicLevel <*> .string? "source_fragment" <*>
    .flag "disabled" <*> .string? "deferred_group" <*> .optional "obsolete" Obsolescence.decoder <*>
    .optional "group" PropertyGroup.decoder <*> .flag "from_base" <*> .flag "refreshed")

end Property

end EntityModel
