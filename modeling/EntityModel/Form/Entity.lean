import EntityModel.Entity
import EntityModel.Form.Extension
import EntityModel.Form.Fragment
import EntityModel.Form.Property
import EntityModel.Form.Relation

/-!
# The written form of entities
-/

namespace EntityModel

namespace EntityBehaviour

def names : List (String × EntityBehaviour) :=
  [("default", .default), ("partial_objects", .partialObjects), ("force_partial", .forcePartial),
    ("abstract", .abstract)]

def toJson : EntityBehaviour → Json
  | default => .str "default"
  | partialObjects => .str "partial_objects"
  | forcePartial => .str "force_partial"
  | abstract => .str "abstract"

def decoder : Decoder EntityBehaviour := .constant names

end EntityBehaviour

namespace Entity

/-- The object of an entity, given how its properties are written. -/
def toJsonOver (property : Property → Json) (e : Entity) : Json :=
  .obj [("id", .str e.id), ("name", .str e.name), ("namespace", .ofString? e.nameSpace),
    ("description", .ofString? e.description), ("base", .ofString? e.base),
    ("family_name", .ofString? e.familyName), ("properties", .ofList property e.properties),
    ("source_fragments", .ofList FragmentRef.toJson e.fragments),
    ("suppressed_properties", .ofStrings e.suppressed),
    ("inherits_base_tables", .bool e.inheritsBaseTables), ("disabled", .bool e.disabled),
    ("use_generics", .bool e.useGenerics), ("make_interface", .bool e.makeInterface),
    ("cache_check_required", .bool e.cacheCheckRequired), ("behaviour", e.behaviour.toJson),
    ("entity_relations", .ofList EntityRelation.toJson e.entityRelations),
    ("extensions", e.extensions.toJson)]

def toJson (e : Entity) : Json := e.toJsonOver Property.toJson

def decoder : Decoder Entity :=
  .record <| mk <$> .string "id" <*> .string "name" <*> .string? "namespace" <*>
    .string? "description" <*> .string? "base" <*> .string? "family_name" <*>
    .list "properties" Property.decoder <*> .list "source_fragments" FragmentRef.decoder <*>
    .list "suppressed_properties" .string <*> .orElse "inherits_base_tables" .bool true <*>
    .flag "disabled" <*> .flag "use_generics" <*> .flag "make_interface" <*>
    .flag "cache_check_required" <*> .orElse "behaviour" EntityBehaviour.decoder .default <*>
    .list "entity_relations" EntityRelation.decoder <*>
    .orElse "extensions" Extensions.decoder .empty

end Entity

end EntityModel
