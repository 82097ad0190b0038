import EntityModel.Extension
import EntityModel.Json.Decoder

/-!
# The written form of extensions
-/

namespace EntityModel

namespace ExtensionNode

mutual

def toJson : ExtensionNode → Json
  | ⟨name, attributes, children, text⟩ =>
    .obj [("name", .str name), ("attributes", .ofMap .str attributes.entries),
      ("children", .arr (childrenToJson children)), ("text", .ofString? text)]
termination_by structural node => node

def childrenToJson : List ExtensionNode → List Json
  | [] => []
  | node :: rest => node.toJson :: childrenToJson rest
termination_by structural nodes => nodes

end

def decoderOver (child : Decoder ExtensionNode) : Decoder ExtensionNode :=
  .record <| mk <$> .string "name" <*> .orElse "attributes" (.map .string) .empty <*>
    .list "children" child <*> .string? "text"

/-- Reads a node within a number of levels. It takes two of them, its own and that of the list of
its children. -/
def decoderWithin : (levels : Nat) → Decoder ExtensionNode
  | n + 2 => decoderOver (decoderWithin n)
  | _ => decoderOver .nothing

def decoder : Decoder ExtensionNode := .ofLevels decoderWithin

end ExtensionNode

namespace Extensions

def toJson (extensions : Extensions) : Json := .ofMap ExtensionNode.toJson extensions.entries

def decoder : Decoder Extensions := .map ExtensionNode.decoder

end Extensions

end EntityModel
