import EntityModel.KeyedMap

/-!
# Extensions

Documents that other tools attach to a declaration. They are kept and handed back as they are.
-/

namespace EntityModel

structure ExtensionNode where
  name : String
  attributes : KeyedMap String
  children : List ExtensionNode
  text : Option String

namespace ExtensionNode

instance : Inhabited ExtensionNode := ⟨"", .empty, [], none⟩

def ofName (name : String) : ExtensionNode := ⟨name, .empty, [], none⟩

def setAttribute (node : ExtensionNode) (name value : String) : ExtensionNode :=
  { node with attributes := node.attributes.insert name value }

def addChild (node child : ExtensionNode) : ExtensionNode :=
  { node with children := node.children ++ [child] }

/-- The first child of that name. -/
def child? (node : ExtensionNode) (name : String) : Option ExtensionNode :=
  node.children.find? (·.name == name)

end ExtensionNode

/-- Extension documents by name. -/
abbrev Extensions := KeyedMap ExtensionNode

end EntityModel
