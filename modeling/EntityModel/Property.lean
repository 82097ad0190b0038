import EntityModel.Attributes
import EntityModel.TypeReference

/-!
# Properties

A property is a named, typed attribute of an entity. Its alias is what it is known by across the
levels of inheritance.
-/

namespace EntityModel

/-- How far a generated field or property can be seen. -/
inductive AccessLevel where
  | privateLevel
  | protectedLevel
  | internalLevel
  | protectedInternalLevel
  | publicLevel
  deriving DecidableEq, Repr

/-- Properties that are shown together. -/
structure PropertyGroup where
  name : String
  hide : Bool
  deriving DecidableEq, Repr

/-- A group is hidden unless it is declared otherwise. -/
def PropertyGroup.ofName (name : String) : PropertyGroup := ⟨name, true⟩

inductive ObsoleteKind where
  | warning
  | error
  deriving DecidableEq, Repr

structure Obsolescence where
  kind : ObsoleteKind
  message : Option String
  deriving DecidableEq, Repr

structure Property where
  name : String
  aliasName : String
  description : Option String
  attributes : Attributes
  type : TypeReference
  /-- The column behind the property. -/
  fieldName : Option String
  fieldAlias : Option String
  fieldAccess : AccessLevel
  propertyAccess : AccessLevel
  /-- The fragment that holds the column. -/
  sourceFragment : Option String
  disabled : Bool
  /-- The group with which the value is loaded on demand. -/
  deferredGroup : Option String
  obsolete : Option Obsolescence
  group : Option PropertyGroup
  /-- The property comes from a base entity. -/
  fromBase : Bool
  /-- The entity it refers to has been narrowed on the way from there. -/
  refreshed : Bool
  /-- The entity it is attached to. -/
  owner : Option String
  deriving DecidableEq, Repr

namespace Property

/-- A property under its own name as alias, with nothing else declared. -/
def ofType (name : String) (type : TypeReference) : Property where
  name := name
  aliasName := name
  description := none
  attributes := .none
  type := type
  fieldName := none
  fieldAlias := none
  fieldAccess := .privateLevel
  propertyAccess := .publicLevel
  sourceFragment := none
  disabled := false
  deferredGroup := none
  obsolete := none
  group := none
  fromBase := false
  refreshed := false
  owner := none

/-- The property as the key of its entity, and as nothing else. -/
def asKey (p : Property) : Property := { p with attributes := .key }

def storedIn (p : Property) (fragment column : String) : Property :=
  { p with sourceFragment := some fragment, fieldName := some column }

def hasAttribute (p : Property) (a : Attributes) : Bool := p.attributes.contains a

def isKey (p : Property) : Bool := p.hasAttribute .key

/-- Whether the value is loaded on demand; an empty group name means that it is not. -/
def isDeferred (p : Property) : Bool := p.deferredGroup.any (· ≠ "")

def ownedBy (p : Property) (entity : String) : Property := { p with owner := some entity }

/-- The property as it was before it was attached to an entity. -/
def detached (p : Property) : Property := { p with owner := none }

end Property

end EntityModel
