import EntityModel.NativeName

/-!
# Property types

A type reference is an identifier and what stands behind it: a native type, a type known by name
with hints on its nature, or another entity.
-/

namespace EntityModel

/-- How a native type behaves as a value. -/
inductive ValueShape where
  | reference
  | value
  | enumeration
  | nullable
  deriving DecidableEq, Repr

structure NativeType where
  name : String
  shape : ValueShape
  deriving DecidableEq, Repr

namespace NativeType

/-- Classifies a native type by its name. An enumeration does not show in a name. -/
def ofName (name : String) : NativeType where
  name := name
  shape :=
    if (NativeName.wrapped? name).isSome then .nullable
    else if name ∈ NativeName.valueTypes then .value
    else .reference

def underlying? (type : NativeType) : Option String := NativeName.wrapped? type.name

end NativeType

/-- What is known of a type that is only known by name. -/
structure TypeHints where
  enumeration : Bool
  valueType : Bool
  nullable : Bool
  deriving DecidableEq, Repr

namespace TypeHints

def none : TypeHints := ⟨false, false, false⟩

def isEmpty (hints : TypeHints) : Bool := !(hints.enumeration || hints.valueType || hints.nullable)

end TypeHints

inductive TypeKind where
  | native (type : NativeType)
  | user (name : String) (hints : Option TypeHints)
  | entity (target : String)
  deriving DecidableEq, Repr

namespace TypeKind

/-- What the type is called: the native or user name, or the identifier of the entity. -/
def name : TypeKind → String
  | native type => type.name
  | user name _ => name
  | entity target => target

def describe : TypeKind → String
  | native type => s!"native '{type.name}'"
  | user name _ => s!"user type '{name}'"
  | entity target => s!"reference to '{target}'"

def native? : TypeKind → Option NativeType
  | native type => some type
  | _ => none

def userName? : TypeKind → Option String
  | user name _ => some name
  | _ => none

def target? : TypeKind → Option String
  | entity target => some target
  | _ => none

def hints? : TypeKind → Option TypeHints
  | user _ hints => hints
  | _ => none

def isValueType : TypeKind → Bool
  | native type => type.shape ≠ .reference
  | user _ hints => hints.any (! ·.isEmpty)
  | entity _ => false

def isEnumeration : TypeKind → Bool
  | native type => type.shape = .enumeration
  | user _ hints => hints.any (·.enumeration)
  | entity _ => false

def isNullable : TypeKind → Bool
  | native type => type.shape = .nullable
  | user _ hints => hints.any (·.nullable)
  | entity _ => false

end TypeKind

/-- A property type under the identifier it is registered by. -/
structure TypeReference where
  id : String
  kind : TypeKind
  deriving DecidableEq, Repr

namespace TypeReference

/-- Two references are to the same type when their identifiers are equal, also where one of them
has been narrowed to another entity. -/
def sameType (a b : TypeReference) : Bool := a.id == b.id

def target? (type : TypeReference) : Option String := type.kind.target?

/-- The type under the same identifier, referring to another entity. -/
def retarget (type : TypeReference) (target : String) : TypeReference := ⟨type.id, .entity target⟩

end TypeReference

end EntityModel
