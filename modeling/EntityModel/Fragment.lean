import EntityModel.Attributes

/-!
# Source fragments

A source fragment is a table or view in which entities are stored. An entity attaches fragments by
reference; a secondary one is joined to another fragment of the entity, its anchor.
-/

namespace EntityModel

inductive ConstraintKind where
  | primaryKey
  | foreignKey
  | unique
  deriving DecidableEq, Repr

structure SourceConstraint where
  kind : ConstraintKind
  columns : List String
  deriving DecidableEq, Repr

/-- A column. -/
structure SourceField where
  column : String
  sourceType : Option String
  size : Option UInt32
  nullable : Bool
  /-- The store counts the column up by itself. -/
  identity : Bool
  /-- The expression of its default value. -/
  defaultValue : Option String
  deriving DecidableEq, Repr

namespace SourceField

def ofColumn (column : String) : SourceField := ⟨column, none, none, true, false, none⟩

end SourceField

structure SourceFragment where
  id : String
  name : String
  selector : Option String
  fields : List SourceField
  constraints : List SourceConstraint
  deriving DecidableEq, Repr

namespace SourceFragment

def ofName (id name : String) : SourceFragment := ⟨id, name, none, [], []⟩

def addField (f : SourceFragment) (field : SourceField) : SourceFragment :=
  { f with fields := f.fields ++ [field] }

def addConstraint (f : SourceFragment) (kind : ConstraintKind) (columns : List String) :
    SourceFragment :=
  { f with constraints := f.constraints ++ [⟨kind, columns⟩] }

def qualifiedName (f : SourceFragment) : String :=
  match f.selector with
  | some selector => selector ++ "." ++ f.name
  | none => f.name

/-- Whether two fragments are one and the same table. -/
def samePhysical (f g : SourceFragment) : Bool := f.name == g.name && f.selector == g.selector

def field? (f : SourceFragment) (column : String) : Option SourceField :=
  f.fields.find? (·.column == column)

def constraintsOn (f : SourceFragment) (column : String) : List SourceConstraint :=
  f.constraints.filter (·.columns.contains column)

end SourceFragment

namespace SourceField

def isConstrained (field : SourceField) (fragment : SourceFragment) (kind : ConstraintKind) :
    Bool :=
  (fragment.constraintsOn field.column).any (·.kind == kind)

def isPrimaryKey (field : SourceField) (fragment : SourceFragment) : Bool :=
  field.isConstrained fragment .primaryKey

def isForeignKey (field : SourceField) (fragment : SourceFragment) : Bool :=
  field.isConstrained fragment .foreignKey

/-- The attributes that the keys and the default of a column ask for. A key comes before a default;
an empty default is none. -/
def attributes (field : SourceField) (fragment : SourceFragment) : Attributes :=
  let hasDefault := field.defaultValue.any (· ≠ "")
  if field.isPrimaryKey fragment then
    if field.identity then .countedKey else .key
  else if !field.nullable && hasDefault then .insertDefault ||| .syncInsert
  else if hasDefault then .syncInsert
  else .none

end SourceField

inductive JoinType where
  | inner
  | outer
  deriving DecidableEq, Repr

/-- A column of a secondary fragment and the column of its anchor that it equals. -/
structure JoinCondition where
  refColumn : String
  anchorColumn : String
  deriving DecidableEq, Repr

/-- A fragment as an entity attaches it. -/
structure FragmentRef where
  fragment : String
  anchor : Option String
  joinType : JoinType
  conditions : List JoinCondition
  deriving DecidableEq, Repr

namespace FragmentRef

def primary (fragment : String) : FragmentRef := ⟨fragment, none, .inner, []⟩

def secondary (fragment anchor : String) (joinType : JoinType) : FragmentRef :=
  ⟨fragment, some anchor, joinType, []⟩

/-- Joins the fragment to its anchor on one more pair of columns. -/
def joinOn (ref : FragmentRef) (refColumn anchorColumn : String) : FragmentRef :=
  { ref with conditions := ref.conditions ++ [⟨refColumn, anchorColumn⟩] }

def isSecondary (ref : FragmentRef) : Bool := ref.anchor.isSome

end FragmentRef

end EntityModel
