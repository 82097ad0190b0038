/-!
# Names of native types

A native type is classified by its name alone. The names of nullable wrappers are those that wrap
another name `t`: `Nullable<t>`, `System.Nullable<t>` and `Option<t>` for any `t` on one line, and
`t?` for a `t` without wrapper characters. No name is a wrapper in two ways.
-/

namespace EntityModel.NativeName

/-- The brackets that wrap a name, each with its opening part. -/
def openings : List String := ["System.Nullable<", "Nullable<", "Option<"]

def bracketed? (opening name : List Char) : Option (List Char) :=
  if opening.isPrefixOf name then
    let rest := name.drop opening.length
    let inner := rest.dropLast
    if rest.getLast? = some '>' ∧ inner ≠ [] ∧ '\n' ∉ inner then some inner else none
  else none

def questioned? (name : List Char) : Option (List Char) :=
  let inner := name.dropLast
  if name.getLast? = some '?' ∧ inner ≠ [] ∧ (inner.all fun c => c ≠ '?' && c ≠ '<' && c ≠ '>') then
    some inner
  else none

def wrapped? (name : String) : Option String :=
  ((openings.findSome? fun opening => bracketed? opening.toList name.toList).or
    (questioned? name.toList)).map String.ofList

def valueTypes : List String :=
  ["System.Boolean", "System.Byte", "System.SByte", "System.Char", "System.Int16", "System.UInt16",
    "System.Int32", "System.UInt32", "System.Int64", "System.UInt64", "System.Single",
    "System.Double", "System.Decimal", "System.DateTime", "System.DateTimeOffset",
    "System.TimeSpan", "System.Guid", "bool", "char", "i8", "i16", "i32", "i64", "i128", "u8",
    "u16", "u32", "u64", "u128", "f32", "f64", "isize", "usize"]

end EntityModel.NativeName
