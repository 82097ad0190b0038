/-!
# Storage attributes

The storage attributes of a property, one bit each.
-/

namespace EntityModel

structure Attributes where
  bits : UInt16
  deriving DecidableEq, Repr

namespace Attributes

def none : Attributes := ⟨0⟩

def key : Attributes := ⟨1⟩

def syncInsert : Attributes := ⟨2⟩

def syncUpdate : Attributes := ⟨4⟩

def readOnly : Attributes := ⟨8⟩

def insertDefault : Attributes := ⟨16⟩

instance : OrOp Attributes := ⟨fun a b => ⟨a.bits ||| b.bits⟩⟩

def countedKey : Attributes := key ||| syncInsert ||| readOnly

def isEmpty (a : Attributes) : Bool := a.bits == 0

/-- Whether all of `b` is in `a`. -/
def contains (a b : Attributes) : Bool := a.bits &&& b.bits == b.bits

end Attributes

end EntityModel
