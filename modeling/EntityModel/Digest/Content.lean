import EntityModel.Digest.Sha256
import EntityModel.Form.Model
import EntityModel.Json.Printer

/-!
# Content hashes

A model is identified by the digest of its compact text. Registries are written in order and
extensions by key, so equal models have equal hashes.
-/

namespace EntityModel

namespace Model

def contentText (m : Model) : String := m.toJson.compact

def contentHash (m : Model) : String :=
  Digest.Sha256.hex (Digest.Sha256.digest m.contentText.toUTF8.toList)

end Model

namespace Digest

def shortLength : Nat := 12

/-- The characters of a text that take exactly the given number of bytes. -/
def leadingBytes? : Nat → List Char → Option (List Char)
  | 0, _ => some []
  | _ + 1, [] => none
  | n + 1, c :: rest =>
    if c.utf8Size ≤ n + 1 then (leadingBytes? (n + 1 - c.utf8Size) rest).map (c :: ·) else none

/-- The beginning of a hash, or all of it when it does not have that many bytes or they end inside a
character. -/
def short (hash : String) : String :=
  match leadingBytes? shortLength hash.toList with
  | some chars => String.ofList chars
  | none => hash

end Digest

end EntityModel
