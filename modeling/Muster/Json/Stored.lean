import Muster.Json.Reader

/-!
# Stored documents

The content of a file that is meant to hold a document, as far as a reader can tell contents apart.
-/

namespace Muster.Json

inductive Stored
  /-- There is no file. -/
  | absent
  /-- The file is packed, and cannot be unpacked. -/
  | damaged
  /-- The text is no document. -/
  | malformed
  | document (spelled : Spelled)
  deriving Repr, Inhabited

namespace Stored

/-- A file with the given text. -/
def ofText (text : String) : Stored :=
  match Spelled.ofText? text with
  | some spelled => document spelled
  | none => malformed

/-- A file that a value was written to. -/
def ofValue (v : Json) : Stored := document v.spelled

/-- The value that the file holds. -/
def value? : Stored → Option Json
  | document spelled => spelled.value? maxDepth
  | _ => none

def isAbsent : Stored → Bool
  | absent => true
  | _ => false

end Stored

end Muster.Json
