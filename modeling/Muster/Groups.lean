import Muster.Fault
import Muster.Json.Stored
import Muster.Text.Blank
import Muster.Text.Upper

/-!
# Node groups

Named sets of nodes, kept in a file that is written after every change. A group without members is
dropped.
-/

namespace Muster

open Json (Stored)

abbrev Groups := SortedMap String (SortedSet String)

namespace Groups

/-- The names that are not blank, trimmed. -/
def cleaned (names : List String) : List String :=
  (names.map Text.trim).filter (· ≠ "")

def members (g : Groups) (group : String) : SortedSet String := (g.get? group).getD ∅

/-- Whether `node` belongs to `group`. -/
def Has (g : Groups) (group node : String) : Prop := (g.members group).contains node = true

instance (g : Groups) (group node : String) : Decidable (g.Has group node) :=
  inferInstanceAs (Decidable (_ = true))

/-- Adds nodes to the members of a group, or takes them away. -/
def changed (members : SortedSet String) (nodes : List String) (remove : Bool) : SortedSet String :=
  nodes.foldl (fun members node => if remove then members.erase node else SortedSet.add members node)
    members

/-- Adds the nodes to every one of the groups, or takes them away. -/
def set (g : Groups) (groups nodes : List String) (remove : Bool) : Groups :=
  let nodes := cleaned nodes |>.map Text.upper
  let updated := (cleaned groups).foldl
    (fun g group => g.insert group (changed (g.members group) nodes remove)) g
  updated.filter fun _ members => !members.isEmpty

/-- The members of any of the groups, or of all of them; no groups are no restriction. -/
def select (g : Groups) (groups : List String) (intersect : Bool) : Option (SortedSet String) :=
  match groups.map fun group => g.members (Text.trim group) with
  | [] => none
  | first :: rest =>
    some (rest.foldl (fun acc s => if intersect then SortedSet.inter acc s else SortedSet.union acc s)
      first)

/-- The groups that a node belongs to. -/
def ofNode (g : Groups) (node : String) : List String :=
  (g.filter fun _ members => members.contains node).keys

def toJson (g : Groups) : Json :=
  .object (g.toList.map fun (group, members) => (group, Json.strings (SortedSet.toList members)))

def ofSpelled? (spelled : Json.Spelled) : Option Groups :=
  (spelled.map? (Json.Spelled.list? Json.Spelled.text?)).map fun m =>
    m.mapValues fun _ nodes => SortedSet.ofList nodes

end Groups

/-- The groups in memory and the file that keeps them. -/
structure Registry where
  groups : Groups
  file : Stored
  deriving Inhabited

/-- How a write to a file ends. One that fails may leave anything behind. -/
inductive Write
  | done
  | failed (left : Stored)

namespace Registry

/-- Reads the groups; a file that is not there is made with none. -/
def open? (file : Stored) : Except Fault Registry :=
  match file with
  | .absent => .ok ⟨∅, .ofValue (.object [])⟩
  | .damaged => .error .storage
  | .malformed => .error .serialization
  | .document spelled =>
    match Groups.ofSpelled? spelled with
    | some groups => .ok ⟨groups, file⟩
    | none => .error .serialization

/-- Changes groups and writes the file; the groups in memory follow only a write that is done. -/
def set (r : Registry) (groups nodes : List String) (remove : Bool) (write : Write := .done) :
    Registry × Except Fault Unit :=
  let updated := r.groups.set groups nodes remove
  match write with
  | .done => (⟨updated, .ofValue updated.toJson⟩, .ok ())
  | .failed left => ({ r with file := left }, .error .storage)

end Registry

end Muster
