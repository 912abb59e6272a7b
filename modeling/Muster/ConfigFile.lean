import Muster.Json.Stored
import Muster.Settings

/-!
# Configuration file

One document for all nodes of a machine: for each address the settings of both roles and the head nodes
to report to. A node reads and writes its own entry and keeps whatever else the document holds; a file
that holds no object is built anew.
-/

namespace Muster.ConfigFile

open Json (Members Stored)

def headnodesName : String := "headnodes to report"

/-- The members of the document, if the file holds an object. -/
def members? (file : Stored) : Option Members :=
  match file.value? with
  | some (.object members) => some members
  | _ => none

/-- The object that stands at `name`, if one does. -/
def objectAt? (name : String) (members : Members) : Option Members :=
  match Sorted.look name members with
  | some (.object inner) => some inner
  | _ => none

/-- The saved head nodes; entries that are no texts are passed over. -/
def savedHeadnodes (role : Members) : List String :=
  match Sorted.look headnodesName role with
  | some (.array items) => items.filterMap Json.asString?
  | _ => []

/-- Applies what is saved for `host` and gives its saved head nodes. -/
def load (file : Stored) (host : String) (settings : Settings) : Settings × List String :=
  match (members? file).bind (objectAt? host) with
  | none => (settings, [])
  | some node =>
    let (settings, headnodes) := match objectAt? Role.clusnode.name node with
      | some saved => (settings.load .clusnode saved, savedHeadnodes saved)
      | none => (settings, [])
    match objectAt? Role.headnode.name node with
    | some saved => (settings.load .headnode saved, headnodes)
    | none => (settings, headnodes)

/-- The entry of a node with its settings put in, and its head nodes if they are given. -/
def entry (node : Members) (settings : Settings) (headnodes : Option (List String)) : Members :=
  let clusnode := settings.save .clusnode ((objectAt? Role.clusnode.name node).getD [])
  let clusnode := match headnodes with
    | some headnodes => Sorted.put headnodesName (Json.strings headnodes) clusnode
    | none => clusnode
  let headnode := settings.save .headnode ((objectAt? Role.headnode.name node).getD [])
  Sorted.put Role.headnode.name (.object headnode)
    (Sorted.put Role.clusnode.name (.object clusnode) node)

/-- The file after a save of `host`. -/
def save (file : Stored) (host : String) (settings : Settings) (headnodes : Option (List String)) :
    Stored :=
  let document := (members? file).getD []
  let node := (objectAt? host document).getD []
  .ofValue (.object (Sorted.put host (.object (entry node settings headnodes)) document))

end Muster.ConfigFile
