import Muster.Fault
import Muster.Job.Basic
import Muster.Json.Stored

/-!
# The document of jobs

The list of jobs as a document of version 1. A reader fills in the members that older documents lack.
-/

namespace Muster

open Json (Spelled Stored)

namespace Job

def toJson (job : Job) : Json :=
  .object [
    ("arguments", Json.strings job.spec.arguments),
    ("cancel_failed_nodes", Json.strings job.cancelFailedNodes),
    ("command", .string job.spec.command),
    ("create_time", .string job.createTime.text),
    ("end_time", match job.endTime with
      | some t => .string t.text
      | none => .null),
    ("failed_nodes", .object (job.failedNodes.toList.map fun (node, code) => (node, Json.whole code))),
    ("id", Json.whole job.id),
    ("name", .string job.spec.name),
    ("node_groups", Json.strings job.spec.groups),
    ("node_pattern", .string job.spec.pattern),
    ("nodes", Json.strings job.nodes),
    ("progress", .string job.progress),
    ("specified_nodes", Json.strings job.spec.nodes),
    ("state", .string job.state.text),
    ("sweep", .string job.spec.sweep)]

/-- The fields of a job, in the order in which an array gives them. -/
def fieldNames : List String :=
  ["id", "name", "command", "arguments", "sweep", "state", "create_time", "end_time", "node_pattern",
    "node_groups", "specified_nodes", "nodes", "failed_nodes", "cancel_failed_nodes", "progress"]

def readTime? (v : Spelled) : Option Time := v.text?.bind Time.parse?

/-- A state by its name, or as an object that holds nothing under that name. -/
def readState? : Spelled → Option JobState
  | .string name => name.bind JobState.ofText?
  | .object [(name, .null)] => name.bind JobState.ofText?
  | _ => none

/-- A time, or nothing. -/
def readEndTime? : Option Spelled → Option (Option Time)
  | none | some .null => some none
  | some v => (readTime? v).map some

def textOr (v : Option Spelled) : Option String :=
  match v with
  | none => some ""
  | some v => v.text?

def textsOr (v : Option Spelled) : Option (List String) :=
  match v with
  | none => some []
  | some v => v.list? Spelled.text?

def codesOr (v : Option Spelled) : Option (SortedMap String Int) :=
  match v with
  | none => some ∅
  | some v => v.map? Spelled.int32?

def ofSpelled? (v : Spelled) : Option Job := do
  match ← v.fields? fieldNames with
  | [id, name, command, arguments, sweep, state, createTime, endTime, pattern, groups, specified,
      nodes, failed, cancelFailed, progress] =>
    return {
      id := ← (← id).int32?
      spec := {
        name := ← textOr name
        command := ← (← command).text?
        arguments := ← textsOr arguments
        sweep := ← textOr sweep
        pattern := ← textOr pattern
        groups := ← textsOr groups
        nodes := ← textsOr specified }
      state := ← readState? (← state)
      createTime := ← readTime? (← createTime)
      endTime := ← readEndTime? endTime
      nodes := ← (← nodes).list? Spelled.text?
      failedNodes := ← codesOr failed
      cancelFailedNodes := ← textsOr cancelFailed
      progress := ← textOr progress }
  | _ => none

end Job

namespace JobDocument

/-- The version of documents that are written and read. -/
def version : Nat := 1

def toJson (jobs : List Job) : Json :=
  .object [("jobs", .array (jobs.map Job.toJson)), ("version", Json.whole version)]

def ofSpelled? (v : Spelled) : Option (Nat × List Job) := do
  match ← v.fields? ["version", "jobs"] with
  | [version, jobs] =>
    let version ← (← version).wholeWithin? 0 (Width.count32 - 1 : Nat)
    return (version.toNat, ← (← jobs).list? Job.ofSpelled?)
  | _ => none

/-- The file of a list of jobs. -/
def save (jobs : List Job) : Stored := .ofValue (toJson jobs)

/-- The jobs of a file. -/
def load : Stored → Except Fault (List Job)
  | .absent | .damaged => .error .storage
  | .malformed => .error .serialization
  | .document spelled =>
    match ofSpelled? spelled with
    | none => .error .serialization
    | some (found, jobs) => if found = version then .ok jobs else .error (.storeVersion found)

end JobDocument

end Muster
