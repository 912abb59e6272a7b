import Muster.Sorted
import Muster.Text.Split
import Muster.Time

/-!
# Jobs

A job is a command line with the nodes it was sent to and what became of it. Its states and the steps
between them, and the label under which a worker runs it.
-/

namespace Muster

inductive JobState
  | created
  | dispatching
  | running
  | canceling
  | finished
  | failed
  | canceled
  | cancelFailed
  deriving DecidableEq, Repr

namespace JobState

def all : List JobState :=
  [created, dispatching, running, canceling, finished, failed, canceled, cancelFailed]

/-- A job that can be cancelled, and that a restart finds interrupted. -/
def isActive : JobState → Bool
  | dispatching | running | canceling => true
  | _ => false

/-- A job that nothing more will happen to. -/
def isTerminal : JobState → Bool
  | finished | failed | canceled | cancelFailed => true
  | _ => false

/-- The steps that a job can take. -/
def canBecome : JobState → JobState → Bool
  | created, dispatching
  | dispatching, running
  | running, finished
  | running, failed
  | dispatching, canceling
  | running, canceling
  | canceling, canceled
  | canceling, cancelFailed => true
  | _, _ => false

def text : JobState → String
  | created => "Created"
  | dispatching => "Dispatching"
  | running => "Running"
  | canceling => "Canceling"
  | finished => "Finished"
  | failed => "Failed"
  | canceled => "Canceled"
  | cancelFailed => "CancelFailed"

/-- The number that stands for a state in messages; 0 is left for no state. -/
def number : JobState → Nat
  | created => 1
  | dispatching => 2
  | running => 3
  | canceling => 4
  | finished => 5
  | failed => 6
  | canceled => 7
  | cancelFailed => 8

def ofText? (s : String) : Option JobState := all.find? fun state => state.text == s

@[simp] theorem ofText?_text (state : JobState) : ofText? state.text = some state := by
  cases state <;> decide

end JobState

/-- What a submitter asks for. -/
structure JobSpec where
  name : String := ""
  command : String := ""
  arguments : List String := []
  sweep : String := ""
  /-- The pattern that node names have to match. -/
  pattern : String := ""
  groups : List String := []
  /-- Nodes that are asked for one by one. -/
  nodes : List String := []
  deriving DecidableEq, Repr

namespace JobSpec

/-- The command line that a user typed: the words joined, or a script with the words as its
arguments. -/
def withCommandLine (spec : JobSpec) (words : List String) : Option String → JobSpec
  | some script => { spec with command := script, arguments := words }
  | none => { spec with command := " ".intercalate words, arguments := [] }

end JobSpec

structure Job where
  id : Int
  spec : JobSpec
  state : JobState
  createTime : Time
  endTime : Option Time
  /-- The nodes that the job was sent to. -/
  nodes : List String
  /-- Nodes that ended with another code than 0. -/
  failedNodes : SortedMap String Int
  /-- Nodes on which the job could not be cancelled. -/
  cancelFailedNodes : List String
  progress : String
  deriving DecidableEq

namespace Job

def new (id : Int) (spec : JobSpec) (nodes : List String) (now : Time) : Job :=
  ⟨id, spec, .created, now, none, nodes, ∅, [], ""⟩

/-- The label of a head node's job on a worker. -/
def label (headnode : String) (id : Int) : String := Text.dotted headnode ++ "." ++ toString id

end Job

end Muster
