import Muster.Address
import Muster.Sorted

/-!
# Reporting to head nodes

A node sends heartbeats to any number of head nodes, to each of them from a task of its own. A task tries
at once, and again after every interval. Its link counts as connected as long as the last attempt was
accepted. A task whose head node is taken away winds down on its own; what it still does is not seen, as
a head node that is added again gets a new task.
-/

namespace Muster

namespace Reporter

/-- How a list of head nodes is applied. -/
inductive Mode
  | add
  | replace
  | remove
  deriving DecidableEq, Repr

/-- The mode of a number; any other number adds. -/
def Mode.ofNumber (n : Int) : Mode := if n = 1 then replace else if n = 2 then remove else add

/-- What a task does at the moment. -/
inductive Phase
  | trying
  | resting
  | ended
  deriving DecidableEq, Repr

/-- How an attempt to send a heartbeat ends. -/
inductive Beat
  | unreachable
  | refused
  | accepted
  deriving DecidableEq, Repr

structure Task where
  headnode : String
  phase : Phase := .trying
  /-- There is a channel to the head node. -/
  hasChannel : Bool := false
  connected : Bool := false
  cancelled : Bool := false
  deriving DecidableEq, Repr

/-- The end of an attempt. A task without a channel connects first, and a head node that cannot be reached leaves it
as it is; a channel is kept as long as heartbeats are accepted. -/
def Task.endAttempt (t : Task) : Beat → Task
  | .unreachable => if t.hasChannel then t else { t with phase := .resting }
  | .refused => { t with phase := .resting, hasChannel := false, connected := false }
  | .accepted => { t with phase := .resting, hasChannel := true, connected := true }

/-- What became of an entry of a list. -/
inductive Change
  | added
  | connecting
  | alreadyConnected
  | removed
  | alreadyRemoved
  | invalid (fault : Fault)
  deriving DecidableEq, Repr

def Change.message : Change → String
  | added => "Added"
  | connecting => "Connecting"
  | alreadyConnected => "Already connected"
  | removed => "Removed"
  | alreadyRemoved => "Already removed"
  | invalid fault => "Invalid headnode: " ++ fault.message

end Reporter

/-- The head nodes of a node: for each the number of its task among all tasks there have been. -/
structure Reporter where
  nodeName : String
  host : Address
  links : SortedMap String Nat := ∅
  tasks : List Reporter.Task := []
  stopped : Bool := false
  deriving DecidableEq

namespace Reporter

def new (nodeName : String) (host : Address) : Reporter := { nodeName := Text.upper nodeName, host }

/-- Every head node that is reported to, connected or not. -/
def headnodes (r : Reporter) : List String := r.links.keys

def isConnected (r : Reporter) (task : Nat) : Bool := r.tasks[task]?.any (·.connected)

def connected (r : Reporter) : List String := (r.links.filter fun _ task => r.isConnected task).keys

def connecting (r : Reporter) : List String := (r.links.filter fun _ task => !r.isConnected task).keys

/-- Adds a head node, unless it is there already. -/
def addOne (r : Reporter) (headnode : String) : Reporter × String × Change :=
  match Address.parse headnode r.host.host with
  | .error fault => (r, headnode, .invalid fault)
  | .ok address =>
    let key := address.text
    match r.links.get? key with
    | some task => (r, key, if r.isConnected task then .alreadyConnected else .connecting)
    | none =>
      ({ r with
        links := r.links.insert key r.tasks.length
        tasks := r.tasks ++ [{ headnode := key, cancelled := r.stopped }] }, key, .added)

/-- Takes a head node away and stops its task. -/
def removeOne (r : Reporter) (headnode : String) : Reporter × String × Change :=
  match Address.parse headnode r.host.host with
  | .error fault => (r, headnode, .invalid fault)
  | .ok address =>
    let key := address.text
    match r.links.get? key with
    | some task =>
      ({ r with
        links := r.links.erase key
        tasks := r.tasks.modify task fun t => { t with cancelled := true } }, key, .removed)
    | none => (r, key, .alreadyRemoved)

/-- Applies the entries of a list one after the other; each has an answer under its address. -/
def applyAll (one : Reporter → String → Reporter × String × Change) (r : Reporter)
    (changes : SortedMap String Change) : List String → Reporter × SortedMap String Change
  | [] => (r, changes)
  | entry :: rest =>
    let (r, key, change) := one r entry
    applyAll one r (changes.insert key change) rest

/-- Adds the entries, takes them away, or makes them all there are. -/
def set (r : Reporter) (mode : Mode) (entries : List String) :
    Reporter × SortedMap String Change :=
  match mode with
  | .add => applyAll addOne r ∅ entries
  | .remove => applyAll removeOne r ∅ entries
  | .replace =>
    let (r, changes) := applyAll addOne r ∅ entries
    applyAll removeOne r changes (r.headnodes.filter fun headnode => !changes.contains headnode)

/-- Stops every task; the links stay listed. -/
def shutdown (r : Reporter) : Reporter :=
  { r with stopped := true, tasks := r.tasks.map fun t => { t with cancelled := true } }

inductive Event
  | set (mode : Mode) (entries : List String)
  /-- A task begins another attempt. -/
  | attempt (task : Nat)
  /-- The attempt of a task ends. -/
  | attempted (task : Nat) (beat : Beat)
  /-- A cancelled task that rests ends. -/
  | stop (task : Nat)
  | shutdown
  deriving DecidableEq, Repr

def changeTask (r : Reporter) (task : Nat) (f : Task → Task) : Reporter :=
  { r with tasks := r.tasks.modify task f }

/-- What an event does; one that cannot happen does nothing. -/
def step (r : Reporter) : Event → Reporter
  | .set mode entries => (r.set mode entries).1
  | .attempt task =>
    r.changeTask task fun t => if t.phase = .resting then { t with phase := .trying } else t
  | .attempted task beat =>
    r.changeTask task fun t => if t.phase = .trying then t.endAttempt beat else t
  | .stop task =>
    r.changeTask task fun t =>
      if t.phase = .resting ∧ t.cancelled then { t with phase := .ended } else t
  | .shutdown => r.shutdown

def run (r : Reporter) (events : List Event) : Reporter := events.foldl step r

theorem run_append (r : Reporter) (s t : List Event) : r.run (s ++ t) = (r.run s).run t :=
  List.foldl_append

end Reporter

end Muster
