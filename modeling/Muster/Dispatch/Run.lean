import Muster.Dispatch.Relay
import Muster.Dispatch.Resolve

/-!
# Running and cancelling jobs

A head node's jobs under way, as a machine. A job is accepted, its nodes are called, it runs once all calls
are answered, and it ends once all nodes have. Cancellations go their own way beside it. Each event is one
step of one of them, so any order of events is an interleaving of the jobs and cancellations.
-/

namespace Muster

namespace Dispatch

/-- How far a node is with its part of a job. -/
inductive TaskPhase
  | waiting
  | calling
  | streaming
  | ended (code : Int)
  deriving DecidableEq, Repr

structure Task where
  order : Order
  phase : TaskPhase := .waiting
  sink : Option Sink := none
  /-- The last exit code that the worker sent. -/
  code : Option Int := none
  deriving DecidableEq, Repr

namespace Task

def node (t : Task) : String := t.order.node

/-- The call of the node was answered, by a stream or by a refusal. -/
def isIssued (t : Task) : Bool :=
  match t.phase with
  | .waiting | .calling => false
  | _ => true

def exitCode? (t : Task) : Option Int :=
  match t.phase with
  | .ended code => some code
  | _ => none

end Task

inductive RunPhase
  | accepted
  | dispatching
  | running
  deriving DecidableEq, Repr

/-- A job under way. -/
structure Run where
  id : Int
  tasks : List Task
  /-- Whether output is kept in files. -/
  keepsOutput : Bool
  phase : RunPhase := .accepted
  deriving DecidableEq, Repr

/-- What the submitter of a job gets: the id and nodes first, and then frames until the stream is
closed. -/
structure Stream where
  id : Int
  nodes : List String
  frames : List (String × Frame) := []
  fault : Option Fault := none
  isClosed : Bool := false
  /-- The submitter has gone; frames are no longer sent. -/
  isLeft : Bool := false
  deriving DecidableEq, Repr

/-- A job of a cancellation: the nodes that have not answered, and those that refused. -/
structure CancelJob where
  id : Int
  waiting : List String
  failed : List String := []
  deriving DecidableEq, Repr

/-- A cancellation: the jobs that are not settled, and the states of those that are. -/
structure Cancel where
  jobs : List CancelJob
  results : SortedMap Int JobState := ∅
  fault : Option Fault := none
  deriving DecidableEq

namespace Cancel

/-- The answer of a cancellation, once all its jobs are settled or one could not be. -/
def outcome? (c : Cancel) : Option (Except Fault (SortedMap Int JobState)) :=
  match c.fault with
  | some fault => some (.error fault)
  | none => if c.jobs.isEmpty then some (.ok c.results) else none

end Cancel

inductive Event
  | submit (spec : JobSpec) (nodes : List String) (capacity : Nat) (keepsOutput : Bool)
  /-- The nodes of a job are called. -/
  | begin (id : Int)
  /-- A node answers its call with a stream, or refuses it. -/
  | answered (id : Int) (node : String) (accepted : Bool)
  | reply (id : Int) (node : String) (r : Reply)
  /-- The stream of a node ends, or breaks off. -/
  | ended (id : Int) (node : String)
  /-- All calls of a job are answered. -/
  | launch (id : Int)
  /-- All nodes of a job have ended. -/
  | finish (id : Int)
  | leave (id : Int)
  | cancel (ids : JobIds)
  /-- A node answers the call to cancel a job. -/
  | cancelAnswered (call : Nat) (id : Int) (node : String) (accepted : Bool)
  /-- All nodes have answered the calls to cancel a job. -/
  | cancelEnded (call : Nat) (id : Int)

end Dispatch

/-- The jobs of a head node: the store, and what is under way. -/
structure Dispatch where
  store : Store
  runs : List Dispatch.Run := []
  streams : List Dispatch.Stream := []
  cancels : List Dispatch.Cancel := []

namespace Dispatch

def run? (d : Dispatch) (id : Int) : Option Run := d.runs.find? fun r => r.id == id

def stream? (d : Dispatch) (id : Int) : Option Stream := d.streams.find? fun s => s.id == id

def setRun (d : Dispatch) (run : Run) : Dispatch :=
  { d with runs := d.runs.map fun r => if r.id = run.id then run else r }

def changeStream (d : Dispatch) (id : Int) (f : Stream → Stream) : Dispatch :=
  { d with streams := d.streams.map fun s => if s.id = id then f s else s }

/-- Adds frames of a node to the stream of its job, as long as somebody listens. -/
def send (d : Dispatch) (id : Int) (node : String) (frames : List Frame) : Dispatch :=
  d.changeStream id fun s =>
    if s.isLeft then s else { s with frames := s.frames ++ frames.map fun f => (node, f) }

/-- Ends a run and closes its stream, with a fault if there was one. -/
def close (d : Dispatch) (id : Int) (fault : Option Fault) : Dispatch :=
  let d := { d with runs := d.runs.filter fun r => r.id != id }
  d.changeStream id fun s => { s with isClosed := true, fault }

/-- Changes the part of one node in a run. -/
def changeTask (run : Run) (node : String) (f : Task → Task) : Run :=
  { run with tasks := run.tasks.map fun t => if t.node = node then f t else t }

def task? (run : Run) (node : String) : Option Task := run.tasks.find? fun t => t.node == node

/-- Opens the files of each node in turn. -/
def openSinks (id : Int) (keepsOutput : Bool) (files : Files) : List Task → Files × List Task
  | [] => (files, [])
  | t :: rest =>
    let (files, sink) := if keepsOutput then Sink.start files id t.node else (files, none)
    let (files, tasks) := openSinks id keepsOutput files rest
    (files, { t with phase := .calling, sink } :: tasks)

/-- Accepts a job: it is stored, and the first frame of its stream is there at once. -/
def submit (d : Dispatch) (spec : JobSpec) (nodes : List String) (capacity : Nat)
    (keepsOutput : Bool) (now : Time) (refusals : Store.Refusals := {}) : Dispatch × Except Fault Job :=
  match d.store.createJob spec nodes capacity now refusals with
  | (store, .error fault) => ({ d with store }, .error fault)
  | (store, .ok job) =>
    ({ d with
      store
      runs := d.runs ++ [{ id := job.id, tasks := (orders job).map fun o => { order := o },
                           keepsOutput }]
      streams := d.streams ++ [{ id := job.id, nodes := job.nodes }] }, .ok job)

/-- A node has ended: its files are closed and its code goes to the submitter. -/
def endTask (d : Dispatch) (run : Run) (t : Task) (code : Int) : Dispatch :=
  let output := match t.sink with
    | some sink => sink.finish d.store.output
    | none => d.store.output
  let d := { d with store := { d.store with output } }
  let d := d.setRun (changeTask run t.node fun t => { t with phase := .ended code, sink := none })
  d.send run.id t.node [.exit code]

/-- The nodes that ended with another code than 0. -/
def failedNodes (run : Run) : SortedMap String Int :=
  SortedMap.ofList (run.tasks.filterMap fun t =>
    (t.exitCode?.filter (· ≠ 0)).map fun code => (t.node, code))

def beginRun (d : Dispatch) (run : Run) : Dispatch :=
  match d.store.changeState run.id .created .dispatching with
  | (store, .error fault) => { d with store }.close run.id (some fault)
  | (store, .ok false) => { d with store }.close run.id none
  | (store, .ok true) =>
    let (output, tasks) := openSinks run.id run.keepsOutput store.output run.tasks
    { d with store := { store with output } }.setRun { run with tasks, phase := .dispatching }

def launchRun (d : Dispatch) (run : Run) : Dispatch :=
  match d.store.changeState run.id .dispatching .running with
  | (store, .error fault) => { d with store }.close run.id (some fault)
  | (store, .ok _) => { d with store }.setRun { run with phase := .running }

def finishRun (d : Dispatch) (run : Run) (now : Time) : Dispatch :=
  match d.store.finishJob run.id (failedNodes run) now with
  | (store, .error fault) => { d with store }.close run.id (some fault)
  | (store, .ok _) => { d with store }.close run.id none

/-- Takes a reply of a node to its files and to the submitter. -/
def relay (d : Dispatch) (run : Run) (t : Task) (r : Reply) : Dispatch :=
  let (output, sink) := match t.sink with
    | some sink =>
      let (files, sink) := sink.write d.store.output r
      (files, some sink)
    | none => (d.store.output, none)
  let d := { d with store := { d.store with output } }
  let d := d.setRun (changeTask run t.node fun t => { t with sink, code := r.code t.code })
  d.send run.id t.node r.frames

def startCancel (d : Dispatch) (ids : JobIds) : Dispatch :=
  match d.store.planCancel ids with
  | (store, .error fault) => { d with store, cancels := d.cancels ++ [{ jobs := [], fault := some fault }] }
  | (store, .ok plan) =>
    { d with
      store
      cancels := d.cancels ++ [{ jobs := plan.toList.map fun (id, nodes) => ⟨id, nodes, []⟩ }] }

def setCancel (d : Dispatch) (call : Nat) (c : Cancel) : Dispatch :=
  { d with cancels := d.cancels.set call c }

/-- Notes a node's answer; the nodes that refused are kept in order. -/
def CancelJob.answer (j : CancelJob) (node : String) (accepted : Bool) : CancelJob :=
  if node ∈ j.waiting then
    { j with
      waiting := j.waiting.erase node
      failed := if accepted then j.failed else (node :: j.failed).mergeSort }
  else j

/-- Settles a job of a cancellation. A fault ends the whole cancellation. -/
def settle (d : Dispatch) (call : Nat) (c : Cancel) (j : CancelJob) (now : Time) : Dispatch :=
  match d.store.finishCancel j.id j.failed now with
  | (store, .error fault) => { d with store }.setCancel call { c with jobs := [], fault := some fault }
  | (store, .ok state) =>
    { d with store }.setCancel call
      { c with jobs := c.jobs.filter fun k => k.id != j.id, results := c.results.insert j.id state }

/-- What an event does; one that cannot happen does nothing. -/
def step (now : Time) (d : Dispatch) : Event → Dispatch
  | .submit spec nodes capacity keepsOutput => (d.submit spec nodes capacity keepsOutput now).1
  | .begin id =>
    match d.run? id with
    | some run => if run.phase = .accepted then d.beginRun run else d
    | none => d
  | .answered id node accepted =>
    match d.run? id with
    | some run =>
      match task? run node with
      | some t =>
        if t.phase = .calling then
          if accepted then d.setRun (changeTask run node fun t => { t with phase := .streaming })
          else d.endTask run t exitUnreachable
        else d
      | none => d
    | none => d
  | .reply id node r =>
    match d.run? id with
    | some run =>
      match task? run node with
      | some t => if t.phase = .streaming then d.relay run t r else d
      | none => d
    | none => d
  | .ended id node =>
    match d.run? id with
    | some run =>
      match task? run node with
      | some t =>
        if t.phase = .streaming then d.endTask run t (t.code.getD exitUnreachable) else d
      | none => d
    | none => d
  | .launch id =>
    match d.run? id with
    | some run =>
      if run.phase = .dispatching ∧ run.tasks.all Task.isIssued then d.launchRun run else d
    | none => d
  | .finish id =>
    match d.run? id with
    | some run =>
      if run.phase = .running ∧ run.tasks.all (·.exitCode?.isSome) then d.finishRun run now else d
    | none => d
  | .leave id => d.changeStream id fun s => { s with isLeft := true }
  | .cancel ids => d.startCancel ids
  | .cancelAnswered call id node accepted =>
    match d.cancels[call]? with
    | some c =>
      d.setCancel call
        { c with jobs := c.jobs.map fun j => if j.id = id then j.answer node accepted else j }
    | none => d
  | .cancelEnded call id =>
    match d.cancels[call]? with
    | some c =>
      match c.jobs.find? fun j => j.id == id with
      | some j => if j.waiting.isEmpty then d.settle call c j now else d
      | none => d
    | none => d

def run (now : Time) (d : Dispatch) (events : List Event) : Dispatch := events.foldl (step now) d

theorem run_append (now : Time) (d : Dispatch) (s t : List Event) :
    d.run now (s ++ t) = (d.run now s).run now t := List.foldl_append

/-! ### Answers of the nodes -/

/-- How a node answers a call to run a job. -/
inductive Answer
  | refused
  | stream (replies : List Reply)
  deriving DecidableEq, Repr

/-- The nodes as far as they can be called: the answers to calls to run and to cancel. -/
structure Network where
  start : Order → Answer
  cancel : Int → String → Bool

/-- A network in which no call gets through. -/
def isolated : Network := ⟨fun _ => .refused, fun _ _ => false⟩

/-- What happens to a node's part of a job. -/
def Answer.events (id : Int) (node : String) : Answer → List Event
  | refused => [.answered id node false]
  | stream replies =>
    .answered id node true :: (replies.map fun r => .reply id node r) ++ [.ended id node]

/-- A job from its calls to its end, with one node after the other. -/
def jobEvents (net : Network) (job : Job) : List Event :=
  .begin job.id ::
    ((orders job).flatMap fun o => (net.start o).events job.id o.node) ++
    [.launch job.id, .finish job.id]

/-- All answers to a cancellation. -/
def cancelEvents (net : Network) (call : Nat) (jobs : List CancelJob) : List Event :=
  jobs.flatMap fun j =>
    (j.waiting.map fun node => .cancelAnswered call j.id node (net.cancel j.id node)) ++
      [.cancelEnded call j.id]

/-- Submits a job and follows it to its end. -/
def runJob (d : Dispatch) (net : Network) (spec : JobSpec) (nodes : List String) (capacity : Nat)
    (keepsOutput : Bool) (now : Time) (refusals : Store.Refusals := {}) : Dispatch × Except Fault Job :=
  match d.submit spec nodes capacity keepsOutput now refusals with
  | (d, .error fault) => (d, .error fault)
  | (d, .ok job) => (d.run now (jobEvents net job), .ok job)

/-- Starts a cancellation and follows it to its end. -/
def runCancel (d : Dispatch) (net : Network) (ids : JobIds) (now : Time) :
    Dispatch × Except Fault (SortedMap Int JobState) :=
  let call := d.cancels.length
  let d := d.startCancel ids
  let jobs := (d.cancels[call]?.map (·.jobs)).getD []
  let d := d.run now (cancelEvents net call jobs)
  (d, ((d.cancels[call]?.bind Cancel.outcome?).getD (.ok ∅)))

end Dispatch

end Muster
