import Muster.Files
import Muster.Job.Document
import Muster.Job.Selection

/-!
# The job store

The list of jobs in its file, and beside it a directory of output for each job. Every operation reads the
file, changes the list and writes it back, as far as the storage lets it. The list is bounded: a new job
drives out the oldest jobs that are not active.
-/

namespace Muster

open Json (Stored)

structure Store where
  file : Stored
  /-- What the output directory holds. -/
  output : Files
  deriving Inhabited

/-- The active jobs that a cancellation covers, with the nodes of each. -/
abbrev CancelPlan := SortedMap Int (List String)

namespace Store

/-- The greatest id, 0 if there is none. -/
def greatest : List Int → Int
  | [] => 0
  | id :: rest => rest.foldl max id

/-- The newest id, 0 if there is no job. -/
def newestId (jobs : List Job) : Int := greatest (jobs.map (·.id))

/-! ### Lists of jobs -/

/-- Jobs that were active when the process before ended are taken as being cancelled. -/
def interrupted (job : Job) : Job :=
  if job.state.isActive then { job with state := .canceling } else job

/-- Changes the first job with the given id. -/
def changeFirst (id : Int) (f : Job → Job) : List Job → List Job
  | [] => []
  | job :: rest => if job.id = id then f job :: rest else job :: changeFirst id f rest

def find? (id : Int) (jobs : List Job) : Option Job := jobs.find? fun job => job.id == id

/-- How many jobs have to go before one more fits. -/
def excess (jobs : List Job) (capacity : Nat) : Nat := jobs.length + 1 - capacity

/-- The ids of the oldest jobs that are not active, as many as have to go. -/
def evictable (jobs : List Job) (capacity : Nat) : List Int :=
  ((jobs.filter fun job => !job.state.isActive).take (excess jobs capacity)).map (·.id)

/-- The list with room for one more job, and the ids of those that went. -/
def evict (jobs : List Job) (capacity : Nat) : Except Fault (List Job × List Int) :=
  let evicted := evictable jobs capacity
  if evicted.length < excess jobs capacity then
    .error (.full capacity (jobs.filter fun job => job.state.isActive).length)
  else .ok (jobs.filter fun job => !evicted.contains job.id, evicted)

/-- The id of the next job, above all that are listed and all that just went; there is no last id here. -/
def nextId (jobs : List Job) (evicted : List Int) : Int :=
  max (newestId jobs) (greatest evicted) + 1

def updateState (id : Int) (before after : JobState) (jobs : List Job) : List Job × Bool :=
  match find? id jobs with
  | some job =>
    if job.state = before ∧ before.canBecome after then
      (changeFirst id (fun job => { job with state := after }) jobs, true)
    else (jobs, false)
  | none => (jobs, false)

/-- Notes the nodes that failed; a running job ends, and one that was cancelled keeps its state. -/
def finished (failed : SortedMap String Int) (now : Time) (job : Job) : Job :=
  let job := { job with
    failedNodes := failed.toList.foldl (fun m (node, code) => m.insertNew node code) job.failedNodes }
  if job.state = .running then
    { job with
      state := if failed.isEmpty then .finished else .failed
      endTime := some now }
  else job

def cancelEnded (failed : List String) (now : Time) (job : Job) : Job :=
  if job.state = .canceling then
    if failed.isEmpty then { job with state := .canceled, endTime := some now }
    else { job with state := .cancelFailed, endTime := some now, cancelFailedNodes := failed }
  else job

/-- Whether a selection covers a job, in a list whose newest id is `newest`. -/
def selects (ids : JobIds) (newest : Int) (job : Job) : Bool :=
  ids.selectsAll || (ids.normalize newest).contains job.id

def markCanceling (ids : JobIds) (jobs : List Job) : List Job × CancelPlan :=
  let covered (job : Job) : Bool := selects ids (newestId jobs) job && job.state.isActive
  (jobs.map fun job => if covered job then { job with state := .canceling } else job,
    SortedMap.ofList ((jobs.filter covered).map fun job => (job.id, job.nodes)))

/-! ### Operations -/

/-- What the storage refuses to do. -/
structure Refusals where
  /-- To make the output directory when the store is opened. -/
  opening : Bool := false
  /-- To take a new list in the place of the old one. -/
  writing : Bool := false
  /-- To tell what stands in the output directory. -/
  listing : Bool := false
  /-- To make a directory. -/
  making : Bool := false
  /-- To remove what stands at these paths. -/
  removing : List Path := []
  deriving DecidableEq, Repr

/-- The jobs in the file. -/
def jobs (store : Store) : Except Fault (List Job) := JobDocument.load store.file

/-- Reads the list, changes it and writes it back. The new list is written beside the old one and then takes
its place, so the old one stays where the storage refuses one or the other. -/
def withJobs {α : Type} (store : Store) (f : List Job → List Job × α) (refusals : Refusals := {}) :
    Store × Except Fault α :=
  match store.jobs with
  | .error fault => (store, .error fault)
  | .ok jobs =>
    let (jobs, result) := f jobs
    if refusals.writing then (store, .error .storage)
    else ({ store with file := JobDocument.save jobs }, .ok result)

/-- Changes the first job with an id, which has to be there, and tells its new state. -/
def withJob (store : Store) (id : Int) (f : Job → Job) (refusals : Refusals := {}) :
    Store × Except Fault JobState :=
  match store.withJobs (fun jobs => (changeFirst id f jobs, (find? id jobs).map f)) refusals with
  | (store, .error fault) => (store, .error fault)
  | (store, .ok none) => (store, .error (.unknownJob id))
  | (store, .ok (some job)) => (store, .ok job.state)

/-- The directory of a job's output. -/
def jobPath (id : Int) : Path := [toString id]

/-- Removes the output directories of jobs that are not listed; what is no such directory stays, and so does what
cannot be removed. -/
def removeOrphans (output : Files) (known : List Int) (stuck : List Path := []) : Files :=
  output.topNames.foldl (fun files name =>
    match Text.int32? name.toList with
    | some id =>
      if files.isDirectory [name] && !known.contains id then files.removeDirectory [name] stuck else files
    | none => files) output

/-- Opens the store of a directory. A list that is not there is made empty; in one that is, interrupted
jobs are marked and output directories of other jobs removed, as far as they can be. -/
def recover (store : Store) (refusals : Refusals := {}) : Store × Except Fault Unit :=
  if refusals.opening then (store, .error .storage)
  else if store.file.isAbsent then
    if refusals.writing then (store, .error .storage)
    else ({ store with file := JobDocument.save [] }, .ok ())
  else
    match store.withJobs (fun jobs => (jobs.map interrupted, jobs.map (·.id))) refusals with
    | (store, .error fault) => (store, .error fault)
    | (store, .ok known) =>
      if refusals.listing then (store, .error .storage)
      else ({ store with output := removeOrphans store.output known refusals.removing }, .ok ())

/-- The jobs that a selection covers, in the order of the list. -/
def getJobs (store : Store) (ids : JobIds) : Except Fault (List Job) :=
  store.jobs.map fun jobs => jobs.filter (selects ids (newestId jobs))

/-- Makes the directory of a job's output, unless it is there. -/
def makeOutput (refusals : Refusals) (output : Files) (id : Int) : Option Files :=
  if refusals.making && !output.isDirectory (jobPath id) then none else output.makeDirectory (jobPath id)

/-- Lists a new job, removes the output of those that go as far as it can be, and makes its output directory. -/
def createJob (store : Store) (spec : JobSpec) (nodes : List String) (capacity : Nat) (now : Time)
    (refusals : Refusals := {}) : Store × Except Fault Job :=
  let listed (jobs : List Job) : List Job × Except Fault (Job × List Int) :=
    match evict jobs capacity with
    | .error fault => (jobs, .error fault)
    | .ok (kept, evicted) =>
      let job := Job.new (nextId kept evicted) spec nodes now
      (kept ++ [job], .ok (job, evicted))
  match store.withJobs listed refusals with
  | (store, .error fault) | (store, .ok (.error fault)) => (store, .error fault)
  | (store, .ok (.ok (job, evicted))) =>
    let output := evicted.foldl (fun files id => files.removeDirectory (jobPath id) refusals.removing) store.output
    match makeOutput refusals output job.id with
    | some output => ({ store with output }, .ok job)
    | none => ({ store with output }, .error .storage)

def changeState (store : Store) (id : Int) (before after : JobState) (refusals : Refusals := {}) :
    Store × Except Fault Bool :=
  store.withJobs (updateState id before after) refusals

/-- Notes how a job ended on its nodes. -/
def finishJob (store : Store) (id : Int) (failed : SortedMap String Int) (now : Time)
    (refusals : Refusals := {}) : Store × Except Fault JobState :=
  store.withJob id (finished failed now) refusals

/-- Marks the active jobs of a selection and plans their cancellation. -/
def planCancel (store : Store) (ids : JobIds) (refusals : Refusals := {}) : Store × Except Fault CancelPlan :=
  store.withJobs (markCanceling ids) refusals

/-- Notes how a cancellation ended. -/
def finishCancel (store : Store) (id : Int) (failed : List String) (now : Time) (refusals : Refusals := {}) :
    Store × Except Fault JobState :=
  store.withJob id (cancelEnded failed now) refusals

/-- The directory of a job's output below `dir`, and in it the files for the two streams of a node. -/
def outputFiles (dir : String) (id : Int) (node : String) : String × String × String :=
  let path := dir ++ "/" ++ toString id
  let name := Text.dotted node
  (path, Files.join path (name ++ ".out"), Files.join path (name ++ ".err"))

end Store

end Muster
