import Muster.Files
import Muster.Frame
import Muster.Job.Basic
import Muster.Text.Utf8

/-!
# Execution of commands

How a worker runs the commands of jobs: it writes a command to a script file, runs it as a process,
relays what the process writes, and reports how it ended. All the executions of a worker, the readers of
their pipes, cancellations and the operating system go their own ways, and each event is one step of one
of them.

A process is looked up by the label of its job. Labels are noted once the process is there, and forgotten
before the exit is reported.
-/

namespace Muster

namespace Execution

/-- The code of a command that was not started or has none of its own. -/
def exitFailed : Int := -1

inductive Source
  | out
  | err
  deriving DecidableEq, Repr

/-- A process, and how it ended: with a code, or without one by a signal. -/
inductive Process
  | alive
  | dead (code : Option Int)
  deriving DecidableEq, Repr

/-- How far an execution is. From `settled` on its code is known. -/
inductive Phase
  | accepted
  | written
  | spawned
  | running
  | settled (code : Int)
  | unregistered (code : Int)
  | cleared (code : Int)
  | ended (code : Int)
  deriving DecidableEq, Repr

/-- The reader of a pipe. -/
structure Pipe where
  pending : Text.Utf8.Pending := {}
  closed : Bool := false
  deriving DecidableEq, Repr

/-- How a file is written. A write that fails may still have made the file. -/
inductive Writing
  | done
  | failed (reason : String) (leavesFile : Bool)
  deriving DecidableEq, Repr

end Execution

open Execution in
structure Execution where
  label : String
  command : String
  arguments : List String
  phase : Phase := .accepted
  process : Option Process := none
  out : Pipe := {}
  err : Pipe := {}
  /-- What was sent to the receiver. -/
  frames : List Frame := []
  /-- The receiver has gone; frames are no longer sent. -/
  isLeft : Bool := false
  deriving DecidableEq, Repr

namespace Execution

/-- The file of the command: its name is appended to the directory for scripts as a path, so slashes in it lead
elsewhere. -/
def script (home : Path) (label : String) : Path := Files.resolve home (label ++ ".sh")

def isAlive (e : Execution) : Bool := e.process == some .alive

def pipe (e : Execution) : Source → Pipe
  | .out => e.out
  | .err => e.err

def setPipe (e : Execution) (source : Source) (p : Pipe) : Execution :=
  match source with
  | .out => { e with out := p }
  | .err => { e with err := p }

def frame (source : Source) (text : List Char) : Frame :=
  match source with
  | .out => .out (String.ofList text)
  | .err => .err (String.ofList text)

def send (e : Execution) (frame : Frame) : Execution :=
  if e.isLeft then e else { e with frames := e.frames ++ [frame] }

/-- Sends a text that was read, unless it is empty. -/
def sendText (e : Execution) (source : Source) (text : List Char) : Execution :=
  if text.isEmpty then e else e.send (frame source text)

/-- Takes octets from a pipe; an unfinished character waits for the next ones. -/
def read (e : Execution) (source : Source) (octets : List UInt8) : Execution :=
  if e.phase ≠ .running ∨ (e.pipe source).closed then e
  else
    let (pending, text) := Text.Utf8.decode (e.pipe source).pending octets
    (e.setPipe source { pending }).sendText source text

/-- The end of a pipe; a character that is still unfinished is given up. -/
def close (e : Execution) (source : Source) : Execution :=
  if e.phase ≠ .running ∨ (e.pipe source).closed then e
  else
    (e.setPipe source { closed := true }).sendText source
      (Text.Utf8.flush (e.pipe source).pending)

/-- The execution fails before its process is there. -/
def fail (e : Execution) (reason : String) : Execution :=
  { e.send (.err reason) with phase := .settled exitFailed }

/-- Both pipes are at their ends and the process is dead: its code is the code of the execution. -/
def collect (e : Execution) (waitFails : Bool) : Execution :=
  match e.process with
  | some (.dead code) =>
    if e.phase = .running ∧ e.out.closed ∧ e.err.closed then
      { e with phase := .settled (if waitFails then exitFailed else code.getD exitFailed) }
    else e
  | _ => e

/-- A process ends; one that is dead stays as it is. -/
def die (e : Execution) (code : Option Int) : Execution :=
  if e.isAlive then { e with process := some (.dead code) } else e

end Execution

/-- The executions of a worker, by the order in which they were accepted. -/
structure Executor where
  /-- The directory for scripts, from the top of the file system. -/
  home : Path := ["command"]
  /-- The files of the machine. -/
  files : Files := ∅
  /-- The execution whose process is known under a label. -/
  running : SortedMap String Nat := ∅
  executions : List Execution := []
  deriving DecidableEq

namespace Executor

open Execution (Source Writing)

inductive Event
  | accept (label command : String) (arguments : List String)
  | writeScript (i : Nat) (writing : Writing)
  /-- The process is there, or could not be made. -/
  | spawn (i : Nat) (failure : Option String)
  | register (i : Nat)
  | read (i : Nat) (source : Source) (octets : List UInt8)
  | close (i : Nat) (source : Source)
  /-- The process ends by itself, or by a signal. -/
  | exit (i : Nat) (code : Option Int)
  | collect (i : Nat) (waitFails : Bool)
  | unregister (i : Nat)
  /-- The script goes, unless the system refuses that. -/
  | removeScript (i : Nat) (isRefused : Bool)
  | report (i : Nat)
  | leave (i : Nat)
  /-- The process known under a label is killed, unless the system refuses that. -/
  | cancel (label : String) (isRefused : Bool)
  deriving DecidableEq, Repr

def isRunning (x : Executor) (label : String) : Bool := x.running.contains label

def change (x : Executor) (i : Nat) (f : Execution → Execution) : Executor :=
  { x with executions := x.executions.modify i f }

/-- Makes the script file, if there is room for it. -/
def putScript (x : Executor) (label text : String) : Executor :=
  let made := (x.files.makeWay x.home (label ++ ".sh")).bind fun files =>
    files.write (Execution.script x.home label) text
  { x with files := made.getD x.files }

def writeScript (x : Executor) (i : Nat) (e : Execution) : Writing → Executor
  | .done => (x.putScript e.label e.command).change i fun e => { e with phase := .written }
  | .failed reason leavesFile =>
    (if leavesFile then x.putScript e.label "" else x).change i fun e =>
      e.fail ("Failed to write command file: " ++ reason ++ "\n")

/-- What an event does to the execution that it belongs to; one that cannot happen does nothing. -/
def stepOne (x : Executor) (i : Nat) (e : Execution) : Event → Executor
  | .writeScript _ writing => if e.phase = .accepted then x.writeScript i e writing else x
  | .spawn _ failure =>
    if e.phase = .written then
      x.change i fun e => match failure with
        | none => { e with phase := .spawned, process := some .alive }
        | some reason => e.fail ("Failed to start job: " ++ reason ++ "\n")
    else x
  | .register _ =>
    if e.phase = .spawned then
      { x with running := x.running.insert e.label i }.change i fun e =>
        { e with phase := .running }
    else x
  | .read _ source octets => x.change i fun e => e.read source octets
  | .close _ source => x.change i fun e => e.close source
  | .exit _ code => x.change i fun e => e.die code
  | .collect _ waitFails => x.change i fun e => e.collect waitFails
  | .unregister _ =>
    match e.phase with
    | .settled code =>
      { x with running := x.running.erase e.label }.change i fun e =>
        { e with phase := .unregistered code }
    | _ => x
  | .removeScript _ isRefused =>
    match e.phase with
    | .unregistered code =>
      let files := if isRefused then x.files else x.files.removeFile (Execution.script x.home e.label)
      { x with files }.change i fun e => { e with phase := .cleared code }
    | _ => x
  | .report _ =>
    match e.phase with
    | .cleared code => x.change i fun e => { e.send (.exit code) with phase := .ended code }
    | _ => x
  | .leave _ => x.change i fun e => { e with isLeft := true }
  | .accept .. | .cancel .. => x

/-- The execution that an event belongs to. -/
def Event.owner? : Event → Option Nat
  | .writeScript i _ | .spawn i _ | .register i | .read i .. | .close i _ | .exit i _ | .collect i _
  | .unregister i | .removeScript i _ | .report i | .leave i => some i
  | .accept .. | .cancel .. => none

def step (x : Executor) (event : Event) : Executor :=
  match event with
  | .accept label command arguments =>
    if x.isRunning label then x
    else { x with executions := x.executions ++ [{ label, command, arguments }] }
  | .cancel label isRefused =>
    match x.running.get? label with
    | some i => if isRefused then x else x.change i fun e => e.die none
    | none => x
  | event =>
    match event.owner? with
    | none => x
    | some i =>
      match x.executions[i]? with
      | some e => x.stepOne i e event
      | none => x

def run (x : Executor) (events : List Event) : Executor := events.foldl step x

theorem run_append (x : Executor) (s t : List Event) : x.run (s ++ t) = (x.run s).run t :=
  List.foldl_append

/-- The events from an accepted command to its process. -/
def startEvents (i : Nat) (writing : Writing) : List Event :=
  [.writeScript i writing, .spawn i none, .register i]

/-- The events after the last output: the pipes end, and what there is of the execution goes. -/
def endEvents (i : Nat) : List Event :=
  [.close i .out, .close i .err, .collect i false, .unregister i, .removeScript i false, .report i]

end Executor

end Muster
