import Muster.Shell.Fields
import Muster.Shell.Tools
import Muster.Sorted

/-!
# The shell at work

What a shell knows while it runs a script: variables, options, files, and what was done so far. The file
system begins with some directories that every machine has and without any file.
-/

namespace Muster.Shell

/-- Where output goes. -/
inductive Sink
  | out
  | err
  | nowhere
  | pipe (id : Nat)
  | file (name : String)
  deriving DecidableEq, Repr

/-- One thing that was done. -/
inductive Entry
  | write (sink : Sink) (octets : List UInt8)
  | pause (time : String)

/-- A command in the background, with what it is still to do. -/
structure Job where
  pid : Nat
  trace : List Entry
  status : Nat

/-- How a command ends: the next one follows, or what the commands around it are to do. -/
inductive Flow
  | next
  | exit
  | killed
  /-- The rest of the line is given up. -/
  | abandon
  | return
  | break (levels : Nat)
  | continue (levels : Nat)
  deriving DecidableEq, Repr

structure World where
  vars : SortedMap String String := ∅
  args : List String := []
  functions : SortedMap String Command := ∅
  /-- The status of the last command. -/
  status : Nat := 0
  exitsOnFailure : Bool := false
  /-- A pipeline fails with any of its commands. -/
  pipesFail : Bool := false
  /-- A parameter has to be set. -/
  needsSet : Bool := false
  /-- What an expansion that went wrong puts an end to. -/
  failure : Option Flow := none
  input : List UInt8 := []
  out : Sink := .out
  err : Sink := .err
  /-- The descriptors behind the first three. -/
  others : SortedMap Nat Sink := ∅
  /-- What was done, the latest first. -/
  trace : List Entry := []
  jobs : List Job := []
  traps : SortedMap String String := ∅
  files : SortedMap String (List UInt8) := ∅
  directories : SortedSet String := SortedSet.ofList ["", "/", ".", "..", "/tmp", "/bin", "/dev", "/etc",
    "/home", "/opt", "/proc", "/root", "/usr", "/usr/bin", "/var", "/var/tmp"]
  /-- The variables that other processes get. -/
  exported : SortedSet String := ∅
  /-- Processes and pipes are numbered. -/
  count : Nat := 0
  /-- How many functions and files are being run. -/
  depth : Nat := 0
  /-- The signal that killed the shell. -/
  signal : Option Nat := none

abbrev Run := StateM World

namespace Run

open Text.Utf8 (encode)

def note (e : Entry) : Run Unit := modify fun w => { w with trace := e :: w.trace }

def emit (sink : Sink) (octets : List UInt8) : Run Unit :=
  if octets.isEmpty then return
  else match sink with
    | .nowhere => return
    | .file name => modify fun w =>
      { w with files := w.files.insert name ((w.files.get? name).getD [] ++ octets) }
    | sink => note (.write sink octets)

def setStatus (status : Nat) : Run Unit := modify fun w => { w with status }

/-- A message of the shell itself, and a status. -/
def complain (message : String) (status : Nat) : Run Unit := do
  emit (← get).err (encode ("/job.sh: line 1: " ++ message ++ "\n"))
  setStatus status

def produce (p : Produced) : Run Unit := do
  let w ← get
  emit w.out p.out
  emit w.err (encode p.err)
  setStatus p.status

def fresh : Run Nat := do
  modify fun w => { w with count := w.count + 1 }
  return (← get).count

def setVar (name value : String) : Run Unit :=
  modify fun w => { w with vars := w.vars.insert name value }

/-- The number of the process that runs the script; those in the background have greater ones. -/
def shellPid : Nat := 1000

/-- The value of a parameter that is one text. -/
def parameter (w : World) (name : String) : String :=
  match name with
  | "?" => toString w.status
  | "#" => toString w.args.length
  | "$" => toString shellPid
  | "!" => (w.jobs.getLast?.map fun j => toString j.pid).getD ((w.vars.get? "!").getD "")
  | "-" => if w.exitsOnFailure then "ehB" else "hB"
  | "0" => "/job.sh"
  | "@" | "*" => " ".intercalate w.args
  | name =>
    match Text.natural? name.toList with
    | some n => (w.args[n - 1]?).getD ""
    | none => (w.vars.get? name).getD ""

/-- Whether a parameter has a value, be it an empty one. -/
def isSet (w : World) (name : String) : Bool :=
  if ["?", "#", "$", "!", "-", "0", "@", "*"].contains name then true
  else match Text.natural? name.toList with
    | some n => n ≤ w.args.length
    | none => w.vars.contains name

/-- Notes that an expansion went wrong. -/
def fail (flow : Flow) (message : String) : Run Unit := do
  complain message 1
  modify fun w => { w with failure := some flow }

/-- What a failed expansion puts an end to, if there was one; it is forgotten. -/
def takeFailure : Run (Option Flow) := do
  let w ← get
  set { w with failure := none }
  return w.failure

/-- The arguments as pieces of a word. -/
def arguments (w : World) (isQuoted : Bool) : List Piece :=
  (w.args.map fun a => if isQuoted then Piece.hard a else .soft a).intersperse .cut

/-- Lets every command in the background do what it is still to do. -/
def flushJobs : Run Unit :=
  modify fun w => { w with trace := w.jobs.foldl (fun t j => j.trace ++ t) w.trace, jobs := [] }

/-- The text of a file, or of the standard input. -/
def fileText (name : String) : Run (Option (List UInt8)) := do
  if name = "-" || name = "/dev/stdin" then
    let w ← get
    set { w with input := [] }
    return some w.input
  else if name = "/dev/null" then return some []
  else return (← get).files.get? name

/-- The octets that a tool reads: those of its files, one after the other, or of the standard input. -/
def readAll (tool : String) (names : List String) : Run (List UInt8 × Bool) := do
  let mut octets := []
  let mut isFine := true
  for name in if names.isEmpty then ["-"] else names do
    match ← fileText name with
    | some more => octets := octets ++ more
    | none =>
      isFine := false
      emit (← get).err (encode (tool ++ ": " ++ name ++ ": No such file or directory\n"))
  return (octets, isFine)

end Run

end Muster.Shell
