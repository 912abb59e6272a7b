import Muster.Execution
import Muster.Shell.Run

/-!
# A worker's commands at work

The executions of a worker with the processes behind them, played by the shell of the library. What a
process is still to do is kept as a list, so that it can be cancelled at any point.
-/

namespace Muster

/-- The executions, and what the process of each is still to do. -/
structure Workbench where
  executor : Executor := {}
  todo : SortedMap Nat (List Shell.Action) := ∅

namespace Workbench

open Execution (Writing)

/-- The event that an action of a process is for its execution. -/
def event? (i : Nat) : Shell.Action → Option Executor.Event
  | .out octets => some (.read i .out octets)
  | .err octets => some (.read i .err octets)
  | .pause _ => none
  | .exit code => some (.exit i (code.map Int.ofNat))

/-- Begins the execution that was accepted last. -/
def begin (b : Workbench) (writing : Writing) : Workbench :=
  let i := b.executor.executions.length - 1
  let actions := match b.executor.executions[i]? with
    | some e => Shell.run e.command e.arguments
    | none => []
  { executor := b.executor.run (Executor.startEvents i writing), todo := b.todo.insert i actions }

def execution? (b : Workbench) (i : Nat) : Option Execution := b.executor.executions[i]?

/-- The standard output that was sent so far. -/
def outText (b : Workbench) (i : Nat) : String :=
  match b.execution? i with
  | some e => e.frames.foldl (fun s f => match f with
    | .out text => s ++ text
    | _ => s) ""
  | none => ""

/-- Lets the process do the first of some actions; what is left is kept. -/
def playOne (b : Workbench) (i : Nat) (a : Shell.Action) (rest : List Shell.Action) : Workbench :=
  { executor := match event? i a with
      | some event => b.executor.step event
      | none => b.executor
    todo := b.todo.insert i rest }

/-- Plays actions until the standard output has a given part. -/
def playUntil (b : Workbench) (i : Nat) (part : List Char) : List Shell.Action → Workbench
  | [] => b
  | a :: rest =>
    if Text.occurs part (b.outText i).toList then b
    else (b.playOne i a rest).playUntil i part rest

/-- Lets the process of an execution go on until a part of the output has come. -/
def workUntil (b : Workbench) (i : Nat) (part : String) : Workbench :=
  b.playUntil i part.toList ((b.todo.get? i).getD [])

/-- Lets an execution go on to its end. -/
def finish (b : Workbench) (i : Nat) : Workbench :=
  let events := ((b.todo.get? i).getD []).filterMap (event? i)
  { executor := (b.executor.run events).run (Executor.endEvents i), todo := b.todo.insert i [] }

/-- Kills the command under a label; it does nothing more, and its execution ends. -/
def cancel (b : Workbench) (label : String) : Workbench :=
  match b.executor.running.get? label with
  | some i =>
    let killed : Workbench :=
      { executor := b.executor.step (.cancel label false), todo := b.todo.insert i [] }
    killed.finish i
  | none => b

end Workbench

end Muster
