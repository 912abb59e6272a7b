import Muster.Frame
import Muster.Store

/-!
# Relay of a node's output

What a worker sends for a job, cut into frames for the submitter and written to the files of the node.
Standard output has a file from the start; the one for errors stays only if something was written to it.
-/

namespace Muster.Dispatch

/-- The code of a node that could not be reached or whose stream broke off. -/
def exitUnreachable : Int := -1

/-- The files of a node's output, while they are written. -/
structure Sink where
  out : Path
  err : Path
  errWritten : Bool := false
  deriving DecidableEq, Repr

namespace Sink

/-- Makes one file, where its directory is there. A file outside of the output directory is not kept track of. -/
def create (files : Files) (base : Path) (name : String) : Files × Option Path :=
  match files.resolve? base name with
  | none => (files, none)
  | some path =>
    match files.write path "" with
    | some files => (files, some path)
    | none => (files, none)

/-- Makes both files of a node; without one of them nothing is written. -/
def start (files : Files) (id : Int) (node : String) : Files × Option Sink :=
  let name := Text.dotted node
  let (files, out) := create files (Store.jobPath id) (name ++ ".out")
  let (files, err) := create files (Store.jobPath id) (name ++ ".err")
  match out, err with
  | some out, some err => (files, some { out, err })
  | _, _ => (files, none)

def write (s : Sink) (files : Files) (r : Reply) : Files × Sink :=
  let files := if r.stdout = "" then files else files.append s.out r.stdout
  if r.stderr = "" then (files, s)
  else (files.append s.err r.stderr, { s with errWritten := true })

/-- At the end the file for errors goes, if it is still as it was made. -/
def finish (s : Sink) (files : Files) : Files :=
  if s.errWritten then files else files.removeFile s.err

end Sink

end Muster.Dispatch
