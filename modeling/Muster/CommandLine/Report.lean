import Muster.Dispatch.Run
import Muster.Json.Writer
import Muster.Liveness

/-!
# What is printed

The answers of nodes as lines for a user: tables, documents, and the output of a job as it comes.
-/

namespace Muster.CommandLine

/-- What a command prints, line by line, and the code with which it ends. -/
structure Printed where
  out : List String := []
  err : List String := []
  exit : Nat := 0
  deriving DecidableEq, Repr

namespace Printed

/-- More lines before what is printed. -/
def after (p : Printed) (out err : List String) : Printed :=
  { p with out := out ++ p.out, err := err ++ p.err }

/-- A command that fails says why. -/
def failure (reason : String) : Printed := { err := ["Error: " ++ reason], exit := 1 }

end Printed

/-- The text filled up with blanks. -/
def padded (width : Nat) (s : String) : String := s.pushn ' ' (width - s.length)

def rule : String := "".pushn '-' 60

/-! ### Faults -/

def Code.text : Code → String
  | .invalidArgument => "InvalidArgument"
  | .failedPrecondition => "FailedPrecondition"
  | .notFound => "NotFound"
  | .resourceExhausted => "ResourceExhausted"
  | .unavailable => "Unavailable"
  | .internal => "Internal"
  | .alreadyExists => "AlreadyExists"
  | .unimplemented => "Unimplemented"

open Text (quoted)

def statusText (s : Status) : String :=
  "Status \x7b code: " ++ Code.text s.code ++ ", message: " ++ quoted s.message

def faultText : Fault → String
  | .argument fault => "InvalidArgument(" ++ quoted fault.message ++ ")"
  | .address typed fault => "InvalidHost(" ++ quoted typed ++ ", " ++ quoted fault.message ++ ")"
  | .unknownNodes names => "InvalidNodes([" ++ ", ".intercalate (names.map quoted) ++ "])"
  | .noNodes => "NoValidNodes"
  | .unknownJob id => "JobNotFound(" ++ toString id ++ ")"
  | .full capacity active =>
    "CapacityExceeded \x7b capacity: " ++ toString capacity ++ ", active: " ++ toString active ++ " \x7d"
  | .storage => "Storage"
  | .serialization => "Serialization"
  | .config reason => "Config(" ++ quoted reason ++ ")"
  | .transport => "Transport"
  | .refused s => "Rpc(" ++ statusText s ++ ")"
  | .internal reason => "Internal(" ++ quoted reason ++ ")"

/-! ### Nodes and jobs -/

namespace Report

def nodeLine (name state groups : String) : String :=
  padded 40 name ++ " " ++ padded 8 state ++ " " ++ groups

def nodeTable (views : List Liveness.View) : List String :=
  if views.isEmpty then ["No nodes found."]
  else
    [nodeLine "NODE" "STATE" "GROUPS", rule] ++
      views.map (fun v => nodeLine v.name v.state.text (",".intercalate v.groups)) ++
      ["", toString views.length ++ " nodes"]

def nodeDocument (views : List Liveness.View) : Json :=
  .array (views.map fun v =>
    .object [("name", .string v.name), ("state", .string v.state.text), ("groups", Json.strings v.groups)])

/-- A command is cut where it is long. -/
def shortened (command : String) : String :=
  if 30 < command.utf8ByteSize then String.ofList (command.toList.take 27) ++ "..." else command

def jobLine (id state nodes command : String) : String :=
  padded 6 id ++ " " ++ padded 13 state ++ " " ++ padded 6 nodes ++ " " ++ command

def jobLines (job : Job) : List String :=
  [jobLine (toString job.id) job.state.text (toString job.nodes.length) (shortened job.spec.command)] ++
    job.failedNodes.toList.map (fun (node, code) =>
      "       failed: " ++ node ++ " (" ++ toString code ++ ")") ++
    if job.cancelFailedNodes.isEmpty then []
    else ["       cancel failed: " ++ ", ".intercalate job.cancelFailedNodes]

def jobTable (jobs : List Job) : List String :=
  if jobs.isEmpty then ["No jobs found."]
  else [jobLine "ID" "STATE" "NODES" "COMMAND", rule] ++ jobs.flatMap jobLines

def jobDocument (jobs : List Job) : Json :=
  .array (jobs.map fun job =>
    .object [("id", Json.whole job.id), ("name", .string job.spec.name),
      ("state", .string job.state.text), ("command", .string job.spec.command),
      ("arguments", Json.strings job.spec.arguments), ("sweep", .string job.spec.sweep),
      ("nodes", Json.strings job.nodes),
      ("failed_nodes", .object (job.failedNodes.toList.map fun (node, code) => (node, Json.whole code))),
      ("cancel_failed_nodes", Json.strings job.cancelFailedNodes),
      ("create_time", Json.whole job.createTime.seconds),
      ("end_time", Json.whole ((job.endTime.map Time.seconds).getD 0))])

def cancelLines (states : SortedMap Int JobState) : List String :=
  if states.isEmpty then ["No job is cancelled."]
  else states.toList.map fun (id, state) => "Job " ++ toString id ++ ": " ++ state.text

def textLines (texts : SortedMap String String) : List String :=
  texts.toList.map fun (name, text) => name ++ ": " ++ text

/-! ### The stream of a job -/

/-- What was printed of a stream so far, and the codes of the nodes that ended. -/
structure Progress where
  out : List String := []
  err : List String := []
  codes : SortedMap String Int := ∅

/-- The lines of a node's text, each with the name of the node before it. -/
def nodeLines (node text : String) : List String :=
  (Text.lines text).map fun line => "[" ++ node ++ "]: " ++ line

/-- Prints one frame. -/
def Progress.take (p : Progress) (node : String) : Frame → Progress
  | .out text => { p with out := p.out ++ nodeLines node text }
  | .err text => { p with err := p.err ++ nodeLines node text }
  | .exit code => { p with codes := p.codes.insert node code }

def startLine (s : Dispatch.Stream) : String :=
  "Job " ++ toString s.id ++ " started on " ++ toString s.nodes.length ++ " node(s): " ++
    ", ".intercalate s.nodes

def follow (frames : List (String × Frame)) : Progress :=
  frames.foldl (fun p (node, frame) => p.take node frame) {}

/-- The nodes that ended with another code than 0. -/
def failures (codes : SortedMap String Int) : SortedMap String Int := codes.filter fun _ code => code != 0

def summary (codes : SortedMap String Int) : List String :=
  let failed := failures codes
  ["", toString (codes.size - failed.size) ++ " node(s) succeeded, " ++ toString failed.size ++
    " node(s) failed"] ++
    failed.toList.map fun (node, code) => "  " ++ node ++ " exited with " ++ toString code

/-- What is printed of a job, from its first frame to the end of its stream. The code is 0 only if no
node failed and the stream was closed in order. -/
def stream (s : Dispatch.Stream) : Printed :=
  let p := follow s.frames
  let ending : Printed := match s.fault with
    | some fault => .failure (statusText fault.toStatus)
    | none => { out := summary p.codes, exit := if (failures p.codes).isEmpty then 0 else 1 }
  ending.after (startLine s :: p.out) p.err

end Report

end Muster.CommandLine
