import Muster.Address
import Muster.CommandLine.Options
import Muster.Job.Basic
import Muster.Liveness
import Muster.Reporter
import Muster.Settings

/-!
# Commands

What can be asked for on the command line: to start a node, or to have a node do something.
-/

namespace Muster.CommandLine

inductive OutputFormat
  | table
  | json
  deriving DecidableEq, Repr

/-- The head node that a command goes to, and how its answer is shown. -/
structure ClientOptions where
  headnode : String := "localhost"
  output : OutputFormat := .table
  deriving DecidableEq, Repr

/-- How a node is started. -/
structure StartOptions where
  name : Option String := none
  port : UInt16 := Address.defaultPort
  host : Option String := none
  headnodes : List String := []
  dataDir : Option String := none
  deriving DecidableEq, Repr

/-- A command to be run on nodes; the words are its text, or arguments of a script file. -/
structure RunOptions where
  spec : JobSpec := {}
  intersect : Bool := false
  words : List String := []
  script : Option String := none
  deriving DecidableEq, Repr

inductive Command
  | start (options : StartOptions)
  | listNodes (client : ClientOptions) (query : Liveness.Query)
  | run (client : ClientOptions) (options : RunOptions)
  | listJobs (client : ClientOptions) (ids : List String)
  | cancelJobs (client : ClientOptions) (ids : List String)
  | rerunJob (client : ClientOptions) (id : String)
  | setGroups (client : ClientOptions) (groups nodes : List String) (remove : Bool)
  | setHeadnodes (clusnode : String) (mode : Reporter.Mode) (headnodes : List String)
  | configure (node : String) (role : Role) (settings : List String)
  deriving DecidableEq, Repr

namespace Command

def patternSwitch : Switch := { name := "pattern", letter := some 'p' }
def groupsSwitch : Switch := { name := "groups", letter := some 'g', takes := .list }
def intersectSwitch : Switch := { name := "intersect", takes := .nothing }
def nodesSwitch : Switch := { name := "nodes", letter := some 'n', takes := .list }

def clientSwitches : List Switch :=
  [{ name := "headnode", letter := some 'H' }, { name := "output", letter := some 'o' }]

def readClient (p : Parsed) : Except Usage ClientOptions := do
  let output ← p.choice "output" [("table", .table), ("json", .json)] OutputFormat.table
  return ⟨(p.value? "headnode").getD "localhost", output⟩

/-- A path that has to name something. -/
def readPath (p : Parsed) (name : String) : Except Usage (Option String) :=
  match p.value? name with
  | some "" => .error .wrong
  | path => .ok path

def readPort (p : Parsed) : Except Usage UInt16 :=
  match p.value? "port" with
  | none => .ok Address.defaultPort
  | some text =>
    match Text.int64? text.toList with
    | some n => if 0 ≤ n ∧ n < 65536 then .ok (UInt16.ofNat n.toNat) else .error .wrong
    | none => .error .wrong

def startGrammar : Grammar where
  title := "clusrun-start"
  switches := [{ name := "name" }, { name := "port" }, { name := "host" },
    { name := "headnodes", takes := .list }, { name := "data-dir" }]

def readStart (args : List String) : Except Usage Command := do
  let p ← startGrammar.read args
  let port ← readPort p
  let dataDir ← readPath p "data-dir"
  return .start ⟨p.value? "name", port, p.value? "host", p.list "headnodes", dataDir⟩

def nodeGrammar : Grammar where
  title := "clusrun-node"
  switches := clientSwitches ++
    [patternSwitch, { name := "state", letter := some 's' }, groupsSwitch, intersectSwitch]

def readListNodes (args : List String) : Except Usage Command := do
  let p ← nodeGrammar.read args
  let client ← readClient p
  let state ← p.choice "state"
    [("ready", some .ready), ("error", some .error), ("lost", some NodeState.lost)] none
  return .listNodes client
    ⟨(p.value? "pattern").getD "", state, p.list "groups", p.flag "intersect"⟩

def runGrammar : Grammar where
  title := "clusrun-run"
  switches := clientSwitches ++ [patternSwitch, groupsSwitch, intersectSwitch, nodesSwitch,
    { name := "sweep" }, { name := "name" }, { name := "script" }]
  words := none
  wordsAreCommand := true

def readRun (args : List String) : Except Usage Command := do
  let p ← runGrammar.read args
  let client ← readClient p
  let script ← readPath p "script"
  if p.words.isEmpty && script.isNone then .error .wrong
  let spec : JobSpec :=
    { name := (p.value? "name").getD ""
      sweep := (p.value? "sweep").getD ""
      pattern := (p.value? "pattern").getD ""
      groups := p.list "groups"
      nodes := p.list "nodes" }
  return .run client ⟨spec, p.flag "intersect", p.words, script⟩

def jobGrammar : Grammar where
  title := "clusrun-job"
  switches := clientSwitches
  subcommands := ["list", "cancel", "rerun", "help"]

/-- A request for help about a subcommand, or about one of its own. -/
def readHelp (known : List String) (args : List String) : Except Usage Command :=
  .error (if args.head?.all known.contains then .help else .wrong)

def readJob (args : List String) : Except Usage Command := do
  let p ← jobGrammar.read args
  match p.subcommand with
  | none => .error .wrong
  | some ("help", args) => readHelp jobGrammar.subcommands args
  | some (name, args) =>
    let title := jobGrammar.title ++ "-" ++ name
    let words ← Grammar.read { title, words := if name = "rerun" then some 1 else none } args
    let client ← readClient p
    match name, words.words with
    | "list", ids => return .listJobs client ids
    | "cancel", id :: ids => return .cancelJobs client (id :: ids)
    | "rerun", [id] => return .rerunJob client id
    | _, _ => .error .wrong

def groupGrammar : Grammar where
  title := "clusrun-group"
  switches := clientSwitches
  subcommands := ["add", "remove", "help"]

def readGroup (args : List String) : Except Usage Command := do
  let p ← groupGrammar.read args
  match p.subcommand with
  | none => .error .wrong
  | some ("help", args) => readHelp groupGrammar.subcommands args
  | some (name, args) =>
    let title := groupGrammar.title ++ "-" ++ name
    let members ← Grammar.read { title, switches := [groupsSwitch, nodesSwitch] } args
    let groups ← members.required "groups"
    let nodes ← members.required "nodes"
    let client ← readClient p
    return .setGroups client groups nodes (name = "remove")

def headnodesGrammar : Grammar where
  title := "clusrun-headnodes"
  switches := [{ name := "clusnode", letter := some 'c' }]
  words := none

def modes : List (String × Reporter.Mode) :=
  [("add", .add), ("replace", .replace), ("remove", .remove)]

def readHeadnodes (args : List String) : Except Usage Command := do
  let p ← headnodesGrammar.read args
  match p.words with
  | mode :: headnode :: headnodes =>
    match modes.lookup mode with
    | some mode =>
      return .setHeadnodes ((p.value? "clusnode").getD "localhost") mode (headnode :: headnodes)
    | none => .error .wrong
  | _ => .error .wrong

def configGrammar : Grammar where
  title := "clusrun-config"
  switches := [{ name := "node", letter := some 'n' }, { name := "role", letter := some 'r' }]
  words := none

def readConfigure (args : List String) : Except Usage Command := do
  let p ← configGrammar.read args
  let role ← p.choice "role" [("headnode", .headnode), ("clusnode", .clusnode)] Role.headnode
  return .configure ((p.value? "node").getD "localhost") role p.words

def topGrammar : Grammar where
  title := "clusrun"
  subcommands := ["start", "node", "run", "job", "group", "headnodes", "config", "help"]

/-- The command that the arguments of the program give. -/
def read (args : List String) : Except Usage Command := do
  let p ← topGrammar.read args
  match p.subcommand with
  | some ("start", args) => readStart args
  | some ("node", args) => readListNodes args
  | some ("run", args) => readRun args
  | some ("job", args) => readJob args
  | some ("group", args) => readGroup args
  | some ("headnodes", args) => readHeadnodes args
  | some ("config", args) => readConfigure args
  | some (_, args) => readHelp topGrammar.subcommands args
  | none => .error .wrong

end Command

end Muster.CommandLine
