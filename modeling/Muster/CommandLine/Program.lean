import Muster.Client
import Muster.CommandLine.Command
import Muster.CommandLine.Report
import Muster.NodeConfig

/-!
# The program

Each command as a conversation with a node, and what it prints. The one command that is none starts a
node.
-/

namespace Muster.CommandLine

namespace Program

/-- Calls the node that a user named, on the machine `localName`. -/
def connect (localName host : String) (next : Dialog Printed) : Dialog Printed :=
  match Address.parse host localName with
  | .error fault => .done (.failure (faultText fault))
  | .ok address => .connect address fun
    | .error fault => .done (.failure (faultText fault))
    | .ok () => next

/-- Asks and goes on with the answer; a refusal ends the conversation. -/
def ask (request : Request) (next : request.Answer → Dialog Printed) : Dialog Printed :=
  .ask request fun
    | .error status => .done (.failure (statusText status))
    | .ok answer => next answer

/-- Reads the ids of jobs, and goes on with the selection. -/
def withIds (ids : List String) (next : JobIds → Dialog Printed) : Dialog Printed :=
  match JobIds.read ids with
  | .error fault => .done (.failure (faultText fault))
  | .ok ids => next ids

/-- One setting, written `name=value`. -/
def readSetting (typed : String) : Except Fault (String × String) :=
  match Text.splitOnce? '=' typed.toList with
  | some (name, value) =>
    .ok (Text.trim (String.ofList name), Text.trim (String.ofList value))
  | none => .error (.argument (.setting typed))

def print (out : List String) : Dialog Printed := .done { out }

def listNodes (output : OutputFormat) (query : Liveness.Query) : Dialog Printed :=
  ask (.nodes query) fun (views : List Liveness.View) => print (match output with
    | .json => [(Report.nodeDocument views).pretty]
    | .table => Report.nodeTable views)

def listJobs (output : OutputFormat) (ids : List String) : Dialog Printed :=
  withIds ids fun ids => ask (.jobs ids) fun (jobs : List Job) => print (match output with
    | .json => [(Report.jobDocument jobs).pretty]
    | .table => Report.jobTable jobs)

def run (spec : JobSpec) (intersect : Bool) : Dialog Printed :=
  ask (.start spec intersect) fun (s : Dispatch.Stream) => .done (Report.stream s)

/-- The request that repeats a job on its nodes. -/
def again (job : Job) : JobSpec :=
  { name := job.spec.name
    command := job.spec.command
    arguments := job.spec.arguments
    sweep := job.spec.sweep
    nodes := job.nodes }

def rerunJob (id : String) : Dialog Printed :=
  withIds [id] fun ids => ask (.jobs ids) fun (jobs : List Job) =>
    match jobs with
    | [job] => run (again job) false
    | _ => .done (.failure (Text.quoted "Expected exactly one job to rerun"))

def cancelJobs (ids : List String) : Dialog Printed :=
  withIds ids fun ids => ask (.cancel ids) fun (states : SortedMap Int JobState) =>
    print (Report.cancelLines states)

def configure (role : Role) (settings : List String) : Dialog Printed :=
  match settings.mapM readSetting with
  | .error fault => .done (.failure (faultText fault))
  | .ok [] => ask (.getConfigs role) fun (texts : SortedMap String String) =>
    print (Report.textLines texts)
  | .ok configs => ask (.setConfigs role (SortedMap.ofList configs)) fun
    (texts : SortedMap String String) => print (Report.textLines texts)

/-- The script files by their paths: the text of each, or why it cannot be read. -/
abbrev Scripts := String → Except String String

/-- The conversation of a command. A node to be started is not one; `none` is left to the caller. -/
def dialog? (localName : String) (scripts : Scripts) : Command → Option (Dialog Printed)
  | .start _ => none
  | .listNodes client query => some (connect localName client.headnode (listNodes client.output query))
  | .run client options =>
    match options.script with
    | none => some (connect localName client.headnode
        (run (options.spec.withCommandLine options.words none) options.intersect))
    | some path =>
      match scripts path with
      | .error reason => some (.done (.failure
          (Text.quoted ("Failed to read script " ++ path ++ ": " ++ reason))))
      | .ok text => some (connect localName client.headnode
          (run (options.spec.withCommandLine options.words (some text)) options.intersect))
  | .listJobs client ids => some (connect localName client.headnode (listJobs client.output ids))
  | .cancelJobs client ids => some (connect localName client.headnode (cancelJobs ids))
  | .rerunJob client id => some (connect localName client.headnode (rerunJob id))
  | .setGroups client groups nodes remove =>
    some (connect localName client.headnode
      (ask (.setGroups groups nodes remove) fun _ => print ["Node groups updated."]))
  | .setHeadnodes clusnode mode headnodes =>
    some (connect localName clusnode
      (ask (.setHeadnodes mode headnodes) fun (texts : SortedMap String String) =>
        print (Report.textLines texts)))
  | .configure node role settings => some (connect localName node (configure role settings))

/-- The configuration of a node that is started from the program file `file`. -/
def nodeConfig (localName file : String) (options : StartOptions) : Except Fault NodeConfig := do
  let name := options.name.getD localName
  let config ← NodeConfig.new name options.port (options.dataDir.getD (file ++ ".db"))
  let host ← match options.host with
    | some host => Address.parse host name
    | none => pure config.host
  return { config with
    host
    configFile := file ++ ".config"
    lockFile := file
    headnodes := options.headnodes }

/-- What a command line is refused with. Only a request for help or the version is no failure. -/
def refusal : Usage → Printed
  | .help => {}
  | .version title => { out := [title ++ " 0.1.0"] }
  | .wrong => { exit := 2 }

/-- What a command line comes to: something to print, or a node to start. -/
inductive Outcome
  | printed (p : Printed)
  | start (options : StartOptions)
  deriving DecidableEq, Repr

/-- Reads a command line and holds its conversation. -/
def perform {σ : Type} (peers : Peers σ) (localName : String) (scripts : Scripts) (s : σ)
    (args : List String) : σ × Outcome :=
  match Command.read args with
  | .error usage => (s, .printed (refusal usage))
  | .ok (.start options) => (s, .start options)
  | .ok command =>
    match dialog? localName scripts command with
    | none => (s, .printed {})
    | some dialog =>
      let (s, p) := dialog.hold peers s
      (s, .printed p)

/-- The script file that a command line names, if it names one. -/
def script? (args : List String) : Option String :=
  match Command.read args with
  | .ok (.run _ options) => options.script
  | _ => none

end Program

end Muster.CommandLine
