import Muster.ConfigFile
import Muster.Execution
import Muster.Reporter

/-!
# The worker role

What a node does for the head nodes it reports to: it gives its name, runs and cancels their commands,
and has its settings and its list of head nodes changed. A change is made at once and saved later; what
is saved of the list is a picture taken in between.
-/

namespace Muster

structure Clusnode where
  nodeName : String
  reporter : Reporter
  executor : Executor := {}
  deriving DecidableEq

namespace Clusnode

def new (nodeName : String) (host : Address) : Clusnode :=
  { nodeName := Text.upper nodeName, reporter := .new nodeName host }

/-- The name that the node answers with. -/
def validate (c : Clusnode) : String := c.nodeName

/-- Accepts a command of a head node's job; a job that is still known is refused. -/
def startJob (c : Clusnode) (headnode : String) (id : Int) (command : String)
    (arguments : List String) : Except Status Clusnode :=
  if headnode = "" then .error ⟨.invalidArgument, "Headnode should be specified"⟩
  else
    let label := Job.label headnode id
    if c.executor.isRunning label then
      .error ⟨.alreadyExists, "Job " ++ label ++ " is already running"⟩
    else .ok { c with executor := c.executor.step (.accept label command arguments) }

/-- Kills the command of a job; a job that is not known counts as cancelled. `refusal` is the reason
for which the system does not let it be killed. -/
def cancelJob (c : Clusnode) (headnode : String) (id : Int) (refusal : Option String := none) :
    Clusnode × Except Status Unit :=
  let label := Job.label headnode id
  match refusal with
  | some reason =>
    if c.executor.isRunning label then
      (c, .error ⟨.internal, "Failed to cancel job " ++ label ++ ": " ++ reason⟩)
    else (c, .ok ())
  | none => ({ c with executor := c.executor.step (.cancel label false) }, .ok ())

/-- The settings of the role, and the head nodes by the state of their links. -/
def getConfigs (c : Clusnode) (settings : Settings) : SortedMap String String :=
  let list (name : String) (headnodes : List String) (m : SortedMap String String) :=
    m.insert (ConfigFile.headnodesName ++ " (" ++ name ++ ")") (", ".intercalate headnodes)
  list "connecting" c.reporter.connecting
    (list "connected" c.reporter.connected (settings.get .clusnode))

/-! ### Changes and their saving -/

/-- Where a request to change something stands. -/
inductive Save
  | due
  /-- The head nodes are taken down; they are not in the file yet. -/
  | taken (headnodes : List String)
  | done
  deriving DecidableEq, Repr

/-- A node's list of head nodes and settings, the file of the machine, and the requests to change them
that there have been. -/
structure Desk where
  /-- The name of the node's entry in the file. -/
  host : String
  reporter : Reporter
  settings : Settings := {}
  file : Json.Stored := .absent
  saves : List Save := []

namespace Desk

inductive Event
  | setHeadnodes (mode : Reporter.Mode) (headnodes : List String)
  | setConfigs (configs : SortedMap String String)
  /-- A request takes down the head nodes. -/
  | take (request : Nat)
  /-- A request writes the file. -/
  | write (request : Nat)

def setHeadnodes (d : Desk) (mode : Reporter.Mode) (headnodes : List String) :
    Desk × SortedMap String String :=
  let (reporter, changes) := d.reporter.set mode headnodes
  ({ d with reporter, saves := d.saves ++ [.due] }, changes.mapValues fun _ c => c.message)

def setConfigs (d : Desk) (configs : SortedMap String String) : Desk × SortedMap String String :=
  let (settings, results) := d.settings.set .clusnode configs
  ({ d with settings, saves := d.saves ++ [.due] }, results)

/-- What an event does; one that cannot happen does nothing. -/
def step (d : Desk) : Event → Desk
  | .setHeadnodes mode headnodes => (d.setHeadnodes mode headnodes).1
  | .setConfigs configs => (d.setConfigs configs).1
  | .take request =>
    match d.saves[request]? with
    | some .due => { d with saves := d.saves.set request (.taken d.reporter.headnodes) }
    | _ => d
  | .write request =>
    match d.saves[request]? with
    | some (.taken headnodes) =>
      { d with
        file := ConfigFile.save d.file d.host d.settings (some headnodes)
        saves := d.saves.set request .done }
    | _ => d

def run (d : Desk) (events : List Event) : Desk := events.foldl step d

theorem run_append (d : Desk) (s t : List Event) : d.run (s ++ t) = (d.run s).run t :=
  List.foldl_append

/-- The newest request takes down the head nodes and writes the file. -/
def finish (d : Desk) : Desk := d.run [.take (d.saves.length - 1), .write (d.saves.length - 1)]

end Desk

/-- The desk of a node at which no request is open. -/
def desk (c : Clusnode) (settings : Settings) (file : Json.Stored) : Desk :=
  { host := c.reporter.host.text, reporter := c.reporter, settings, file }

/-- Changes the head nodes and saves them, with an answer for each entry. -/
def setHeadnodes (c : Clusnode) (settings : Settings) (file : Json.Stored) (mode : Reporter.Mode)
    (headnodes : List String) : Clusnode × Json.Stored × SortedMap String String :=
  let (desk, results) := (c.desk settings file).setHeadnodes mode headnodes
  let desk := desk.finish
  ({ c with reporter := desk.reporter }, desk.file, results)

/-- Sets settings of the role and saves them, with an answer for each name. -/
def setConfigs (c : Clusnode) (settings : Settings) (file : Json.Stored)
    (configs : SortedMap String String) : Settings × Json.Stored × SortedMap String String :=
  let (desk, results) := (c.desk settings file).setConfigs configs
  let desk := desk.finish
  (desk.settings, desk.file, results)

end Clusnode

end Muster
