import Muster.ConfigFile
import Muster.Dispatch.Run

/-!
# The head node role

What a head node does on request: it takes heartbeats, lists nodes and jobs, keeps groups and settings, and
runs and cancels jobs. A refused request is answered with a status.
-/

namespace Muster

/-- A head node: its own address, and what it knows. -/
structure Headnode where
  address : Address
  liveness : Liveness
  registry : Registry
  dispatch : Dispatch

namespace Headnode

/-- Opens the store and the groups of a head node; gives the store as the attempt leaves it. -/
def start (address : Address) (localName : String) (store : Store) (groups : Json.Stored)
    (refusals : Store.Refusals := {}) : Store × Except Fault Headnode :=
  match store.recover refusals with
  | (store, .error fault) => (store, .error fault)
  | (store, .ok _) => (store, do
    let registry ← Registry.open? groups
    return ⟨address, .ofLocal localName, registry, { store }⟩)

/-- An answer of a service: a fault goes out as a status. -/
def answer {α : Type} (r : Except Fault α) : Except Status α := r.mapError Fault.toStatus

/-- Takes a heartbeat and gives the display name of the node. -/
def heartbeat (h : Headnode) (settings : Settings) (nodename host : String) :
    Headnode × Except Fault String :=
  match h.liveness.heartbeat settings.heartbeatTimeout nodename host with
  | .ok (liveness, display) => ({ h with liveness }, .ok display)
  | .error fault => (h, .error fault)

def readyNodes (h : Headnode) (settings : Settings) : List String :=
  h.liveness.readyNodes settings.heartbeatTimeout

def nodes (h : Headnode) (engine : Pattern.Engine) (settings : Settings) (q : Liveness.Query) :
    Except Status (List Liveness.View) :=
  answer (h.liveness.list engine settings.heartbeatTimeout h.registry.groups q)

def jobs (h : Headnode) (ids : JobIds) : Except Status (List Job) :=
  answer (h.dispatch.store.getJobs ids)

/-- The nodes that a request would run on. -/
def resolve (h : Headnode) (engine : Pattern.Engine) (settings : Settings) (spec : JobSpec)
    (intersect : Bool) : Except Fault (List String) :=
  Dispatch.resolve engine (h.readyNodes settings) h.registry.groups spec intersect

/-- Checks a request and runs it to its end, if the storage lets it begin. -/
def startJob (h : Headnode) (engine : Pattern.Engine) (settings : Settings) (net : Dispatch.Network)
    (spec : JobSpec) (intersect : Bool) (now : Time) (refusals : Store.Refusals := {}) :
    Headnode × Except Status Job :=
  match Dispatch.check engine (h.readyNodes settings) h.registry.groups spec intersect with
  | .error fault => (h, .error fault.toStatus)
  | .ok nodes =>
    let (dispatch, job) := h.dispatch.runJob net spec nodes (max settings.maxJobCount 1).toNat
      settings.storeOutput now refusals
    ({ h with dispatch }, answer job)

/-- Cancels the active jobs of a selection and waits until that is settled. -/
def cancelJobs (h : Headnode) (net : Dispatch.Network) (ids : JobIds) (now : Time) :
    Headnode × Except Status (SortedMap Int JobState) :=
  let (dispatch, states) := h.dispatch.runCancel net ids now
  ({ h with dispatch }, answer states)

/-- Adds nodes to groups, or takes them away; both have to be given. -/
def setGroups (h : Headnode) (groups nodes : List String) (remove : Bool) :
    Headnode × Except Status Unit :=
  if groups.isEmpty || nodes.isEmpty then
    (h, .error ⟨.invalidArgument, "Groups and nodes should be specified"⟩)
  else
    let (registry, result) := h.registry.set groups nodes remove
    ({ h with registry }, answer result)

/-- Sets settings of the role and saves them; the saved head nodes stay as they are. -/
def setConfigs (host : String) (settings : Settings) (file : Json.Stored)
    (configs : SortedMap String String) : Settings × Json.Stored × SortedMap String String :=
  let (settings, results) := settings.set .headnode configs
  (settings, ConfigFile.save file host settings none, results)

def getConfigs (settings : Settings) : SortedMap String String := settings.get .headnode

end Headnode

end Muster
