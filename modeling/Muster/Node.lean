import Muster.Clusnode
import Muster.Headnode
import Muster.NodeConfig

/-!
# Nodes

A node has both roles: it is a head node, and it is a worker that reports to head nodes. Its settings
belong to both. What it keeps stands in a data directory, under names that begin with its address, so
that several nodes can share the directory.
-/

namespace Muster

/-- The files of a node in its data directory. -/
structure NodeData where
  jobs : Json.Stored := .absent
  groups : Json.Stored := .absent
  output : Files := ∅
  /-- Whether there is a directory for output. -/
  hasOutput : Bool := false
  deriving Inhabited

structure Node where
  config : NodeConfig
  settings : Settings
  headnode : Headnode
  clusnode : Clusnode

namespace Node

/-- The head nodes to report to: those that are configured, else the saved ones, else the node itself. -/
def reportTo (config : NodeConfig) (saved : List String) : List String :=
  if !config.headnodes.isEmpty then config.headnodes
  else if !saved.isEmpty then saved
  else [config.host.text]

/-- Opens what the node keeps. Gives the files as the attempt leaves them, and with the node the head
nodes to report to. -/
def init (config : NodeConfig) (file : Json.Stored) (data : NodeData) :
    NodeData × Except Fault (Node × List String) :=
  let (settings, saved) := ConfigFile.load file config.host.text {}
  let (store, headnode) :=
    Headnode.start config.host config.host.host ⟨data.jobs, data.output⟩ data.groups
  let data := { data with jobs := store.file, output := store.output, hasOutput := true }
  match headnode with
  | .error fault => (data, .error fault)
  | .ok headnode =>
    ({ data with groups := headnode.registry.file },
      .ok (⟨config, settings, headnode, .new config.nodeName config.host⟩, reportTo config saved))

/-- Begins to report, and saves settings and head nodes. -/
def report (node : Node) (file : Json.Stored) (headnodes : List String) : Node × Json.Stored :=
  let (reporter, _) := node.clusnode.reporter.set .add headnodes
  ({ node with clusnode := { node.clusnode with reporter } },
    ConfigFile.save file node.config.host.text node.settings (some reporter.headnodes))

/-- Starts a node; its settings and head nodes are saved. -/
def start (config : NodeConfig) (file : Json.Stored) (data : NodeData) :
    NodeData × Json.Stored × Except Fault Node :=
  match init config file data with
  | (data, .error fault) => (data, file, .error fault)
  | (data, .ok (node, headnodes)) =>
    let (node, file) := node.report file headnodes
    (data, file, .ok node)

/-- The files as they are while the node runs. -/
def data (node : Node) : NodeData :=
  let store := node.headnode.dispatch.store
  ⟨store.file, node.headnode.registry.file, store.output, true⟩

end Node

/-! ### Several nodes of one machine -/

/-- A machine with one configuration file: the files of nodes, by the path with which theirs begin, and the
nodes that run, by address. -/
structure Machine where
  file : Json.Stored := .absent
  /-- Whether there is a lock file. -/
  hasLock : Bool := false
  directories : List String := []
  stored : SortedMap Path NodeData := ∅
  nodes : SortedMap String Node := ∅

namespace Machine

/-- Where the files of a node stand: each has an ending of its own behind the last name of this path. -/
def place (config : NodeConfig) : Path := Files.resolve (Files.resolve [] config.dataDir) config.host.fileName

/-- The files of a node, whether it runs or not. -/
def dataAt (m : Machine) (place : Path) : NodeData :=
  match m.nodes.values.find? fun node => Machine.place node.config == place with
  | some node => node.data
  | none => (m.stored.get? place).getD {}

def start (m : Machine) (config : NodeConfig) : Machine × Except Fault Node :=
  let place := Machine.place config
  let (data, file, result) := Node.start config m.file (m.dataAt place)
  let m := { m with
    directories := config.dataDir :: m.directories
    stored := m.stored.insert place data }
  match result with
  | .error fault => (m, .error fault)
  | .ok node =>
    ({ m with file, hasLock := true, nodes := m.nodes.insert config.host.text node }, .ok node)

/-- Ends a node; its files stay. -/
def stop (m : Machine) (address : String) : Machine :=
  match m.nodes.get? address with
  | some node =>
    { m with
      stored := m.stored.insert (place node.config) node.data
      nodes := m.nodes.erase address }
  | none => m

/-- The paths of a node's files. -/
def dataPaths (place : Path) (data : NodeData) : List Path :=
  (if data.jobs.isAbsent then [] else [Files.extend place ".jobs"]) ++
    (if data.groups.isAbsent then [] else [Files.extend place ".groups"]) ++
    (if data.hasOutput then
      Files.extend place ".output" :: data.output.keys.map fun p => Files.extend place ".output" ++ p
    else [])

/-- Every path of the machine's files, with the directories that they stand in. -/
def tree (m : Machine) (configFile lockFile : String) : List String :=
  let files := m.stored.keys.flatMap fun place => dataPaths place (m.dataAt place)
  let paths := (if m.file.isAbsent then [] else [Files.resolve [] configFile]) ++
    (if m.hasLock then [Files.resolve [] lockFile] else []) ++
    m.directories.map (Files.resolve []) ++ files
  let all := paths.flatMap fun path => (List.range path.length).map fun n => path.take (n + 1)
  SortedSet.toList (SortedSet.ofList (all.map ("/".intercalate ·)))

end Machine

end Muster
