import Muster.Address

/-!
# Configuration of a node

What a node process is started with: its name, where it is called and where it listens, the places of
its files, and the head nodes it is told to report to.
-/

namespace Muster

structure NodeConfig where
  /-- The name that the node reports and answers with. -/
  nodeName : String
  /-- The address under which others call the node. -/
  host : Address
  listenPort : UInt16
  dataDir : String
  configFile : String
  lockFile : String
  /-- Head nodes to report to; if none are given, the saved ones, and else the node itself. -/
  headnodes : List String
  deriving DecidableEq, Repr

namespace NodeConfig

def new (name : String) (port : UInt16) (dataDir : String) : Except Fault NodeConfig :=
  let nodeName := Text.upper name
  match Address.parse (nodeName ++ ":" ++ toString port.toNat) nodeName with
  | .error fault => .error fault
  | .ok host =>
    .ok ⟨nodeName, host, port, dataDir, dataDir ++ "/clusrun.config", dataDir ++ "/clusrun.lock", []⟩

/-- Every interface of the machine, at the port of the node. -/
def listenText (c : NodeConfig) : String := "0.0.0.0:" ++ toString c.listenPort.toNat

end NodeConfig

end Muster
