import Muster.Job.Basic
import Muster.Job.Sweep
import Muster.Liveness

/-!
# Nodes of a job

Which nodes a job goes to, and what each of them is asked to run. Nodes that are asked for one by one must
all be ready; otherwise every ready node counts that the pattern and the groups admit.
-/

namespace Muster.Dispatch

/-- A node's part of a job. -/
structure Order where
  node : String
  command : String
  arguments : List String
  deriving DecidableEq, Repr

/-- The names under which nodes can be asked for: the display name and the address of each. -/
def names (ready : List String) : List (String × String) :=
  ready.flatMap fun node => [(node, node), (Address.ofDisplayName node, node)]

/-- The node of a name; of two the later one. -/
def lookUp (ready : List String) (name : String) : Option String :=
  (names ready).reverse.lookup name

/-- A name as it is looked up. -/
def key (requested : String) : String := Text.upper (Text.trim requested)

/-- Nodes asked for one by one, each once and in the order in which they are first named. -/
def resolveNamed (ready requested : List String) : Except Fault (List String) :=
  let wanted := requested.filter fun r => key r ≠ ""
  match wanted.filter fun r => (lookUp ready (key r)).isNone with
  | [] => .ok (wanted.filterMap fun r => lookUp ready (key r)).eraseDups
  | unknown => .error (.unknownNodes unknown)

/-- The ready nodes that the pattern and the groups admit. -/
def resolveMatching (engine : Pattern.Engine) (ready : List String) (groups : Groups) (spec : JobSpec)
    (intersect : Bool) : Except Fault (List String) := do
  let pattern ← engine.compile spec.pattern
  let members := groups.select spec.groups intersect
  return ready.filter fun node => engine.isMatch pattern node && Liveness.inGroups members node

/-- The nodes of a request; it has to have at least one. -/
def resolve (engine : Pattern.Engine) (ready : List String) (groups : Groups) (spec : JobSpec)
    (intersect : Bool) : Except Fault (List String) := do
  let nodes ← if spec.nodes.isEmpty then resolveMatching engine ready groups spec intersect
    else resolveNamed ready spec.nodes
  if nodes.isEmpty then .error .noNodes else .ok nodes

/-- The sweep of a request for `count` nodes. -/
def sweepOf (spec : JobSpec) (count : Nat) : Option Sweep :=
  if spec.sweep = "" then none else some (Sweep.parse spec.sweep count)

/-- Checks a request and gives its nodes, before anything is stored. -/
def check (engine : Pattern.Engine) (ready : List String) (groups : Groups) (spec : JobSpec)
    (intersect : Bool) : Except Fault (List String) := do
  if Text.trim spec.command = "" then .error (.argument .emptyCommand)
  let nodes ← resolve engine ready groups spec intersect
  match sweepOf spec nodes.length with
  | some sweep =>
    if Text.occurs sweep.placeholder.toList spec.command.toList then .ok nodes
    else .error (.argument (.placeholder sweep.placeholder))
  | none => .ok nodes

/-- What the node with the given index runs. -/
def orderOf (spec : JobSpec) (sweep : Option Sweep) (node : String) (index : Nat) : Order :=
  let swept (text : String) : String := match sweep with
    | some s => s.apply text index
    | none => text
  ⟨node, swept spec.command, spec.arguments.map swept⟩

/-- What every node of a job runs. -/
def orders (job : Job) : List Order :=
  let sweep := sweepOf job.spec job.nodes.length
  job.nodes.zipIdx.map fun (node, index) => orderOf job.spec sweep node index

end Muster.Dispatch
