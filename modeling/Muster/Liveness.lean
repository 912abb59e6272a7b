import Muster.Address
import Muster.Groups
import Muster.Pattern.Engine

/-!
# Liveness of nodes

Nodes report by heartbeats. A node is ready only after whatever answers at the address it reports from
has given the name that it claims; until then, and when the answer is another name, it is in error, and
without heartbeats for longer than the timeout it is lost. For each node one attempt at a time is made to
ask for its name; failures are followed by longer and longer waits.

Heartbeats, answers and the passing of time are events; `Liveness.step` says what each of them does.
-/

namespace Muster

inductive NodeState
  | ready
  | error
  | lost
  deriving DecidableEq, Repr

namespace NodeState

def text : NodeState → String
  | ready => "Ready"
  | error => "Error"
  | lost => "Lost"

/-- The number that stands for a state in messages. -/
def number : NodeState → Nat
  | ready => 1
  | error => 2
  | lost => 3

/-- The state of a number; any other number is no restriction. -/
def ofNumber? (n : Int) : Option NodeState :=
  if n = 1 then some ready else if n = 2 then some error else if n = 3 then some lost else none

end NodeState

/-- What a host gives for its name. -/
inductive ProbeReply
  | named (name : String)
  | unreachable
  deriving DecidableEq, Repr

/-- An attempt to ask a host for its name: waiting until it is due, or asked already. -/
structure Attempt where
  display : String
  /-- The name that the node claims. -/
  name : String
  /-- The address that is asked. -/
  host : String
  failures : Int
  /-- The time from which on the host may be asked. -/
  due : Nat
  asked : Bool := false
  deriving DecidableEq, Repr

/-- What is known of the nodes, by display name. Times are in milliseconds. -/
structure Liveness where
  localName : String
  now : Nat := 0
  /-- The last heartbeat of each node. -/
  reported : SortedMap String Nat := ∅
  /-- -1 for a node whose name was confirmed, 0 for one with an attempt under way, 10 for one that gave
  another name, and else the number of failures in a row. -/
  counters : SortedMap String Int := ∅
  pending : List Attempt := []
  stopped : Bool := false
  deriving DecidableEq

namespace Liveness

def validated : Int := -1
def validating : Int := 0
def pinned : Int := 10

def ofLocal (localName : String) : Liveness := { localName := Text.upper localName }

/-- The wait before another attempt after some failures, in milliseconds. -/
def backoff (failures : Int) : Nat := min (Nat.pow 2 failures.toNat) 60 * 1000

/-- Whether more than `timeout` seconds lie between a heartbeat and now. -/
def isGap (l : Liveness) (timeout : Int) (last : Nat) : Bool := timeout * 1000 < (l.now - last : Nat)

/-- The failures after which an attempt should be started: none for a node without a counter. -/
def attemptDue? : Option Int → Option Int
  | none => some 0
  | some n => if 0 < n ∧ n < pinned then some n else none

/-- Starts an attempt. After a shutdown none is made. -/
def begin (l : Liveness) (display name host : String) (failures : Int) : Liveness :=
  let due := if 0 < failures then l.now + backoff failures else l.now
  { l with
    counters := l.counters.insert display validating
    pending := if l.stopped then l.pending
      else l.pending ++ [{ display, name, host, failures, due }] }

/-- Notes a heartbeat of the node `display`, which claims `name`. After a gap the counter starts anew,
unless an attempt is under way. -/
def note (l : Liveness) (timeout : Int) (display name host : String) : Liveness :=
  let gap := match l.reported.get? display with
    | some last => l.isGap timeout last
    | none => false
  let l := { l with reported := l.reported.insert display l.now }
  let l :=
    if gap && l.counters.get? display != some validating then
      { l with counters := l.counters.erase display }
    else l
  match attemptDue? (l.counters.get? display) with
  | some failures => l.begin display name host failures
  | none => l

/-- The name that a node claims, in capitals. -/
def claimedName (nodename : String) : Except Fault String :=
  if nodename.contains '(' || nodename.contains ')' then .error (.argument (.nodeName nodename))
  else if Text.trim nodename = "" then .error (.argument .emptyNodeName)
  else .ok (Text.upper (Text.trim nodename))

/-- A heartbeat of `nodename` from `host`; gives the display name of the node. -/
def heartbeat (l : Liveness) (timeout : Int) (nodename host : String) :
    Except Fault (Liveness × String) := do
  let name ← claimedName nodename
  let address ← Address.parse host l.localName
  let display := address.displayName name
  return (l.note timeout display name address.text, display)

/-- The counter after an attempt. -/
def outcome (name : String) (failures : Int) : ProbeReply → Int
  | .named replied => if Text.upper replied = name then validated else pinned
  | .unreachable => min (failures + 1) (pinned - 1)

/-- Ends an attempt; its outcome counts only if the counter still says that one is under way. -/
def conclude (l : Liveness) (a : Attempt) (reply : ProbeReply) : Liveness :=
  { l with
    pending := l.pending.erase a
    counters := if l.counters.get? a.display = some validating then
        l.counters.insert a.display (outcome a.name a.failures reply)
      else l.counters }

inductive Event
  | heartbeat (nodename host : String)
  | wait (ms : Nat)
  /-- A due attempt asks its host. -/
  | ask (a : Attempt)
  /-- An attempt that has asked gets its answer. -/
  | answer (a : Attempt) (reply : ProbeReply)
  | shutdown
  deriving DecidableEq, Repr

/-- What an event does; one that cannot happen does nothing. -/
def step (timeout : Int) (l : Liveness) : Event → Liveness
  | .heartbeat nodename host =>
    match l.heartbeat timeout nodename host with
    | .ok (l, _) => l
    | .error _ => l
  | .wait ms => { l with now := l.now + ms }
  | .ask a =>
    if a ∈ l.pending ∧ !a.asked ∧ a.due ≤ l.now then
      { l with pending := l.pending.map fun b => if b = a then { b with asked := true } else b }
    else l
  | .answer a reply => if a ∈ l.pending ∧ a.asked then l.conclude a reply else l
  | .shutdown => { l with stopped := true, pending := [] }

def run (timeout : Int) (l : Liveness) (events : List Event) : Liveness :=
  events.foldl (step timeout) l

theorem run_append (timeout : Int) (l : Liveness) (s t : List Event) :
    l.run timeout (s ++ t) = (l.run timeout s).run timeout t := List.foldl_append

/-- The attempts that can ask their hosts now. -/
def dueAttempts (l : Liveness) : List Attempt := l.pending.filter fun a => !a.asked && a.due ≤ l.now

def askedAttempts (l : Liveness) : List Attempt := l.pending.filter (·.asked)

/-- Lets every due attempt ask, and gives the hosts that were asked. -/
def askAll (l : Liveness) (timeout : Int) : Liveness × List String :=
  (l.run timeout (l.dueAttempts.map .ask), l.dueAttempts.map (·.host))

/-- Gives every attempt the answer that its host has for it, if there is one. -/
def answerAll (l : Liveness) (timeout : Int) (reply? : String → Option ProbeReply) : Liveness :=
  l.run timeout (l.askedAttempts.filterMap fun a => (reply? a.host).map fun r => .answer a r)

/-- Lets everything happen that can happen now, and gives the hosts that were asked. -/
def settle (l : Liveness) (timeout : Int) (reply? : String → Option ProbeReply) :
    Liveness × List String :=
  let (l, asked) := l.askAll timeout
  (l.answerAll timeout reply?, asked)

def stateSince (l : Liveness) (timeout : Int) (display : String) (last : Nat) : NodeState :=
  if l.isGap timeout last then .lost
  else if l.counters.get? display = some validated then .ready
  else .error

def stateOf (l : Liveness) (timeout : Int) (display : String) : Option NodeState :=
  (l.reported.get? display).map (l.stateSince timeout display)

/-- The nodes that jobs can be sent to, in order. -/
def readyNodes (l : Liveness) (timeout : Int) : List String :=
  (l.reported.filter fun display last => l.stateSince timeout display last == .ready).keys

/-- A node as it is listed. -/
structure View where
  name : String
  state : NodeState
  groups : List String
  deriving DecidableEq, Repr

/-- Which nodes are asked for. -/
structure Query where
  pattern : String := ""
  state : Option NodeState := none
  groups : List String := []
  intersect : Bool := false
  deriving DecidableEq, Repr

/-- Whether a node is in the selected groups, if any are. -/
def inGroups (members : Option (SortedSet String)) (name : String) : Bool :=
  match members with
  | none => true
  | some members => members.contains name

/-- The known nodes that a query asks for, in order. -/
def list (l : Liveness) (engine : Pattern.Engine) (timeout : Int) (groups : Groups) (q : Query) :
    Except Fault (List View) := do
  let pattern ← engine.compile q.pattern
  let members := groups.select q.groups q.intersect
  let named := l.reported.toList.filter fun (name, _) => engine.isMatch pattern name && inGroups members name
  let views := named.map fun (name, last) =>
    (⟨name, l.stateSince timeout name last, groups.ofNode name⟩ : View)
  return views.filter fun v => q.state.all (· == v.state)

end Liveness

end Muster
