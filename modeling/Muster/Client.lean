import Muster.Address
import Muster.Dispatch.Run
import Muster.Headnode
import Muster.Reporter

/-!
# Conversations with nodes

What a client asks of a node, and a conversation as a tree: what comes next depends on the answer.
Whoever holds a conversation decides how calls are answered, so nothing here depends on a network.
-/

namespace Muster

/-- What can be asked of a node, as a head node or as a worker. -/
inductive Request
  | nodes (query : Liveness.Query)
  | jobs (ids : JobIds)
  | start (spec : JobSpec) (intersect : Bool)
  | cancel (ids : JobIds)
  | setGroups (groups nodes : List String) (remove : Bool)
  | setHeadnodes (mode : Reporter.Mode) (headnodes : List String)
  | getConfigs (role : Role)
  | setConfigs (role : Role) (configs : SortedMap String String)

namespace Request

/-- What a request is answered with. A job is answered with its stream. -/
def Answer : Request → Type
  | nodes _ => List Liveness.View
  | jobs _ => List Job
  | start .. => Dispatch.Stream
  | cancel _ => SortedMap Int JobState
  | setGroups .. => Unit
  | setHeadnodes .. | getConfigs _ | setConfigs .. => SortedMap String String

end Request

/-- A conversation that ends with an `α`. -/
inductive Dialog (α : Type)
  | done (result : α)
  /-- A node is called; the fault is why it is not reached. -/
  | connect (address : Address) (next : Except Fault Unit → Dialog α)
  | ask (request : Request) (next : Except Status request.Answer → Dialog α)

/-- Those who can be called, with a state of their own. -/
structure Peers (σ : Type) where
  connect : Address → Except Fault Unit
  answer : σ → (request : Request) → σ × Except Status request.Answer

namespace Dialog

/-- Holds a conversation. -/
def hold {σ α : Type} (peers : Peers σ) : σ → Dialog α → σ × α
  | s, done result => (s, result)
  | s, connect address next => hold peers s (next (peers.connect address))
  | s, ask request next =>
    let (s, answer) := peers.answer s request
    hold peers s (next answer)

end Dialog

namespace Address

/-! ### Addresses as parts of a locator

Names are typed by users, so an address may be nothing that can be called at all. -/

/-- The characters that may stand before the path. -/
def isHostCharacter (c : Char) : Bool :=
  c.isAlphanum || "!$&'()*+,-.:;=@[]_~".toList.contains c

def isPathCharacter (c : Char) : Bool :=
  c = '!' || ('$' ≤ c && c ≤ ';') || c = '=' || ('@' ≤ c && c ≤ '_') || ('a' ≤ c && c ≤ 'z') ||
    c = '|' || c = '~' || c = '"' || c = '\x7b' || c = '\x7d' || 127 ≤ c.toNat

def isQueryCharacter (c : Char) : Bool :=
  c = '!' || ('$' ≤ c && c ≤ ';') || c = '=' || '?' ≤ c

/-- Whether colons, brackets and at signs stand so before the path that a host can be told. Colons count
anew after a bracket is closed or a user is named. -/
def isHost (colons : Nat) (opened closed : Bool) : List Char → Bool
  | [] => colons ≤ 1 && opened == closed
  | ':' :: rest => colons < 8 && isHost (colons + 1) opened closed rest
  | '[' :: rest => !opened && isHost colons true closed rest
  | ']' :: rest => opened && !closed && isHost 0 opened true rest
  | '@' :: rest => !rest.isEmpty && isHost 0 opened closed rest
  | c :: rest => isHostCharacter c && isHost colons opened closed rest

/-- Whether what follows the host is a path, a query and a fragment. -/
def isPath (inQuery : Bool) : List Char → Bool
  | [] => true
  | '#' :: _ => true
  | '?' :: rest => isPath true rest
  | c :: rest => (if inQuery then isQueryCharacter c else isPathCharacter c) && isPath inQuery rest

/-- Whether the address can be called. -/
def isCallable (a : Address) : Bool :=
  let (host, path) := a.text.toList.span fun c => c ≠ '/' && c ≠ '?' && c ≠ '#'
  !host.isEmpty && isHost 0 false false host && isPath false path

/-- Calls an address, where `reaches` says who answers. -/
def call (reaches : Address → Bool) (a : Address) : Except Fault Unit :=
  if !a.isCallable then .error (.address a.text .uri)
  else if reaches a then .ok ()
  else .error .transport

end Address

end Muster
