import Muster.Fault
import Muster.Text.Blank
import Muster.Text.Split
import Muster.Text.Upper

/-!
# Addresses and display names

An address is written `name[:port]`; its name is kept in capitals, and `localhost` stands for the
machine itself. A node is shown under its bare name where that is also its address on the usual port,
and as `NAME(HOST:PORT)` otherwise, so that the address to call can be read off.
-/

namespace Muster

structure Address where
  host : String
  port : UInt16
  deriving DecidableEq, Repr

namespace Address

def defaultPort : UInt16 := 50505

/-- The port, where a text gives one. -/
def readPort (address : String) : List (List Char) → Except Fault UInt16
  | [] => .ok defaultPort
  | text :: _ =>
    match Text.unsigned 65535 (Text.trimmed text) with
    | .ok n => .ok (UInt16.ofNat n)
    | .error fault => .error (.address address (.port fault))

/-- Reads `name[:port]` on the machine `localName`. -/
def parse (address localName : String) : Except Fault Address :=
  match Text.split ':' address.toList with
  | [] => .error (.address address .empty)
  | _ :: _ :: _ :: _ => .error (.address address .separators)
  | name :: rest =>
    let host := String.ofList (Text.uppercase (Text.trimmed name))
    if host = "" then .error (.address address .empty)
    else match readPort address rest with
      | .error fault => .error fault
      | .ok port => .ok ⟨if host = "LOCALHOST" then Text.upper localName else host, port⟩

/-- The canonical text `NAME:PORT`. -/
def text (a : Address) : String := a.host ++ ":" ++ toString a.port.toNat

instance : ToString Address := ⟨text⟩

def uri (a : Address) : String := "http://" ++ a.text

/-- The address as part of a file name. -/
def fileName (a : Address) : String := Text.dotted a.text

/-- How a node that calls itself `name` and reports from `a` is shown. -/
def displayName (a : Address) (name : String) : String :=
  let name := Text.upper name
  if a.host = name ∧ a.port = defaultPort then name else name ++ "(" ++ a.text ++ ")"

/-- The address to call, read off a display name. -/
def ofDisplayName (name : String) : String :=
  match Text.splitOnce? '(' name.toList with
  | some (_, rest) => String.ofList (Text.dropEndWhile (· = ')') rest)
  | none => name ++ ":" ++ toString defaultPort.toNat

end Address

end Muster
