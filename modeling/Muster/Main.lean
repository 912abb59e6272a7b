import Muster.CommandLine.Program
import Muster.Node

/-!
# Entry of the program

Reads the command line and the script that it may name, and prints what the command comes to. Whoever
embeds the library carries calls from one machine to another; this program alone reaches nobody.
-/

namespace Muster

/-- Peers of a program that is alone: no call is answered. -/
def alone : Peers Unit where
  connect := Address.call fun _ => false
  answer _ _ := ((), .error ⟨.unavailable, "no peer"⟩)

/-- What is printed when a node is started: nothing, or why it is not. -/
def startReport (localName program : String) (options : CommandLine.StartOptions) :
    CommandLine.Printed :=
  match CommandLine.Program.nodeConfig localName program options with
  | .error fault => .failure (CommandLine.faultText fault)
  | .ok config =>
    match (Node.start config .absent {}).2.2 with
    | .error fault => .failure (CommandLine.faultText fault)
    | .ok _ => {}

end Muster

open Muster CommandLine in
def main (args : List String) : IO UInt32 := do
  let localName := (← IO.getEnv "HOSTNAME").getD "LOCALHOST"
  let script ← match Program.script? args with
    | none => pure (.ok "")
    | some path => try
        pure (.ok (← IO.FS.readFile path))
      catch e => pure (.error (toString e))
  let printed := match (Program.perform alone localName (fun _ => script) () args).2 with
    | .printed p => p
    | .start options => startReport localName "clusrun" options
  for line in printed.out do IO.println line
  for line in printed.err do IO.eprintln line
  return UInt32.ofNat printed.exit
