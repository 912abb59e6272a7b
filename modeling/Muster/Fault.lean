import Muster.Text.Decimal
import Muster.Text.Quoted

/-!
# Faults

What can go wrong, as causes, with the text of each and the status that a service answers with.
-/

namespace Muster

/-- The kinds of status that a call can end with. -/
inductive Code
  | invalidArgument
  | failedPrecondition
  | notFound
  | resourceExhausted
  | unavailable
  | internal
  | alreadyExists
  | unimplemented
  deriving DecidableEq, Repr

/-- What a refused call answers with. -/
structure Status where
  code : Code
  message : String
  deriving DecidableEq, Repr

/-- Why a text is no address. -/
inductive AddressFault
  | separators
  | empty
  | port (fault : Text.DigitsFault)
  | uri
  | stated (reason : String)
  deriving DecidableEq, Repr

def AddressFault.message : AddressFault → String
  | separators => "too many ':' separators"
  | empty => "empty address"
  | port fault => "incorrect port: " ++ fault.message
  | uri => "invalid URI"
  | stated reason => reason

/-- Why an argument is refused. -/
inductive ArgumentFault
  | emptyCommand
  | emptyNodeName
  | nodeName (name : String)
  | pattern (pattern reason : String)
  | jobId (typed : String)
  | jobRange (typed : String)
  | placeholder (placeholder : String)
  | setting (typed : String)
  | stated (reason : String)
  deriving DecidableEq, Repr

open Text (quoted) in
def ArgumentFault.message : ArgumentFault → String
  | emptyCommand => "Empty command"
  | emptyNodeName => "Empty nodename"
  | nodeName name => "Invalid nodename: " ++ name
  | pattern text reason => "Invalid node pattern " ++ quoted text ++ ": " ++ reason
  | jobId typed => "Invalid job id: " ++ quoted typed
  | jobRange typed => "Invalid job range: " ++ quoted typed
  | placeholder text =>
    "Sweep placeholder " ++ quoted text ++ " is not found in the command"
  | setting typed => "Setting should be name=value: " ++ quoted typed
  | stated reason => reason

inductive Fault
  | argument (fault : ArgumentFault)
  | address (typed : String) (fault : AddressFault)
  | unknownNodes (names : List String)
  | noNodes
  | unknownJob (id : Int)
  | full (capacity active : Nat)
  | storage
  | serialization
  | config (reason : String)
  | transport
  | refused (status : Status)
  | internal (reason : String)
  deriving DecidableEq, Repr

namespace Fault

/-- A stored job list of a version that is not known. -/
def storeVersion (version : Nat) : Fault :=
  internal ("Unsupported job store version " ++ toString version)

def configRole (role : String) : Fault := config ("Invalid config role: " ++ role)

def message : Fault → String
  | argument fault => fault.message
  | address typed fault => "Invalid host address " ++ Text.quoted typed ++ ": " ++ fault.message
  | unknownNodes names =>
    "Invalid nodes (" ++ toString names.length ++ "): " ++ ", ".intercalate names
  | noNodes => "No valid nodes to create job"
  | unknownJob id => "Job not found: " ++ toString id
  | full capacity active =>
    "Job count reaches the capacity " ++ toString capacity ++ " and all " ++ toString active ++
      " jobs are active"
  | storage => "Storage error"
  | serialization => "Serialization error"
  | config reason => "Config error: " ++ reason
  | transport => "Transport error"
  | refused s => "gRPC error: " ++ s.message
  | internal reason => "Internal error: " ++ reason

def code : Fault → Code
  | argument _ | address .. | unknownNodes _ | config _ => .invalidArgument
  | noNodes => .failedPrecondition
  | unknownJob _ => .notFound
  | full .. => .resourceExhausted
  | transport => .unavailable
  | refused s => s.code
  | storage | serialization | internal _ => .internal

/-- How a service reports the fault: a status that came from elsewhere is passed on as it is. -/
def toStatus (fault : Fault) : Status :=
  match fault with
  | refused s => s
  | _ => ⟨fault.code, fault.message⟩

end Fault

end Muster
