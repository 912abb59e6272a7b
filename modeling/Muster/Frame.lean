/-!
# Output on its way

What a worker sends of a command's output, and what the submitter of a job gets of it.
-/

namespace Muster

/-- One part of a node's output, as the submitter gets it. -/
inductive Frame
  | out (text : String)
  | err (text : String)
  | exit (code : Int)
  deriving DecidableEq, Repr

/-- What a worker sends at once. -/
structure Reply where
  stdout : String := ""
  stderr : String := ""
  exitCode : Option Int := none
  deriving DecidableEq, Repr

/-- The message that carries one part of the output. -/
def Frame.reply : Frame → Reply
  | out text => { stdout := text }
  | err text => { stderr := text }
  | exit code => { exitCode := some code }

namespace Reply

/-- The texts of a reply that are not empty. -/
def frames (r : Reply) : List Frame :=
  (if r.stdout = "" then [] else [.out r.stdout]) ++ (if r.stderr = "" then [] else [.err r.stderr])

/-- The last exit code that was sent. -/
def code (before : Option Int) (r : Reply) : Option Int := r.exitCode.or before

end Reply

end Muster
