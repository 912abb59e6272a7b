import Muster.Shell.Arithmetic
import Muster.Shell.World
import Muster.Text.Split

/-!
# Commands

The commands that run no other ones: those that change the shell, those that change files, and those that
read octets and write others.
-/

namespace Muster.Shell.Run

open Text.Utf8 (encode)

/-! ### Signals -/

def signals : List (String × Nat) :=
  [("HUP", 1), ("INT", 2), ("QUIT", 3), ("ILL", 4), ("TRAP", 5), ("ABRT", 6), ("BUS", 7), ("FPE", 8),
    ("KILL", 9), ("USR1", 10), ("SEGV", 11), ("USR2", 12), ("PIPE", 13), ("ALRM", 14), ("TERM", 15),
    ("CHLD", 17), ("CONT", 18), ("STOP", 19), ("TSTP", 20), ("TTIN", 21), ("TTOU", 22), ("URG", 23),
    ("XCPU", 24), ("XFSZ", 25), ("WINCH", 28), ("SYS", 31)]

/-- A signal by its name or number. -/
def signal? (s : String) : Option (String × Nat) :=
  let name := if s.startsWith "SIG" then (s.drop 3).toString else s
  match Text.natural? name.toList with
  | some 0 => some ("EXIT", 0)
  | some n => some (((signals.find? fun x => x.2 == n).map (·.1)).getD "", n)
  | none => if name = "EXIT" then some ("EXIT", 0) else signals.find? fun x => x.1 == name

/-- Signals that do nothing where they are not expected. -/
def isHarmless (n : Nat) : Bool := n = 0 || n = 17 || n = 18 || n = 23 || n = 28

/-- The signal that `kill` is told to send, and whom to. -/
def killArguments : List String → Option ((String × Nat) × List String)
  | "-s" :: name :: rest => (signal? name).map fun s => (s, rest)
  | "--" :: rest => some (("TERM", 15), rest)
  | arg :: rest =>
    if arg.startsWith "-" then (signal? (arg.drop 1).toString).map fun s => (s, rest)
    else some (("TERM", 15), arg :: rest)
  | [] => none

/-! ### Commands that change the shell -/

/-- What variables get of a line, which is cut at separators; the last one gets the rest. -/
def lineValues (isSeparator : Char → Bool) : List String → List Char → List (String × String)
  | [], _ => []
  | [name], s =>
    let isBlank (c : Char) : Bool := isSeparator c && Fields.isBlank c
    [(name, String.ofList (((s.dropWhile isBlank).reverse.dropWhile isBlank).reverse))]
  | name :: rest, s =>
    let isBlank (c : Char) : Bool := isSeparator c && Fields.isBlank c
    let (value, after) := (s.dropWhile isBlank).span (!isSeparator ·)
    let after := after.dropWhile isBlank
    let after := if after.head?.any isSeparator then after.tail else after
    (name, String.ofList value) :: lineValues isSeparator rest after

/-- Reads a line; the status is 0 only if it had an end. -/
def readLine (names : List String) : Run Unit := do
  let w ← get
  let (line, rest) := w.input.span (· ≠ 10)
  set { w with input := rest.tail }
  let text := (Text.Utf8.decode {} line).2
  let separators := ((w.vars.get? "IFS").getD " \t\n").toList
  let names := if names.isEmpty then ["REPLY"] else names
  for (name, value) in lineValues separators.contains names text do setVar name value
  setStatus (if rest.isEmpty then 1 else 0)

def assignment (typed : String) : Run Unit :=
  match Text.splitOnce? '=' typed.toList with
  | some (name, value) => setVar (String.ofList name) (String.ofList value)
  | none => return

def setOptions : List String → Run Unit
  | [] => return
  | "--" :: args => modify fun w => { w with args }
  | "-o" :: "errexit" :: rest => do
    modify fun w => { w with exitsOnFailure := true }
    setOptions rest
  | "-o" :: "nounset" :: rest => do
    modify fun w => { w with needsSet := true }
    setOptions rest
  | "-o" :: "pipefail" :: rest => do
    modify fun w => { w with pipesFail := true }
    setOptions rest
  | "-eo" :: "pipefail" :: rest => do
    modify fun w => { w with pipesFail := true, exitsOnFailure := true }
    setOptions rest
  | "-euo" :: "pipefail" :: rest => do
    modify fun w => { w with pipesFail := true, exitsOnFailure := true, needsSet := true }
    setOptions rest
  | arg :: rest => do
    if arg.startsWith "-" then
      if arg.contains 'e' then modify fun w => { w with exitsOnFailure := true }
      if arg.contains 'u' then modify fun w => { w with needsSet := true }
      setOptions rest
    else if arg.startsWith "+" then
      if arg.contains 'e' then modify fun w => { w with exitsOnFailure := false }
      if arg.contains 'u' then modify fun w => { w with needsSet := false }
      setOptions rest
    else modify fun w => { w with args := arg :: rest }

/-- Waits for all that is in the background, or for some of it. -/
def wait (pids : List String) : Run Unit := do
  if pids.isEmpty then
    flushJobs
    setStatus 0
  for pid in pids do
    let w ← get
    match w.jobs.find? fun j => toString j.pid == pid with
    | some job =>
      set { w with
        trace := job.trace ++ w.trace
        jobs := w.jobs.filter fun j => j.pid != job.pid
        status := job.status }
    | none => setStatus 127

/-- Commands that neither read nor change the shell. -/
def tool? (name : String) (args : List String) : Option Produced :=
  match name with
  | "echo" => some (Tools.echo args)
  | "printf" => some (Tools.printf args)
  | "true" | ":" => some {}
  | "false" => some { status := 1 }
  | "seq" => some (Tools.seq args)
  | "yes" =>
    let line := encode (if args.isEmpty then "y" else " ".intercalate args) ++ [10]
    some { out := (List.replicate (1000000 / line.length + 1) line).flatten }
  | _ => none

/-- A path without slashes at its end. -/
def pathOf (name : String) : String :=
  if name.endsWith "/" && name ≠ "/" then (name.dropEndWhile (· = '/')).toString else name

/-- The directory that a path stands in. -/
def parent (name : String) : String :=
  match Text.splitOnce? '/' (pathOf name).toList.reverse with
  | some (_, []) => "/"
  | some (_, above) => String.ofList above.reverse
  | none => "."

def isDirectory (w : World) (name : String) : Bool := w.directories.contains (pathOf name)

def missing : String := "No such file or directory"

/-- What a command on files does with a name, or why it cannot: its verb, the status of a failure, and
the change. Options are `r`, `f` and `p`. -/
def fileTool? (tool : String) (has : Char → Bool) (path : String) (w : World) :
    Option (String × Nat × Except String World) :=
  let isFile := w.files.contains path
  let isDir := isDirectory w path
  let isEmptyDir := !w.files.keys.any fun file => parent file = pathOf path
  match tool with
  | "ls" => some ("cannot access", 2,
      if isFile then .ok { w with trace := .write w.out (encode (path ++ "\n")) :: w.trace }
      else if isDir then .ok w
      else .error missing)
  | "rm" => some ("cannot remove", 1,
      if isFile then .ok { w with files := w.files.erase path }
      else if isDir && !has 'r' then .error "Is a directory"
      else if isDir then .ok { w with
        directories := w.directories.erase (pathOf path)
        files := w.files.filter fun file _ => parent file ≠ pathOf path }
      else if has 'f' then .ok w
      else .error missing)
  | "touch" => some ("cannot touch", 1,
      if isFile || isDir then .ok w
      else if isDirectory w (parent path) then .ok { w with files := w.files.insert path [] }
      else .error missing)
  | "mkdir" => some ("cannot create directory", 1,
      if isDir && has 'p' then .ok w
      else if isFile || isDir then .error "File exists"
      else if has 'p' || isDirectory w (parent path) then
        .ok { w with directories := SortedSet.add w.directories (pathOf path) }
      else .error missing)
  | "rmdir" => some ("failed to remove", 1,
      if !isDir then .error missing
      else if isEmptyDir then .ok { w with directories := w.directories.erase (pathOf path) }
      else .error "Directory not empty")
  | _ => none

/-- Commands that make, remove or look for files; each name is taken by itself. -/
def fileTool (tool : String) (args : List String) : Run Bool := do
  unless ["ls", "rm", "touch", "mkdir", "rmdir"].contains tool do return false
  let has (c : Char) : Bool := args.any fun a => a.startsWith "-" && a.contains c
  setStatus 0
  for path in args.filter (!·.startsWith "-") do
    let w ← get
    match fileTool? tool has path w with
    | some (_, _, .ok w) => set w
    | some (verb, status, .error reason) =>
      emit w.err (encode (tool ++ ": " ++ verb ++ " '" ++ path ++ "': " ++ reason ++ "\n"))
      setStatus status
    | none => pure ()
  return true

/-- Commands that read octets. -/
def filter (name : String) (args : List String) : Run Bool := do
  let isOption (a : String) : Bool := a.startsWith "-" && a ≠ "-"
  let finish (isFine : Bool) (p : Produced) : Run Bool := do
    produce p
    unless isFine do setStatus 1
    return true
  match name with
  | "cat" =>
    let (octets, isFine) ← readAll name (args.filter (!isOption ·))
    finish isFine { out := octets }
  | "tr" => finish true (Tools.translate args (← readAll name []).1)
  | "head" =>
    let (countsOctets, n, names) := Tools.countOption 10 args
    if names = ["/dev/zero"] then finish true { out := List.replicate n 0 }
    else
      let (octets, isFine) ← readAll name names
      finish isFine { out := Tools.firstOf countsOctets n octets }
  | "tail" =>
    let (countsOctets, n, names) := Tools.countOption 10 args
    let (octets, isFine) ← readAll name names
    finish isFine { out := Tools.lastOf countsOctets n octets }
  | "wc" =>
    let (octets, isFine) ← readAll name (args.filter (!isOption ·))
    finish isFine (Tools.count (args.filter isOption) octets)
  | "sort" =>
    let (octets, isFine) ← readAll name (args.filter (!isOption ·))
    finish isFine { out := Tools.sort (args.filter isOption) octets }
  | _ => return false

def isTrue (w : World) (isPattern : Bool) (words : List String) : Bool :=
  Tools.condition isPattern w.files.contains (isDirectory w) (words.length + 1) words

/-- Tells whether a condition is true, unless its words make none. -/
def test (name : String) (words : List String) : Run Unit := do
  match Tools.conditionFault? words with
  | some fault => complain (name ++ ": " ++ fault) 2
  | none => setStatus (if isTrue (← get) false words then 0 else 1)

/-- Simple commands of the shell that need none of its other commands. -/
def builtin (name : String) (args : List String) : Run (Option Flow) := do
  match name, args with
  | "sleep", time :: _ =>
    note (.pause time)
    setStatus 0
  | "read", args => readLine (args.filter (!·.startsWith "-"))
  | "wait", args => wait args
  | "shift", args =>
    let n := ((args.head?.map Tools.numberOf).getD 1).toNat
    let w ← get
    if n ≤ w.args.length then set { w with args := w.args.drop n, status := 0 } else setStatus 1
  | "let", args =>
    for a in args do
      if let some (v, vars) := Arithmetic.evaluate (← get).vars a then
        modify fun w => { w with vars, status := if v = 0 then 1 else 0 }
  | "set", args =>
    setOptions args
    setStatus 0
  | "local", args | "declare", args | "readonly", args =>
    for a in args do assignment a
    setStatus 0
  | "export", args =>
    for a in args do
      assignment a
      modify fun w => { w with
        exported := SortedSet.add w.exported (String.ofList (a.toList.takeWhile (· ≠ '='))) }
    setStatus 0
  | "unset", args =>
    modify fun w => { w with vars := args.foldl SortedMap.erase w.vars }
    setStatus 0
  | "test", args => test "test" args
  | "[", args =>
    if args.getLast? = some "]" then test "[" args.dropLast else complain "[: missing end" 2
  | "cd", dir :: _ =>
    if dir = "-" || isDirectory (← get) dir then setStatus 0
    else complain ("cd: " ++ dir ++ ": " ++ missing) 1
  | "cd", [] | "umask", _ | "ulimit", _ => setStatus 0
  | "trap", action :: names =>
    for name in names do
      if let some (name, _) := signal? name then
        modify fun w => { w with
          traps := if action = "-" then w.traps.erase name else w.traps.insert name action }
    setStatus 0
  | "exit", [] => return some .exit
  | "exit", code :: _ =>
    match Text.integer? code.toList with
    | some n => setStatus (n % 256).toNat
    | none => complain ("exit: " ++ code ++ ": numeric argument required") 2
    return some .exit
  | "break", args => return some (.break ((args.head?.map Tools.numberOf).getD 1).toNat)
  | "continue", args => return some (.continue ((args.head?.map Tools.numberOf).getD 1).toNat)
  | "return", args =>
    if (← get).depth = 0 then
      complain "return: can only `return' from a function or sourced script" 2
    else
      if let some code := args.head? then setStatus (Tools.numberOf code % 256).toNat
      return some .return
  | name, args =>
    match tool? name args with
    | some p => produce p
    | none =>
      unless ← fileTool name args do
        unless ← filter name args do return none
  return some .next

end Muster.Shell.Run
