import Muster.Shell.Builtin
import Muster.Shell.Reader

/-!
# Running scripts

What a script does, as a list of actions: what it writes and where it pauses, up to its end and beyond it
if there are commands in the background. The standard input is empty. Commands in the background are taken
to be as slow as can be: they act when they are waited for, or after the script has ended.

Running takes fuel, which no script of a sensible size uses up.
-/

namespace Muster.Shell

namespace Run

open Text.Utf8 (encode)

/-- Runs something in a copy of the shell; only what was done remains. -/
def inCopy {α : Type} (x : Run α) : Run α := do
  let before ← get
  set { before with jobs := [] }
  let a ← x
  flushJobs
  modify fun w =>
    { before with
      status := w.status
      trace := w.trace
      files := w.files
      count := w.count
      signal := w.signal }
  return a

/-- Runs something with its output into a pipe, and gives what came out. -/
def piped (x : Run Unit) : Run (List UInt8) := do
  let id ← fresh
  let before ← get
  set { before with trace := [], out := .pipe id }
  x
  let w ← get
  let (inside, outside) := w.trace.partition fun e => match e with
    | .write (.pipe k) _ => k == id
    | _ => false
  set { w with trace := outside ++ before.trace, out := before.out }
  return inside.reverse.flatMap fun e => match e with
    | .write _ octets => octets
    | .pause _ => []

/-- The text that a command leaves in a word. -/
def captured (octets : List UInt8) : String :=
  let (pending, text) := Text.Utf8.decode {} (octets.filter (· ≠ 0))
  String.ofList ((text ++ Text.Utf8.flush pending).reverse.dropWhile (· = '\n')).reverse

/-- Whether a part of a word is a command. -/
def isCapture : Part → Bool
  | .capture .. => true
  | _ => false

/-- Whether a loop goes on after its body, and what it passes on if not. -/
def afterBody : Flow → Option Flow
  | .next => none
  | .continue n => if n ≤ 1 then none else some (.continue (n - 1))
  | .break n => if n ≤ 1 then some .next else some (.break (n - 1))
  | flow => some flow

mutual

/-- The pieces that a part of a word expands to. -/
def expandPart : Nat → Part → Run (List Piece)
  | 0, _ => return []
  | n + 1, part => do
    let plain (isQuoted : Bool) (s : String) : List Piece := [if isQuoted then .hard s else .soft s]
    match part with
    | .text s | .quoted s => return [.hard s]
    | .parameter "@" isQuoted => return arguments (← get) isQuoted
    | .parameter "*" false => return arguments (← get) false
    | .parameter name isQuoted =>
      let w ← get
      if w.needsSet && !isSet w name then fail .exit (name ++ ": unbound variable")
      return plain isQuoted (parameter w name)
    | .length "" | .length "@" | .length "*" => return [.hard (toString (← get).args.length)]
    | .length name => return [.hard (toString (parameter (← get) name).length)]
    | .alternative name use countsEmpty word isQuoted =>
      let w ← get
      let value := parameter w name
      let isThere := if countsEmpty then value != "" else isSet w name
      match use, isThere with
      | .instead, false => return plain isQuoted ""
      | .instead, true | .orElse, false =>
        if isQuoted then return plain true (← expandText n word)
        expandSoft n word
      | .assign, false =>
        let s ← expandText n word
        setVar name s
        return plain isQuoted s
      | .demand, false =>
        let s ← expandText n word
        fail .exit (name ++ ": " ++ if s = "" then "parameter null or not set" else s)
        return []
      | _, true =>
        if name = "@" then return arguments w isQuoted
        return plain isQuoted value
    | .cut name atEnd longest pattern isQuoted =>
      let p ← expandPattern n pattern
      return plain isQuoted (Tools.withoutMatch atEnd longest p (parameter (← get) name))
    | .replaced name all pattern replacement isQuoted =>
      let p ← expandPattern n pattern
      let new ← expandText n replacement
      return plain isQuoted (Tools.replaceMatches all p new (parameter (← get) name))
    | .slice name start length isQuoted =>
      let start ← evaluate n start
      let length ← match length with
        | some length => some <$> evaluate n length
        | none => pure none
      let w ← get
      if name = "@" || name = "*" then
        let w := { w with args := Tools.sliceOf (start - 1) length w.args }
        return arguments w isQuoted
      return plain isQuoted (String.ofList (Tools.sliceOf start length (parameter w name).toList))
    | .cased name isUpper all isQuoted =>
      let f := if isUpper then Char.toUpper else Char.toLower
      return plain isQuoted (match (parameter (← get) name).toList with
        | [] => ""
        | c :: rest => String.ofList (f c :: if all then rest.map f else rest))
    | .capture body isQuoted =>
      let octets ← piped (inCopy do let _ ← runStatements n false body)
      return plain isQuoted (captured octets)
    | .arithmetic expression =>
      return [.hard (toString (← evaluate n expression))]

/-- The value of an expression after the expansion of its parameters. -/
def evaluate : Nat → Word → Run Int
  | 0, _ => return 0
  | n + 1, expression => do
    let s ← expandText n expression
    match Arithmetic.evaluate (← get).vars s with
    | some (v, vars) =>
      modify fun w => { w with vars }
      return v
    | none =>
      fail .abandon (s ++ ": syntax error in expression")
      return 0

def expandParts : Nat → Word → Run (List Piece)
  | _, [] => return []
  | 0, _ => return []
  | n + 1, part :: rest => do
    let pieces ← expandPart n part
    return pieces ++ (← expandParts n rest)

/-- A word whose plain parts are cut at blanks. -/
def expandSoft : Nat → Word → Run (List Piece)
  | _, [] => return []
  | 0, _ => return []
  | n + 1, part :: rest => do
    let pieces ← match part with
      | .text s => pure [.soft s]
      | part => expandPart n part
    return pieces ++ (← expandSoft n rest)

/-- A word as one text. -/
def expandText : Nat → Word → Run String
  | 0, _ => return ""
  | n + 1, w => do return Fields.joined (← expandParts n w)

/-- A word as a pattern, in which quoted characters stand for themselves. -/
def expandPattern : Nat → Word → Run (List Char)
  | _, [] => return []
  | 0, _ => return []
  | n + 1, part :: rest => do
    let s := (Fields.joined (← expandPart n part)).toList
    let isPlain := match part with
      | .text _ | .parameter _ false => true
      | _ => false
    return (if isPlain then s else s.flatMap fun c => ['\\', c]) ++ (← expandPattern n rest)

/-- The fields that words without braces stand for. -/
def expandWords : Nat → List Word → Run (List String)
  | _, [] => return []
  | 0, _ => return []
  | n + 1, w :: rest => do
    let fields := Fields.ofPieces (← expandParts n w)
    return fields ++ (← expandWords n rest)

/-- Opens the files of redirections; `false` if one is not there. -/
def redirect : Nat → List Redirection → Run Bool
  | _, [] => return true
  | 0, _ => return false
  | n + 1, r :: rest => do
    let open_ (descriptor : Nat) (sink : Sink) : Run Unit :=
      modify fun w => match descriptor with
        | 0 => w
        | 1 => { w with out := sink }
        | 2 => { w with err := sink }
        | k => { w with others := w.others.insert k sink }
    let sinkOf (name : String) (appends : Bool) : Run (Option Sink) := do
      let w ← get
      match name with
      | "/dev/null" => return some .nowhere
      | "/dev/stdout" => return some w.out
      | "/dev/stderr" => return some w.err
      | name =>
        if isDirectory w name || !isDirectory w (parent name) then
          complain (name ++ ": " ++ if isDirectory w name then "Is a directory" else missing) 1
          return none
        unless appends && w.files.contains name do
          set { w with files := w.files.insert name [] }
        return some (.file name)
    match r with
    | .file descriptor .read word =>
      let name ← expandText n word
      match ← fileText name with
      | some octets =>
        if descriptor = 0 then modify fun w => { w with input := octets }
        redirect n rest
      | none =>
        complain (name ++ ": " ++ missing) 1
        return false
    | .file descriptor opening word =>
      match ← sinkOf (← expandText n word) (opening == .append) with
      | some sink =>
        open_ descriptor sink
        redirect n rest
      | none => return false
    | .copy descriptor word =>
      let w ← get
      let name ← expandText n word
      let source := match name with
        | "0" | "-" => some .nowhere
        | "1" => some w.out
        | "2" => some w.err
        | name => (Text.natural? name.toList).bind w.others.get?
      match source with
      | some sink =>
        open_ descriptor sink
        redirect n rest
      | none =>
        complain (name ++ ": Bad file descriptor") 1
        return false
    | .both word =>
      match ← sinkOf (← expandText n word) false with
      | some sink =>
        open_ 1 sink
        open_ 2 sink
        redirect n rest
      | none => return false
    | .here text =>
      let s ← expandText n text
      modify fun w => { w with input := encode s }
      redirect n rest

/-- Runs a command by its name. -/
def runNamed : Nat → Bool → String → List String → Run Flow
  | 0, _, _, _ => return .exit
  | n + 1, isChecked, name, args => do
    let w ← get
    if let some body := w.functions.get? name then
      set { w with args, depth := w.depth + 1 }
      let flow ← runCommand n isChecked body
      modify fun v => { v with args := w.args, depth := w.depth }
      return if flow = .return then .next else flow
    let name := if name.startsWith "/bin/" then (name.drop 5).toString
      else if name.startsWith "/usr/bin/" then (name.drop 9).toString else name
    match name, args with
    | "exec", name :: args =>
      let flow ← runNamed n isChecked name args
      return if flow = .killed then .killed else .exit
    | "exec", [] => return .next
    | "eval", args => runText n false (" ".intercalate args).toList
    | ".", file :: args | "source", file :: args =>
      match ← fileText file with
      | some octets =>
        let w ← get
        set { w with args := if args.isEmpty then w.args else args, depth := w.depth + 1 }
        let flow ← runText n false (Text.Utf8.decode {} octets).2
        modify fun v => { v with args := w.args, depth := w.depth }
        return if flow = .return then .next else flow
      | none =>
        complain (file ++ ": " ++ missing) 1
        return .next
    | "command", name :: args | "builtin", name :: args | "nohup", name :: args =>
      modify fun w => { w with functions := ∅ }
      let flow ← runNamed n isChecked name args
      modify fun v => { v with functions := w.functions }
      return flow
    | "bash", "-c" :: script :: args | "sh", "-c" :: script :: args =>
      inCopy do
        modify fun w => { w with
          args := args.tail
          functions := ∅
          traps := ∅
          depth := 0
          vars := w.vars.filter fun name _ => w.exported.contains name
          exitsOnFailure := false
          pipesFail := false
          needsSet := false }
        let _ ← runText n true script.toList
        runTrap n "EXIT"
        if let some k := (← get).signal then
          modify fun w => { w with signal := none, status := 128 + k }
      return .next
    | "kill", args =>
      match killArguments args with
      | none => complain "kill: usage: kill [-s sigspec] pid" 2
      | some ((name, number), targets) =>
        setStatus 0
        for target in targets do
          if ["0", toString shellPid, "-" ++ toString shellPid].contains target then
            match (← get).traps.get? name with
            | some action =>
              let flow ← runText n false action.toList
              if flow ≠ .next then return flow
            | none =>
              unless isHarmless number do
                modify fun w => { w with signal := some number }
                return .killed
          else
            let w ← get
            match w.jobs.find? fun j => toString j.pid == target || target.startsWith "%" with
            | some job =>
              unless isHarmless number do
                set { w with jobs := w.jobs.map fun (j : Job) =>
                  if j.pid = job.pid then { j with trace := [], status := 128 + number } else j }
            | none => complain ("kill: (" ++ target ++ ") - No such process") 1
      return .next
    | name, args =>
      match ← builtin name args with
      | some flow => return flow
      | none =>
        complain (name ++ (if name.contains '/' then ": No such file or directory"
          else ": command not found")) 127
        return .next

/-- Runs what a trap has been set to. -/
def runTrap : Nat → String → Run Unit
  | 0, _ => return
  | n + 1, name => do
    let w ← get
    match w.traps.get? name with
    | some action =>
      set { w with traps := w.traps.erase name }
      if action ≠ "" then
        let flow ← runText n false action.toList
        unless flow = .exit do setStatus w.status
    | none => return

/-- Runs commands with their output and input redirected. -/
def redirected : Nat → List Redirection → Run Flow → Run Flow
  | 0, _, _ => return .exit
  | n + 1, redirections, x => do
    let before ← get
    let flow ← if ← redirect n redirections then x else pure .next
    modify fun w =>
      { w with out := before.out, err := before.err, others := before.others,
               input := if redirections.isEmpty then w.input else before.input }
    return flow

/-- Assigns variables; the values are expanded one after the other. -/
def assign : Nat → List (String × Word) → Run Unit
  | _, [] => return
  | 0, _ => return
  | n + 1, (name, value) :: rest => do
    setVar name (← expandText n value)
    assign n rest

def runCommand : Nat → Bool → Command → Run Flow
  | 0, _, _ => return .exit
  | n + 1, isChecked, c => do
    match c with
    | .simple assignments words redirections =>
      let fields ← expandWords n (words.flatMap Braces.words)
      let before := (← get).vars
      assign n assignments
      if let some flow ← takeFailure then return flow
      match fields with
      | [] =>
        unless (words.flatten ++ assignments.flatMap (·.2)).any isCapture do setStatus 0
        redirected n redirections (return .next)
      | ["exec"] =>
        let _ ← redirect n redirections
        return .next
      | name :: args =>
        let assigned := assignments.map (·.1)
        let exported := (← get).exported
        modify fun w => { w with exported := assigned.foldl SortedSet.add w.exported }
        let flow ← redirected n redirections (runNamed n isChecked name args)
        unless assigned.isEmpty do
          modify fun w => { w with
            exported
            vars := assigned.foldl (fun vars name => match before.get? name with
              | some value => vars.insert name value
              | none => vars.erase name) w.vars }
        return flow
    | .redirected c redirections => redirected n redirections (runCommand n isChecked c)
    | .group body => runStatements n isChecked body
    | .subshell body =>
      let flow ← inCopy do
        let flow ← runStatements n isChecked body
        runTrap n "EXIT"
        return flow
      return if flow = .killed then .killed else .next
    | .branch condition body otherwise =>
      let flow ← runStatements n true condition
      if flow ≠ .next then return flow
      if (← get).status = 0 then runStatements n isChecked body
      else
        setStatus 0
        runStatements n isChecked otherwise
    | .loop isUntil condition body => runLoop n isChecked isUntil condition body 0
    | .each name words body =>
      let values ← match words with
        | some words => expandWords n (words.flatMap Braces.words)
        | none => pure (← get).args
      if let some flow ← takeFailure then return flow
      setStatus 0
      runEach n isChecked name body values
    | .counting start condition step body =>
      let _ ← evaluate n start
      setStatus 0
      runCounting n isChecked condition step body
    | .choice subject arms =>
      let s ← expandText n subject
      if let some flow ← takeFailure then return flow
      setStatus 0
      runArms n isChecked s.toList arms
    | .arithmetic expression =>
      let v ← evaluate n expression
      let _ ← takeFailure
      setStatus (if v = 0 then 1 else 0)
      return .next
    | .condition words =>
      let texts ← conditionTexts n words
      if let some flow ← takeFailure then return flow
      setStatus (if isTrue (← get) true texts then 0 else 1)
      return .next
    | .define name body =>
      modify fun w => { w with functions := w.functions.insert name body, status := 0 }
      return .next

/-- The texts of a condition; what follows a comparison is a pattern. -/
def conditionTexts : Nat → List Word → Run (List String)
  | _, [] => return []
  | 0, _ => return []
  | n + 1, w :: rest => do
    let s ← expandText n w
    match rest with
    | p :: rest =>
      if ["==", "!=", "="].contains s then
        let p ← expandPattern n p
        return s :: String.ofList p :: (← conditionTexts n rest)
      else return s :: (← conditionTexts n (p :: rest))
    | [] => return [s]

def runLoop : Nat → Bool → Bool → List Statement → List Statement → Nat → Run Flow
  | 0, _, _, _, _, _ => return .exit
  | n + 1, isChecked, isUntil, condition, body, status => do
    let flow ← runStatements n true condition
    if flow ≠ .next then return flow
    if ((← get).status = 0) = isUntil then
      setStatus status
      return .next
    else
      let flow ← runStatements n isChecked body
      match afterBody flow with
      | some flow => return flow
      | none => runLoop n isChecked isUntil condition body (← get).status

def runEach : Nat → Bool → String → List Statement → List String → Run Flow
  | _, _, _, _, [] => return .next
  | 0, _, _, _, _ => return .exit
  | n + 1, isChecked, name, body, value :: rest => do
    setVar name value
    let flow ← runStatements n isChecked body
    match afterBody flow with
    | some flow => return flow
    | none => runEach n isChecked name body rest

def runCounting : Nat → Bool → Word → Word → List Statement → Run Flow
  | 0, _, _, _, _ => return .exit
  | n + 1, isChecked, condition, step, body => do
    let v ← if condition.isEmpty then pure 1 else evaluate n condition
    if v = 0 then return .next
    let flow ← runStatements n isChecked body
    match afterBody flow with
    | some flow => return flow
    | none =>
      let _ ← evaluate n step
      runCounting n isChecked condition step body

def runArms : Nat → Bool → List Char → List (List Word × List Statement) → Run Flow
  | _, _, _, [] => return .next
  | 0, _, _, _ => return .exit
  | n + 1, isChecked, s, (patterns, body) :: rest => do
    let mut isMatch := false
    for p in patterns do
      if Tools.matchesGlob (← expandPattern n p) s then isMatch := true
    if isMatch then runStatements n isChecked body else runArms n isChecked s rest

/-- Runs the commands of a pipeline one after the other, each on what the one before it wrote. -/
def runPiped : Nat → Bool → List Command → Run Flow
  | 0, _, _ => return .exit
  | _ + 1, _, [] => return .next
  | n + 1, isChecked, [c] => do
    let flow ← inCopy (runCommand n isChecked c)
    return if flow = .killed then .killed else .next
  | n + 1, isChecked, c :: rest => do
    let octets ← piped (inCopy do let _ ← runCommand n isChecked c)
    let before ← get
    set { before with input := octets }
    let flow ← runPiped n isChecked rest
    modify fun w =>
      { w with
        input := before.input
        status := if w.pipesFail && w.status = 0 then before.status else w.status }
    return flow

def runPipeline : Nat → Bool → Pipeline → Run Flow
  | 0, _, _ => return .exit
  | n + 1, isChecked, .mk isNegated commands => do
    let flow ← match commands with
      | [c] => runCommand n (isChecked || isNegated) c
      | commands => runPiped n (isChecked || isNegated) commands
    if flow ≠ .next then return flow
    let w ← get
    if w.signal.isSome then return .killed
    if isNegated then setStatus (if w.status = 0 then 1 else 0)
    else if w.exitsOnFailure && !isChecked && w.status ≠ 0 then return .exit
    return .next

/-- Runs the pipelines behind a first one, as far as the statuses ask for them. -/
def runJoined : Nat → Bool → List (Bool × Pipeline) → Run Flow
  | _, _, [] => return .next
  | 0, _, _ => return .exit
  | n + 1, isChecked, (onSuccess, p) :: rest => do
    if ((← get).status = 0) = onSuccess then
      let flow ← runPipeline n (isChecked || !rest.isEmpty) p
      if flow ≠ .next then return flow
    runJoined n isChecked rest

def runStatement : Nat → Bool → Statement → Run Flow
  | 0, _, _ => return .exit
  | n + 1, isChecked, .mk first rest isBackground => do
    if isBackground then
      let pid := shellPid + (← fresh)
      let before ← get
      set { before with trace := [] }
      inCopy do
        let _ ← runStatement n isChecked (.mk first rest false)
      modify fun w =>
        { w with
          trace := before.trace
          jobs := before.jobs ++ [⟨pid, w.trace, w.status⟩]
          status := 0
          vars := before.vars.insert "!" (toString pid) }
      return if (← get).signal.isSome then .killed else .next
    else
      let flow ← runPipeline n (isChecked || !rest.isEmpty) first
      if flow ≠ .next then return flow
      runJoined n isChecked rest

def runStatements : Nat → Bool → List Statement → Run Flow
  | _, _, [] => return .next
  | 0, _, _ => return .exit
  | n + 1, isChecked, s :: rest => do
    let flow ← runStatement n isChecked s
    if flow ≠ .next then return flow
    runStatements n isChecked rest

/-- Runs a text line by line; an error in it is noticed where it stands. In a whole script such an
error ends the shell, and a line that is given up is followed by the next one. -/
def runText : Nat → Bool → List Char → Run Flow
  | 0, _, _ => return .exit
  | n + 1, isWhole, text => do
    match next text with
    | .done => return .next
    | .flawed =>
      complain "syntax error" 2
      return if isWhole then .exit else .next
    | .line statements rest =>
      let flow ← runStatements n false statements
      if flow ≠ .next && !(isWhole && flow = .abandon) then return flow
      runText n isWhole rest

end

end Run

/-! ### A whole script -/

/-- What a process does, as it can be seen from outside. Without a code, it is ended by a signal. -/
inductive Action
  | out (octets : List UInt8)
  | err (octets : List UInt8)
  | pause (time : String)
  | exit (code : Option Nat)
  deriving DecidableEq, Repr

def Entry.action? : Entry → Option Action
  | .write .out octets => some (.out octets)
  | .write .err octets => some (.err octets)
  | .write _ _ => none
  | .pause time => some (.pause time)

/-- How many octets a pipe gives at once. -/
def chunkSize : Nat := 1024

/-- Puts what is written without a pause together, as far as a pipe gives it at once. -/
def gathered : List Action → List Action
  | [] => []
  | a :: rest =>
    match a, gathered rest with
    | .out s, .out t :: more =>
      if s.length + t.length ≤ chunkSize then .out (s ++ t) :: more else .out s :: .out t :: more
    | .err s, .err t :: more =>
      if s.length + t.length ≤ chunkSize then .err (s ++ t) :: more else .err s :: .err t :: more
    | a, more => a :: more

def fuel : Nat := 10000000

/-- What a script does, called with arguments. -/
def run (script : String) (args : List String) : List Action :=
  let whole : Run Flow := do
    let flow ← Run.runText fuel true script.toList
    if flow ≠ .killed then Run.runTrap fuel "EXIT"
    return flow
  let (flow, w) := whole.run { args }
  let seen (trace : List Entry) : List Action := trace.reverse.filterMap Entry.action?
  gathered (seen w.trace) ++ [.exit (if flow = .killed then none else some w.status)] ++
    w.jobs.flatMap fun j => seen j.trace

end Muster.Shell
