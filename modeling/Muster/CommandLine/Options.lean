/-!
# Options and words

A command line as options and words. An option has a long name and may have a letter; its value follows
it or is attached to it. Words are whatever is left, and after a lone `--` everything is a word. A
command of which the words are themselves a command line ends its options with the first word.
-/

namespace Muster.CommandLine

/-- What an option is followed by. -/
inductive Takes
  | nothing
  | value
  /-- Values with commas between them; such an option may be repeated. -/
  | list
  deriving DecidableEq, Repr

structure Switch where
  name : String
  letter : Option Char := none
  takes : Takes := .value
  deriving DecidableEq, Repr

/-- What a command understands. -/
structure Grammar where
  /-- The command with those that it belongs to, joined by dashes. -/
  title : String
  switches : List Switch := []
  /-- How many words there may be; `none` for any number. -/
  words : Option Nat := some 0
  /-- The first word ends the options, and words may begin with a dash. -/
  wordsAreCommand : Bool := false
  subcommands : List String := []
  deriving DecidableEq, Repr

/-- Why a command line is not carried out. -/
inductive Usage
  | help
  | version (title : String)
  | wrong
  deriving DecidableEq, Repr

/-- What a command line gives. -/
structure Parsed where
  /-- The values of each option that was given. -/
  given : List (String × List String) := []
  words : List String := []
  /-- A subcommand and what follows it. -/
  subcommand : Option (String × List String) := none
  deriving DecidableEq, Repr

namespace Grammar

/-- The options that every command has. -/
def common : List Switch := [⟨"help", some 'h', .nothing⟩, ⟨"version", some 'V', .nothing⟩]

def all (g : Grammar) : List Switch := g.switches ++ common

def named? (g : Grammar) (name : String) : Option Switch := g.all.find? fun s => s.name == name

def lettered? (g : Grammar) (c : Char) : Option Switch := g.all.find? fun s => s.letter == some c

end Grammar

/-- Where the reading of a command line stands. -/
structure Reading where
  parsed : Parsed := {}
  /-- The option whose value comes next. -/
  awaiting : Option Switch := none
  /-- Everything from here on is a word. -/
  wordsOnly : Bool := false

namespace Reading

/-- Notes an option with its value; without a value, the value comes next. Only a list can be given
again. -/
def note (g : Grammar) (r : Reading) (s : Switch) (value : Option String) : Except Usage Reading :=
  if r.awaiting.isSome then .error .wrong
  else if s.name = "help" then .error .help
  else if s.name = "version" then .error (.version g.title)
  else
    let before := r.parsed.given.lookup s.name
    if before.isSome && s.takes != .list then .error .wrong
    else
      let put (values : List String) : Reading :=
        { r with parsed := { r.parsed with
            given := (s.name, before.getD [] ++ values) :: r.parsed.given.filter (·.1 != s.name) } }
      match s.takes, value with
      | .nothing, none => .ok (put [])
      | .nothing, some _ => .error .wrong
      | .value, some v => .ok (put [v])
      | .list, some v => .ok (put (v.splitOn ","))
      | _, none => .ok { r with awaiting := some s }

/-- Notes the options that stand behind one dash. -/
def noteLetters (g : Grammar) (r : Reading) : List Char → Except Usage Reading
  | [] => .ok r
  | c :: rest =>
    match g.lettered? c with
    | none => .error .wrong
    | some s =>
      if s.takes = .nothing then do noteLetters g (← r.note g s none) rest
      else match rest with
        | [] => r.note g s none
        | '=' :: value | value => r.note g s (some (String.ofList value))

/-- Notes a word, if the command takes one more. -/
def noteWord (g : Grammar) (r : Reading) (word : String) : Except Usage Reading :=
  if g.words.any (· ≤ r.parsed.words.length) then .error .wrong
  else .ok { r with
    parsed := { r.parsed with words := r.parsed.words ++ [word] }
    wordsOnly := r.wordsOnly || g.wordsAreCommand }

/-- Notes what is no option: the value that is awaited, or a word. -/
def notePlain (g : Grammar) (r : Reading) (text : String) : Except Usage Reading :=
  match r.awaiting with
  | some s => { r with awaiting := none }.note g s (some text)
  | none => r.noteWord g text

/-- An argument, as far as its first characters tell. -/
inductive Shape
  | long (name : String) (value : Option String)
  | letters (letters : List Char)
  | plain

def shape (arg : String) : Shape :=
  match arg.toList with
  | '-' :: '-' :: name =>
    match name.span (· ≠ '=') with
    | (name, []) => .long (String.ofList name) none
    | (name, _ :: value) => .long (String.ofList name) (some (String.ofList value))
  | '-' :: c :: rest => .letters (c :: rest)
  | _ => .plain

/-- Notes one argument that may be an option. Where words may begin with a dash, an unknown option is
none. -/
def noteArgument (g : Grammar) (r : Reading) (arg : String) : Except Usage Reading :=
  match shape arg with
  | .plain => r.notePlain g arg
  | .long name value =>
    match g.named? name with
    | some s => r.note g s value
    | none => if g.wordsAreCommand then r.notePlain g arg else .error .wrong
  | .letters letters =>
    if g.wordsAreCommand && letters.any fun c => (g.lettered? c).isNone then r.notePlain g arg
    else r.noteLetters g letters

/-- Reads the arguments one after the other, up to a subcommand. -/
def scan (g : Grammar) (r : Reading) : List String → Except Usage Parsed
  | [] => if r.awaiting.isSome then .error .wrong else .ok r.parsed
  | arg :: rest =>
    if r.wordsOnly then do scan g (← r.noteWord g arg) rest
    else if r.awaiting.isNone && g.subcommands.contains arg then
      .ok { r.parsed with subcommand := some (arg, rest) }
    else if arg = "--" then
      if r.awaiting.isSome then .error .wrong else scan g { r with wordsOnly := true } rest
    else do scan g (← r.noteArgument g arg) rest

end Reading

def Grammar.read (g : Grammar) (args : List String) : Except Usage Parsed :=
  Reading.scan g {} args

namespace Parsed

def flag (p : Parsed) (name : String) : Bool := (p.given.lookup name).isSome

def value? (p : Parsed) (name : String) : Option String := (p.given.lookup name).bind List.head?

def list (p : Parsed) (name : String) : List String := (p.given.lookup name).getD []

/-- The value of an option that stands for one of several things. -/
def choice {α : Type} (p : Parsed) (name : String) (table : List (String × α)) (otherwise : α) :
    Except Usage α :=
  match p.value? name with
  | none => .ok otherwise
  | some text =>
    match table.lookup text with
    | some x => .ok x
    | none => .error .wrong

/-- The values of a list that has to be given. -/
def required (p : Parsed) (name : String) : Except Usage (List String) :=
  if p.flag name then .ok (p.list name) else .error .wrong

end Parsed

end Muster.CommandLine
