/-!
# Scripts

The commands of a script as a tree: words with their expansions, simple and compound commands, and lists
of pipelines.
-/

namespace Muster.Shell

/-- How a file is opened. -/
inductive Opening
  | read
  | write
  | append
  deriving DecidableEq, Repr

/-- What a word beside a parameter is for. -/
inductive Alternative
  /-- It stands for a parameter that is missing. -/
  | orElse
  /-- It stands for a parameter that is there. -/
  | instead
  /-- It is given to a parameter that is missing. -/
  | assign
  /-- It is the message about a parameter that is missing. -/
  | demand
  deriving DecidableEq, Repr

mutual

/-- A part of a word. What is quoted is not cut into fields. -/
inductive Part
  | text (s : String)
  | quoted (s : String)
  | parameter (name : String) (isQuoted : Bool)
  /-- A parameter with a word for the case that it is not set, or empty where `countsEmpty`. -/
  | alternative (name : String) (use : Alternative) (countsEmpty : Bool) (word : List Part)
    (isQuoted : Bool)
  /-- A parameter without what matches at its start or end, as little or as much as can be. -/
  | cut (name : String) (atEnd longest : Bool) (pattern : List Part) (isQuoted : Bool)
  /-- A parameter with the first match replaced, or every match. -/
  | replaced (name : String) (all : Bool) (pattern replacement : List Part) (isQuoted : Bool)
  | slice (name : String) (start : List Part) (length : Option (List Part)) (isQuoted : Bool)
  /-- A parameter in capitals or small letters, the first of them or all. -/
  | cased (name : String) (isUpper all isQuoted : Bool)
  | length (name : String)
  | capture (body : List Statement) (isQuoted : Bool)
  | arithmetic (expression : List Part)

inductive Redirection
  | file (descriptor : Nat) (opening : Opening) (name : List Part)
  | copy (descriptor : Nat) (source : List Part)
  /-- Both kinds of output into one file. -/
  | both (name : List Part)
  | here (text : List Part)

inductive Command
  | simple (assignments : List (String × List Part)) (words : List (List Part))
    (redirections : List Redirection)
  | redirected (command : Command) (redirections : List Redirection)
  | group (body : List Statement)
  | subshell (body : List Statement)
  | branch (condition body otherwise : List Statement)
  | loop (isUntil : Bool) (condition body : List Statement)
  /-- A loop over words, or over the arguments if none are given. -/
  | each (name : String) (words : Option (List (List Part))) (body : List Statement)
  | counting (start condition step : List Part) (body : List Statement)
  | choice (subject : List Part) (arms : List (List (List Part) × List Statement))
  | arithmetic (expression : List Part)
  | condition (words : List (List Part))
  | define (name : String) (body : Command)

inductive Pipeline
  | mk (isNegated : Bool) (commands : List Command)

/-- Pipelines joined by `&&` (true) and `||` (false), perhaps in the background. -/
inductive Statement
  | mk (first : Pipeline) (rest : List (Bool × Pipeline)) (isBackground : Bool)

end

abbrev Word := List Part

end Muster.Shell
