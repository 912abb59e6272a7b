import Muster.Shell.Script
import Muster.Text.Decimal

/-!
# Reading scripts

A script is read one line of commands at a time, as it is run, so that what stands before an error is run
all the same. The body of a here-document is taken out of the text when its redirection is read.
-/

namespace Muster.Shell.Reader

/-- A reader of characters; `none` for a text that is no command. -/
abbrev Read := StateT (List Char) Option

def advance : Read Unit := modify List.tail

/-- Reads the given text, if it comes next. -/
def accept (s : String) : Read Bool := do
  if s.toList.isPrefixOf (← get) then
    modify (List.drop s.length)
    return true
  else return false

def expect (s : String) : Read Unit := do
  unless ← accept s do failure

/-- Characters that end a word. -/
def isMeta (c : Char) : Bool := " \t\n;&|<>()".toList.contains c

def isNameStart (c : Char) : Bool := c.isAlpha || c = '_'
def isNameChar (c : Char) : Bool := c.isAlphanum || c = '_'

def takeWhile (p : Char → Bool) : Read String := do
  let (taken, rest) := (← get).span p
  set rest
  return String.ofList taken

/-- Passes over blanks, continued lines, and a comment. -/
def blanksOf : List Char → List Char
  | ' ' :: rest | '\t' :: rest => blanksOf rest
  | '\\' :: '\n' :: rest => blanksOf rest
  | '#' :: rest => rest.dropWhile (· ≠ '\n')
  | rest => rest

def blanks : Read Unit := modify blanksOf

/-- Passes over blanks, comments and ends of lines. -/
def newlines : Nat → Read Unit
  | 0 => return
  | n + 1 => do
    blanks
    if ← accept "\n" then newlines n

/-- The word that comes next, if it consists of plain characters only; it is not read. -/
def plainWord : Read String := do
  let (taken, rest) := (← get).span fun c => !isMeta c
  if taken.any ("'\"\\$`".toList.contains ·) then return ""
  if taken.isEmpty && rest.isEmpty then return ""
  return String.ofList taken

/-- Reads a reserved word, if it comes next. -/
def keyword (word : String) : Read Bool := do
  if (← plainWord) = word then
    modify (List.drop word.length)
    return true
  else return false

def reserved : List String := ["then", "do", "done", "fi", "else", "elif", "esac", "\x7d"]

/-- Where a list of commands ends. -/
def atEnd : Read Bool := do
  match ← get with
  | [] => return true
  | ')' :: _ => return true
  | ';' :: ';' :: _ => return true
  | _ => return reserved.contains (← plainWord)

/-- The text up to `stop`, which is read as well. -/
def upTo (stop : Char) : Read String := do
  let s ← takeWhile (· ≠ stop)
  expect stop.toString
  return s

/-- The character of a letter behind a backslash. -/
def escapeLetter? : Char → Option Char
  | 'n' => some '\n' | 't' => some '\t' | 'r' => some '\r' | 'a' => some '\x07' | 'b' => some '\x08'
  | 'f' => some '\x0c' | 'v' => some '\x0b' | 'e' => some '\x1b' | '\\' => some '\\'
  | '\'' => some '\'' | '"' => some '"' | _ => none

/-- The text of `$'...'` behind its opening. -/
def escapedText : Nat → Read String
  | 0 => failure
  | n + 1 => do
    match ← get with
    | '\'' :: rest => set rest; return ""
    | '\\' :: 'x' :: rest =>
      let (code, rest) := Text.digitsUpTo 16 2 0 rest
      set rest
      return (Char.ofNat code).toString ++ (← escapedText n)
    | '\\' :: c :: rest =>
      set rest
      match escapeLetter? c with
      | some c => return c.toString ++ (← escapedText n)
      | none => return "\\" ++ c.toString ++ (← escapedText n)
    | c :: rest => set rest; return c.toString ++ (← escapedText n)
    | [] => failure

/-- The number of closing brackets that are missing after a text. -/
def arithmeticText (depth : Nat) (read : List Char) : List Char → Option (String × List Char)
  | [] => none
  | ')' :: ')' :: rest =>
    if depth = 0 then some (String.ofList read.reverse, rest)
    else arithmeticText (depth - 1) (')' :: read) (')' :: rest)
  | '(' :: rest => arithmeticText (depth + 1) ('(' :: read) rest
  | ')' :: rest => arithmeticText (depth - 1) (')' :: read) rest
  | c :: rest => arithmeticText depth (c :: read) rest

/-- The text up to the brace that closes it. -/
def bracedText (depth : Nat) (read : List Char) : List Char → Option (String × List Char)
  | [] => none
  | '\\' :: c :: rest => bracedText depth (c :: '\\' :: read) rest
  | '$' :: '\x7b' :: rest => bracedText (depth + 1) ('\x7b' :: '$' :: read) rest
  | '\x7d' :: rest =>
    if depth = 0 then some (String.ofList read.reverse, rest)
    else bracedText (depth - 1) ('\x7d' :: read) rest
  | c :: rest => bracedText depth (c :: read) rest

/-- What the sign before a word beside a parameter says of it. -/
def alternative? : Char → Option Alternative
  | '-' => some .orElse
  | '+' => some .instead
  | '=' => some .assign
  | '?' => some .demand
  | _ => none

/-- The lines of a here-document, and the text without them. -/
def hereLines (delimiter : String) (stripsTabs : Bool) : List (List Char) → List Char × List (List Char)
  | [] => ([], [])
  | line :: rest =>
    let line := if stripsTabs then line.dropWhile (· = '\t') else line
    if String.ofList line = delimiter then ([], rest)
    else
      let (body, rest) := hereLines delimiter stripsTabs rest
      (line ++ '\n' :: body, rest)

def linesOf (s : List Char) : List (List Char) :=
  s.foldr (fun c lines => match c, lines with
    | '\n', lines => [] :: lines
    | c, line :: lines => (c :: line) :: lines
    | c, [] => [[c]]) [[]]

/-- Takes the body of a here-document out of the lines that follow. -/
def takeHere (delimiter : String) (stripsTabs : Bool) : Read String := do
  let (line, rest) := (← get).span (· ≠ '\n')
  let (body, rest) := hereLines delimiter stripsTabs (linesOf rest.tail)
  set (line ++ '\n' :: List.intercalate ['\n'] rest)
  return String.ofList body

/-- The text of the delimiter of a here-document, and whether it was quoted. -/
def delimiter (w : Word) : String × Bool :=
  w.foldl (fun (s, isQuoted) part => match part with
    | .text t => (s ++ t, isQuoted)
    | .quoted t => (s ++ t, true)
    | _ => (s, isQuoted)) ("", false)

/-- Adds a character to the end of a word. -/
def addText (c : Char) : Word → Word
  | .text t :: rest => .text (c.toString ++ t) :: rest
  | w => .text c.toString :: w

def addQuoted (c : Char) : Word → Word
  | .quoted t :: rest => .quoted (c.toString ++ t) :: rest
  | w => .quoted c.toString :: w

mutual

/-- The parts of a word up to a character that ends it. -/
def parts : Nat → Read Word
  | 0 => failure
  | n + 1 => do
    match ← get with
    | [] => return []
    | '\'' :: rest =>
      set rest
      let s ← upTo '\''
      return .quoted s :: (← parts n)
    | '"' :: rest =>
      set rest
      let inner ← quotedParts n true
      return .quoted "" :: inner ++ (← parts n)
    | '\\' :: '\n' :: rest => set rest; parts n
    | ['\\'] => set ([] : List Char); return []
    | '\\' :: c :: rest => set rest; return addQuoted c (← parts n)
    | '$' :: '\'' :: rest =>
      set rest
      let s ← escapedText n
      return .quoted s :: (← parts n)
    | '$' :: rest =>
      set rest
      let part ← dollar n false
      return part :: (← parts n)
    | '`' :: rest =>
      set rest
      let part ← backquoted n false
      return part :: (← parts n)
    | c :: rest =>
      if isMeta c then return []
      set rest
      return addText c (← parts n)

/-- The parts between double quotes, or of a here-document, which has no closing quote. -/
def quotedParts : Nat → Bool → Read Word
  | 0, _ => failure
  | n + 1, isClosed => do
    match ← get with
    | [] => if isClosed then failure else return []
    | '\\' :: '\n' :: rest => set rest; quotedParts n isClosed
    | '\\' :: c :: rest =>
      set rest
      if "$`\\".toList.contains c || (c = '"' && isClosed) then
        return addQuoted c (← quotedParts n isClosed)
      else return addQuoted '\\' (addQuoted c (← quotedParts n isClosed))
    | '$' :: rest =>
      set rest
      let part ← dollar n true
      return part :: (← quotedParts n isClosed)
    | '`' :: rest =>
      set rest
      let part ← backquoted n true
      return part :: (← quotedParts n isClosed)
    | c :: rest =>
      set rest
      if c = '"' && isClosed then return []
      return addQuoted c (← quotedParts n isClosed)

/-- A command between backquotes. -/
def backquoted : Nat → Bool → Read Part
  | 0, _ => failure
  | n + 1, isQuoted => do
    let inner ← upTo '`'
    let rest ← get
    set inner.toList
    let body ← statements n
    unless (← get).isEmpty do failure
    set rest
    return .capture body isQuoted

/-- What stands behind a dollar sign. -/
def dollar : Nat → Bool → Read Part
  | 0, _ => failure
  | n + 1, isQuoted => do
    match ← get with
    | '(' :: '(' :: rest =>
      match arithmeticText 0 [] rest with
      | some (s, rest) =>
        set s.toList
        let expression ← quotedParts n false
        set rest
        return .arithmetic expression
      | none => failure
    | '(' :: rest =>
      set rest
      let body ← statements n
      expect ")"
      return .capture body isQuoted
    | '\x7b' :: '#' :: rest =>
      set rest
      let name ← upTo '\x7d'
      return .length name
    | '\x7b' :: rest =>
      set rest
      let name ← parameterName
      match bracedText 0 [] (← get) with
      | none => failure
      | some (s, rest) =>
        set s.toList
        let part ← modified n name isQuoted
        unless (← get).isEmpty do failure
        set rest
        return part
    | c :: rest =>
      if isNameStart c then
        return .parameter (← takeWhile isNameChar) isQuoted
      if c.isDigit || "@*#?$!-".toList.contains c then
        set rest
        return .parameter c.toString isQuoted
      return if isQuoted then .quoted "$" else .text "$"
    | [] => return if isQuoted then .quoted "$" else .text "$"

/-- What is left to read, as a word in which blanks have no meaning. -/
def restAsWord : Nat → Bool → Read Word
  | 0, _ => failure
  | n + 1, isQuoted => do
    if isQuoted then
      modify fun s => s.filter (· ≠ '"')
      quotedParts n false
    else
      let w ← parts n
      match ← get with
      | [] => return w
      | c :: rest =>
        set rest
        return w ++ .text c.toString :: (← restAsWord n isQuoted)

/-- Reads what is to be done with a parameter between braces. -/
def modified : Nat → String → Bool → Read Part
  | 0, _, _ => failure
  | n + 1, name, isQuoted => do
    match ← get with
    | [] => return .parameter name isQuoted
    | '#' :: '#' :: rest => set rest; return .cut name false true (← restAsWord n false) isQuoted
    | '#' :: rest => set rest; return .cut name false false (← restAsWord n false) isQuoted
    | '%' :: '%' :: rest => set rest; return .cut name true true (← restAsWord n false) isQuoted
    | '%' :: rest => set rest; return .cut name true false (← restAsWord n false) isQuoted
    | '^' :: '^' :: rest => set rest; return .cased name true true isQuoted
    | '^' :: rest => set rest; return .cased name true false isQuoted
    | ',' :: ',' :: rest => set rest; return .cased name false true isQuoted
    | ',' :: rest => set rest; return .cased name false false isQuoted
    | '/' :: rest =>
      let all := rest.head? = some '/'
      let (pattern, replacement) := (if all then rest.tail else rest).span (· ≠ '/')
      set pattern
      let pattern ← restAsWord n false
      set replacement.tail
      return .replaced name all pattern (← restAsWord n isQuoted) isQuoted
    | ':' :: rest =>
      match rest with
      | c :: after =>
        match alternative? c with
        | some use =>
          set after
          return .alternative name use true (← restAsWord n isQuoted) isQuoted
        | none =>
          let (start, length) := rest.span (· ≠ ':')
          set start
          let start ← quotedParts n false
          if length.isEmpty then return .slice name start none isQuoted
          set length.tail
          return .slice name start (some (← quotedParts n false)) isQuoted
      | [] => failure
    | c :: rest =>
      match alternative? c with
      | some use =>
        set rest
        return .alternative name use false (← restAsWord n isQuoted) isQuoted
      | none => failure

/-- The name of a parameter between braces. -/
def parameterName : Read String := do
  match ← get with
  | c :: rest =>
    if isNameStart c then takeWhile isNameChar
    else if c.isDigit then takeWhile Char.isDigit
    else if "@*#?$!-".toList.contains c then
      set rest
      return c.toString
    else failure
  | [] => failure

/-- A word, if one comes next. -/
def word : Nat → Read (Option Word)
  | 0 => failure
  | n + 1 => do
    blanks
    match ← parts n with
    | [] => return none
    | w => return some w

/-- A redirection, if one comes next. -/
def redirection : Nat → Read (Option Redirection)
  | 0 => failure
  | n + 1 => do
    blanks
    let before ← get
    let digits ← takeWhile Char.isDigit
    let descriptor? := Text.natural? digits.toList
    let named (f : Word → Redirection) : Read (Option Redirection) := do
      match ← word n with
      | some w => return some (f w)
      | none => failure
    if ← accept "<<<" then
      named fun w => .here (w ++ [.quoted "\n"])
    else if ← accept "<<" then
      let stripsTabs ← accept "-"
      match ← word n with
      | none => failure
      | some w =>
        let (stop, isQuoted) := delimiter w
        let body ← takeHere stop stripsTabs
        if isQuoted then return some (.here [.quoted body])
        let rest ← get
        set body.toList
        let inner ← quotedParts n false
        set rest
        return some (.here inner)
    else if ← accept "<&" then named (.copy (descriptor?.getD 0))
    else if ← accept "<" then named (.file (descriptor?.getD 0) .read)
    else if ← accept ">>" then named (.file (descriptor?.getD 1) .append)
    else if ← accept ">&" then named (.copy (descriptor?.getD 1))
    else if ← accept ">|" then named (.file (descriptor?.getD 1) .write)
    else if ← accept ">" then named (.file (descriptor?.getD 1) .write)
    else if digits = "" && (← accept "&>") then named .both
    else
      set before
      return none

def redirections : Nat → Read (List Redirection)
  | 0 => failure
  | n + 1 => do
    match ← redirection n with
    | some r => return r :: (← redirections n)
    | none => return []

/-- The words and redirections of a simple command. -/
def simpleParts : Nat → Read (List Word × List Redirection)
  | 0 => failure
  | n + 1 => do
    match ← redirection n with
    | some r =>
      let (words, rs) ← simpleParts n
      return (words, r :: rs)
    | none =>
      match ← word n with
      | some w =>
        let (words, rs) ← simpleParts n
        return (w :: words, rs)
      | none => return ([], [])

/-- Words up to the end of a line or a semicolon. -/
def words : Nat → Read (List Word)
  | 0 => failure
  | n + 1 => do
    match ← word n with
    | some w => return w :: (← words n)
    | none => return []

/-- The rest of a choice after a condition and its body. -/
def branchTail : Nat → Read (List Statement)
  | 0 => failure
  | n + 1 => do
    if ← keyword "fi" then return []
    if ← keyword "else" then
      let body ← statements n
      unless ← keyword "fi" do failure
      return body
    unless ← keyword "elif" do failure
    let c ← branch n
    return [.mk (.mk false [c]) [] false]

/-- A choice after its first word. -/
def branch : Nat → Read Command
  | 0 => failure
  | n + 1 => do
    let condition ← statements n
    unless ← keyword "then" do failure
    let body ← statements n
    let otherwise ← branchTail n
    return .branch condition body otherwise

/-- The body of a loop. -/
def loopBody : Nat → Read (List Statement)
  | 0 => failure
  | n + 1 => do
    newlines n
    let _ ← accept ";"
    newlines n
    unless ← keyword "do" do failure
    let body ← statements n
    unless ← keyword "done" do failure
    return body

/-- The patterns of an arm, up to the closing bracket. -/
def armPatterns : Nat → Read (List Word)
  | 0 => failure
  | n + 1 => do
    match ← word n with
    | none => failure
    | some w =>
      blanks
      if ← accept "|" then return w :: (← armPatterns n)
      expect ")"
      return [w]

def arms : Nat → Read (List (List Word × List Statement))
  | 0 => failure
  | n + 1 => do
    newlines n
    if ← keyword "esac" then return []
    let _ ← accept "("
    let patterns ← armPatterns n
    let body ← statements n
    let _ ← accept ";;"
    return (patterns, body) :: (← arms n)

/-- The words of `[[ ... ]]`. -/
def conditionWords : Nat → Read (List Word)
  | 0 => failure
  | n + 1 => do
    blanks
    if ← accept "]]" then return []
    if ← accept "&&" then return [.quoted "&&"] :: (← conditionWords n)
    if ← accept "||" then return [.quoted "||"] :: (← conditionWords n)
    if ← accept "<" then return [.quoted "<"] :: (← conditionWords n)
    if ← accept ">" then return [.quoted ">"] :: (← conditionWords n)
    match ← word n with
    | some w => return w :: (← conditionWords n)
    | none => failure

/-- A compound command, if one comes next. -/
def compound? : Nat → Read (Option Command)
  | 0 => failure
  | n + 1 => do
    match ← get with
    | '(' :: '(' :: rest =>
      match arithmeticText 0 [] rest with
      | some (s, rest) =>
        set s.toList
        let expression ← quotedParts n false
        set rest
        return some (.arithmetic expression)
      | none => failure
    | '(' :: rest =>
      set rest
      let body ← statements n
      expect ")"
      return some (.subshell body)
    | _ =>
      if ← keyword "\x7b" then
        let body ← statements n
        unless ← keyword "\x7d" do failure
        return some (.group body)
      if ← keyword "if" then return some (← branch n)
      if ← keyword "while" then
        let condition ← statements n
        return some (.loop false condition (← loopBody n))
      if ← keyword "until" then
        let condition ← statements n
        return some (.loop true condition (← loopBody n))
      if ← keyword "for" then
        blanks
        if ← accept "((" then
          match arithmeticText 0 [] (← get) with
          | none => failure
          | some (s, rest) =>
            match s.splitOn ";" with
            | [a, b, c] =>
              set a.toList
              let start ← quotedParts n false
              set b.toList
              let condition ← quotedParts n false
              set c.toList
              let step ← quotedParts n false
              set rest
              return some (.counting start condition step (← loopBody n))
            | _ => failure
        let name ← takeWhile isNameChar
        newlines n
        if ← keyword "in" then
          let ws ← words n
          return some (.each name (some ws) (← loopBody n))
        return some (.each name none (← loopBody n))
      if ← keyword "case" then
        match ← word n with
        | none => failure
        | some subject =>
          newlines n
          unless ← keyword "in" do failure
          return some (.choice subject (← arms n))
      if ← keyword "[[" then return some (.condition (← conditionWords n))
      if ← keyword "function" then
        blanks
        let name ← takeWhile (!isMeta ·)
        blanks
        let _ ← accept "()"
        newlines n
        match ← compound? n with
        | some body => return some (.define name body)
        | none => failure
      return none

/-- The assignments before the words of a simple command. -/
def assignments : List Word → List (String × Word) × List Word
  | [] => ([], [])
  | w :: rest =>
    match w with
    | .text t :: parts =>
      match t.toList.span (· ≠ '=') with
      | (name, '=' :: value) =>
        if name.head?.any isNameStart && name.all isNameChar then
          let (more, words) := assignments rest
          let value : Word := if value.isEmpty then parts else .text (String.ofList value) :: parts
          ((String.ofList name, value) :: more, words)
        else ([], w :: rest)
      | _ => ([], w :: rest)
    | _ => ([], w :: rest)

def command : Nat → Read Command
  | 0 => failure
  | n + 1 => do
    blanks
    match ← compound? n with
    | some c =>
      match ← redirections n with
      | [] => return c
      | rs => return .redirected c rs
    | none =>
      let name ← plainWord
      if reserved.contains name then failure
      let before ← get
      modify (List.drop name.length)
      blanks
      if name ≠ "" && (← accept "()") then
        newlines n
        match ← compound? n with
        | some body => return .define name body
        | none => failure
      set before
      let (ws, rs) ← simpleParts n
      if ws.isEmpty && rs.isEmpty then failure
      let (assigned, ws) := assignments ws
      return .simple assigned ws rs

/-- Commands joined by pipes. -/
def commands : Nat → Read (List Command)
  | 0 => failure
  | n + 1 => do
    let c ← command n
    blanks
    if "||".toList.isPrefixOf (← get) then return [c]
    if ← accept "|" then
      newlines n
      return c :: (← commands n)
    return [c]

def pipeline : Nat → Read Pipeline
  | 0 => failure
  | n + 1 => do
    blanks
    if ← keyword "!" then
      return .mk true (← commands n)
    return .mk false (← commands n)

def joined : Nat → Read (List (Bool × Pipeline))
  | 0 => failure
  | n + 1 => do
    blanks
    if ← accept "&&" then
      newlines n
      let p ← pipeline n
      return (true, p) :: (← joined n)
    if ← accept "||" then
      newlines n
      let p ← pipeline n
      return (false, p) :: (← joined n)
    return []

/-- One statement with the mark that ends it. -/
def statement : Nat → Read Statement
  | 0 => failure
  | n + 1 => do
    let first ← pipeline n
    let rest ← joined n
    blanks
    if ";;".toList.isPrefixOf (← get) then return .mk first rest false
    if ← accept "&" then return .mk first rest true
    let _ ← accept ";"
    return .mk first rest false

/-- The statements up to the end of a list. -/
def statements : Nat → Read (List Statement)
  | 0 => failure
  | n + 1 => do
    newlines n
    if ← atEnd then return []
    let s ← statement n
    return s :: (← statements n)

/-- The statements up to the end of a line. -/
def lineStatements : Nat → Read (List Statement)
  | 0 => failure
  | n + 1 => do
    blanks
    match ← get with
    | [] => return []
    | '\n' :: rest => set rest; return []
    | _ =>
      let s ← statement n
      return s :: (← lineStatements n)

end

end Reader

/-- What comes next of a script. -/
inductive Next
  | done
  | line (statements : List Statement) (rest : List Char)
  | flawed

/-- Reads the next line of commands. -/
def next (script : List Char) : Next :=
  match script with
  | [] => .done
  | _ =>
    match Reader.lineStatements (16 * script.length + 64) script with
    | some (statements, rest) => .line statements rest
    | none => .flawed

end Muster.Shell
