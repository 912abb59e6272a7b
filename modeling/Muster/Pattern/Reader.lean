import Muster.Pattern.Engine
import Muster.Pattern.Matching
import Muster.Pattern.Property
import Muster.Text.Decimal
import Muster.Text.Split

/-!
# Reading patterns

The text of a pattern as an expression. Flags in a group hold up to its end; a name may be given to a
group once. Look-around and references back are refused, and so is a pattern that would take up too much
room.
-/

namespace Muster.Pattern

/-- Why a text is no pattern. -/
inductive Flaw
  | unclosedGroup
  | unopenedGroup
  | unclosedSet
  | nothingToRepeat
  | badCount
  | badEscape
  | badRange
  | badFlag
  | badName
  | lookAround
  | backReference
  | unknownProperty
  | needsUnicode
  | tooDeep
  | tooLarge
  deriving DecidableEq, Repr

def Flaw.message (flaw : Flaw) : String :=
  "regex parse error: " ++ match flaw with
    | unclosedGroup => "unclosed group"
    | unopenedGroup => "unopened group"
    | unclosedSet => "unclosed character class"
    | nothingToRepeat => "repetition operator missing expression"
    | badCount => "invalid repetition count"
    | badEscape => "invalid escape sequence"
    | badRange => "invalid character class range"
    | badFlag => "invalid flags"
    | badName => "invalid capture group name"
    | lookAround => "look-around is not supported"
    | backReference => "backreferences are not supported"
    | unknownProperty => "Unicode property not found"
    | needsUnicode => "pattern can match invalid UTF-8"
    | tooDeep => "pattern is nested too deep"
    | tooLarge => "pattern exceeds the size limit"

structure Flags where
  anyCase : Bool := false
  lines : Bool := false
  dotAll : Bool := false
  lazy : Bool := false
  unicode : Bool := true
  anyLineEnd : Bool := false
  extended : Bool := false
  deriving DecidableEq, Repr

/-- One thing that an escape or a character stands for. -/
inductive Atom
  | literal (c : Char)
  | set (s : CharSet)
  | assertion (a : Assertion)

abbrev Rest := List Char

/-- Passes over blanks and comments where the flags say that they do not count. -/
def skipFrom (comment : Bool) : Rest → Rest
  | [] => []
  | c :: rest =>
    if comment then skipFrom (c != '\n') rest
    else if Text.isBlank c then skipFrom false rest
    else if c = '#' then skipFrom true rest
    else c :: rest

def skip (f : Flags) (s : Rest) : Rest := if f.extended then skipFrom false s else s

/-! ### Sets with a name -/

def asciiDigits : CharSet := .range '0' '9'
def asciiLetters : CharSet := .ofRanges [('a', 'z'), ('A', 'Z')]
def asciiWords : CharSet := .union asciiLetters (.union asciiDigits (.single '_'))
def asciiSpace : CharSet := .ofRanges [('\t', '\r'), (' ', ' ')]

/-- The sets that have a name between colons. -/
def namedSet? (name : List Char) : Option CharSet :=
  match String.ofList name with
  | "alnum" => some (.union asciiLetters asciiDigits)
  | "alpha" => some asciiLetters
  | "ascii" => some (.range '\x00' '\x7f')
  | "blank" => some (.ofRanges [('\t', '\t'), (' ', ' ')])
  | "cntrl" => some (.ofRanges [('\x00', '\x1f'), ('\x7f', '\x7f')])
  | "digit" => some asciiDigits
  | "graph" => some (.range '!' '~')
  | "lower" => some (.range 'a' 'z')
  | "print" => some (.range ' ' '~')
  | "punct" => some (.ofRanges [('!', '/'), (':', '@'), ('[', '\x60'), ('\x7b', '~')])
  | "space" => some asciiSpace
  | "upper" => some (.range 'A' 'Z')
  | "word" => some asciiWords
  | "xdigit" => some (.ofRanges [('0', '9'), ('A', 'F'), ('a', 'f')])
  | _ => none

/-- The set of a letter as `d`, or its complement for the capital. -/
def letterSet (f : Flags) (letter : Char) : Except Flaw CharSet :=
  let plain : CharSet := match letter.toLower with
    | 'd' => if f.unicode then .property .decimal else asciiDigits
    | 's' => if f.unicode then .property .blank else asciiSpace
    | _ => if f.unicode then .property .word else asciiWords
  if letter.isLower then .ok plain
  else if f.unicode then .ok (.compl plain)
  else .error .needsUnicode

/-- With all case variants, where the flags ask for them. -/
def cased (f : Flags) (s : CharSet) : CharSet := if f.anyCase then .anyCase s else s

/-! ### Escapes -/

/-- Characters that a backslash makes stand for themselves. -/
def canEscape (c : Char) : Bool := c.toNat < 128 && !c.isAlphanum && c != '<' && c != '>'

def hexValue? (digits : List Char) : Option Nat :=
  digits.foldlM (fun n c => (Text.hexDigit? c).map (n * 16 + ·)) 0

def hexChar (f : Flags) (digits : List Char) : Except Flaw Atom :=
  match hexValue? digits with
  | none => .error .badEscape
  | some n =>
    if digits.isEmpty || !(n < 0xD800 || (0xE000 ≤ n && n < 0x110000)) then .error .badEscape
    else if !f.unicode && 128 ≤ n then .error .needsUnicode
    else .ok (.literal (Char.ofNat n))

/-- What stands before a closing brace. -/
def braced? (s : Rest) : Option (List Char × Rest) := Text.splitOnce? '\x7d' s

def readHex (f : Flags) (width : Nat) (s : Rest) : Except Flaw (Atom × Rest) :=
  match s with
  | '\x7b' :: rest =>
    match braced? rest with
    | none => .error .badEscape
    | some (digits, rest) => (hexChar f digits).map fun a => (a, rest)
  | s =>
    if s.length < width then .error .badEscape
    else (hexChar f (s.take width)).map fun a => (a, s.drop width)

/-- A property by one letter, or by what stands between braces. -/
def readProperty (f : Flags) (negated : Bool) (s : Rest) : Except Flaw (Atom × Rest) := do
  let (found, negated, rest) ← match s with
    | [] | '\\' :: _ => .error .badEscape
    | '\x7b' :: rest =>
      match braced? rest with
      | none => .error .badEscape
      | some (name, rest) =>
        match Text.splitOnce? '=' name with
        | some (name, value) =>
          if name.getLast? = some '!' then
            .ok (Property.ofValue? name.dropLast value, !negated, rest)
          else .ok (Property.ofValue? name value, negated, rest)
        | none =>
          match Text.splitOnce? ':' name with
          | some (name, value) => .ok (Property.ofValue? name value, negated, rest)
          | none => .ok (Property.ofName? name, negated, rest)
    | c :: rest => .ok (Property.ofName? [c], negated, rest)
  if !f.unicode then .error .needsUnicode
  match found with
  | none => .error .unknownProperty
  | some p =>
    let set := cased f (.property p)
    return (.set (if negated then .compl set else set), rest)

/-- The kinds of word edge that can be named. -/
def edge? (f : Flags) (name : List Char) : Option Assertion :=
  match String.ofList name with
  | "start" => some (.wordStart f.unicode)
  | "end" => some (.wordEnd f.unicode)
  | "start-half" => some (.noWordBefore f.unicode)
  | "end-half" => some (.noWordAfter f.unicode)
  | _ => none

/-- A word edge, which a name between braces can make special. Braces that hold a number are a count. -/
def readEdge (f : Flags) (s : Rest) : Except Flaw (Atom × Rest) :=
  match s with
  | '\x7b' :: c :: rest =>
    if c.isAlpha || c = '-' then
      match braced? (c :: rest) with
      | none => .error .badEscape
      | some (name, rest) =>
        match edge? f name with
        | some a => .ok (.assertion a, rest)
        | none => .error .badEscape
    else .ok (.assertion (.wordEdge f.unicode), s)
  | s => .ok (.assertion (.wordEdge f.unicode), s)

/-- What stands behind a backslash. -/
def readEscape (f : Flags) (s : Rest) : Except Flaw (Atom × Rest) :=
  match s with
  | [] => .error .badEscape
  | c :: rest =>
    if c.isDigit then .error .backReference
    else match c with
      | 'x' => readHex f 2 rest
      | 'u' => readHex f 4 rest
      | 'U' => readHex f 8 rest
      | 'p' => readProperty f false rest
      | 'P' => readProperty f true rest
      | 'd' | 's' | 'w' | 'D' | 'S' | 'W' => (letterSet f c).map fun s => (.set s, rest)
      | 'a' => .ok (.literal '\x07', rest)
      | 'f' => .ok (.literal '\x0c', rest)
      | 't' => .ok (.literal '\t', rest)
      | 'n' => .ok (.literal '\n', rest)
      | 'r' => .ok (.literal '\r', rest)
      | 'v' => .ok (.literal '\x0b', rest)
      | 'A' => .ok (.assertion .textStart, rest)
      | 'z' => .ok (.assertion .textEnd, rest)
      | 'b' => readEdge f rest
      | 'B' => .ok (.assertion (.noWordEdge f.unicode), rest)
      | '<' => .ok (.assertion (.wordStart f.unicode), rest)
      | '>' => .ok (.assertion (.wordEnd f.unicode), rest)
      | c => if canEscape c then .ok (.literal c, rest) else .error .badEscape

/-! ### Sets in brackets -/

/-- How the sets on both sides of a double sign are put together. -/
inductive SetOp
  | inter
  | minus
  | oneOf

def SetOp.apply : SetOp → CharSet → CharSet → CharSet
  | inter, a, b => .inter a b
  | minus, a, b => .minus a b
  | oneOf, a, b => .oneOf a b

/-- What has been read of a set: the left side of a pending sign, and the items after it. -/
structure PartialSet where
  left : Option (CharSet × SetOp) := none
  items : CharSet := .empty

def PartialSet.add (p : PartialSet) (s : CharSet) : PartialSet := { p with items := .union p.items s }

def PartialSet.close (f : Flags) (p : PartialSet) : CharSet :=
  match p.left with
  | none => p.items
  | some (left, op) => op.apply (cased f left) (cased f p.items)

def PartialSet.sign (f : Flags) (p : PartialSet) (op : SetOp) : PartialSet :=
  ⟨some (p.close f, op), .empty⟩

/-- A named set between brackets and colons. -/
def readNamed? : Rest → Option (CharSet × Rest)
  | '[' :: ':' :: rest =>
    let (negated, rest) := match rest with
      | '^' :: rest => (true, rest)
      | rest => (false, rest)
    match Text.splitOnce? ':' rest with
    | some (name, ']' :: rest) =>
      (namedSet? name).map fun s => (if negated then .compl s else s, rest)
    | _ => none
  | _ => none

/-- One character or set of a set. -/
def readMember (f : Flags) : Rest → Except Flaw (Atom × Rest)
  | [] => .error .unclosedSet
  | '\\' :: rest => readEscape f rest
  | c :: rest => .ok (.literal c, rest)

/-- A character, a set, or a range between two characters. -/
def readRange (f : Flags) (s : Rest) : Except Flaw (CharSet × Rest) := do
  let (first, rest) ← readMember f s
  let rest := skip f rest
  let alone : Except Flaw (CharSet × Rest) := match first with
    | .literal c => .ok (.single c, rest)
    | .set s => .ok (s, rest)
    | .assertion _ => .error .badEscape
  match rest with
  | [] => .error .unclosedSet
  | '-' :: after =>
    match skip f after with
    | ']' :: _ | '-' :: _ => alone
    | [] => .error .unclosedSet
    | after =>
      let (last, rest) ← readMember f after
      match first, last with
      | .literal lo, .literal hi => if lo ≤ hi then .ok (.range lo hi, rest) else .error .badRange
      | _, _ => .error .badRange
  | _ => alone

/-- The sign and the dashes after an opening bracket, and a bracket that stands for itself there. -/
def openSet (f : Flags) (s : Rest) : Bool × PartialSet × Rest :=
  let s := skip f s
  let (negated, s) := match s with
    | '^' :: rest => (true, skip f rest)
    | s => (false, s)
  let dashes := s.takeWhile (· = '-')
  let s := skip f (s.drop dashes.length)
  let p : PartialSet := if dashes.isEmpty then {} else PartialSet.add {} (.single '-')
  match s with
  | ']' :: rest => if dashes.isEmpty then (negated, p.add (.single ']'), rest) else (negated, p, s)
  | s => (negated, p, s)

/-- The items of a set up to its closing bracket. -/
def readItems (f : Flags) : Nat → Bool → PartialSet → Rest → Except Flaw (CharSet × Rest)
  | 0, _, _, _ => .error .tooDeep
  | fuel + 1, negated, p, s =>
    match skip f s with
    | [] => .error .unclosedSet
    | ']' :: rest =>
      let set := cased f (p.close f)
      if !negated then .ok (set, rest)
      else if f.unicode then .ok (.compl set, rest)
      else .error .needsUnicode
    | '&' :: '&' :: rest => readItems f fuel negated (p.sign f .inter) rest
    | '-' :: '-' :: rest => readItems f fuel negated (p.sign f .minus) rest
    | '~' :: '~' :: rest => readItems f fuel negated (p.sign f .oneOf) rest
    | '[' :: rest =>
      match readNamed? ('[' :: rest) with
      | some (set, rest) => readItems f fuel negated (p.add set) rest
      | none => do
        let (innerNegated, inner, rest) := openSet f rest
        let (set, rest) ← readItems f fuel innerNegated inner rest
        readItems f fuel negated (p.add set) rest
    | s => do
      let (set, rest) ← readRange f s
      readItems f fuel negated (p.add set) rest

def readSet (f : Flags) (s : Rest) : Except Flaw (CharSet × Rest) :=
  let (negated, p, rest) := openSet f s
  readItems f (s.length + 1) negated p rest

/-! ### Counts, flags and names -/

def dropBlanks (s : Rest) : Rest := s.dropWhile Text.isBlank

/-- A number of a count, if digits stand there. -/
def readCount (s : Rest) : Except Flaw (Option Nat × Rest) :=
  let s := dropBlanks s
  let digits := s.takeWhile Char.isDigit
  let n := digits.foldl (fun n c => n * 10 + (c.toNat - 48)) 0
  if Width.count32 ≤ n then .error .badCount
  else .ok (if digits.isEmpty then none else some n, dropBlanks (s.drop digits.length))

/-- The count behind an opening brace, up to the closing one. -/
def readCounts (s : Rest) : Except Flaw (Nat × Option Nat × Rest) := do
  match ← readCount s with
  | (some lo, '\x7d' :: rest) => .ok (lo, some lo, rest)
  | (some lo, ',' :: '\x7d' :: rest) => .ok (lo, none, rest)
  | (some lo, ',' :: rest) =>
    match ← readCount rest with
    | (some hi, '\x7d' :: rest) => if lo ≤ hi then .ok (lo, some hi, rest) else .error .badCount
    | _ => .error .badCount
  | _ => .error .badCount

def setFlag? (f : Flags) (letter : Char) (on : Bool) : Option Flags :=
  match letter with
  | 'i' => some { f with anyCase := on }
  | 'm' => some { f with lines := on }
  | 's' => some { f with dotAll := on }
  | 'U' => some { f with lazy := on }
  | 'u' => some { f with unicode := on }
  | 'R' => some { f with anyLineEnd := on }
  | 'x' => some { f with extended := on }
  | _ => none

/-- Flags up to a colon or a closing parenthesis. Each may be named once, and the minus sign too. -/
def readFlags (f : Flags) (on : Bool) (seen : List Char) :
    Rest → Except Flaw (Flags × List Char × Char × Rest)
  | [] => .error .badFlag
  | c :: rest =>
    if c = ':' || c = ')' then
      if seen.head? = some '-' then .error .badFlag else .ok (f, seen, c, rest)
    else if seen.contains c then .error .badFlag
    else if c = '-' then readFlags f false (c :: seen) rest
    else match setFlag? f c on with
      | some f => readFlags f on (c :: seen) rest
      | none => .error .badFlag

def isNameChar (first : Bool) (c : Char) : Bool :=
  c = '_' || Property.alphabetic.holds c ||
    (!first && (c = '.' || c = '[' || c = ']' || Text.category c ∈ [.nd, .nl, .no]))

/-- The name of a group up to its closing bracket. -/
def readName (seen : List (List Char)) (s : Rest) : Except Flaw (List Char × Rest) :=
  match Text.splitOnce? '>' s with
  | none => .error .badName
  | some (name, rest) =>
    match name with
    | [] => .error .badName
    | c :: more =>
      if isNameChar true c && more.all (isNameChar false) && !seen.contains name then .ok (name, rest)
      else .error .badName

/-! ### Expressions -/

def dot (f : Flags) : CharSet :=
  if f.dotAll then .property .any
  else if f.anyLineEnd then .compl (.ofRanges [('\n', '\n'), ('\r', '\r')])
  else .compl (.single '\n')

def lineStart (f : Flags) : Assertion :=
  if !f.lines then .textStart else if f.anyLineEnd then .anyLineStart else .lineStart

def lineEnd (f : Flags) : Assertion :=
  if !f.lines then .textEnd else if f.anyLineEnd then .anyLineEnd else .lineEnd

/-- The expression of an atom. Case variants are letters of ASCII alone without Unicode. -/
def Atom.regex (f : Flags) : Atom → Except Flaw Regex
  | literal c =>
    if !f.anyCase then .ok (.chars (.single c))
    else if f.unicode then .ok (.chars (.anyCase (.single c)))
    else .ok (.chars (.union (.single c.toLower) (.single c.toUpper)))
  | set s => .ok (.chars s)
  | assertion a => .ok (.assertion a)

/-- What has been read of a pattern: the flags that hold now and the names that are taken. -/
structure Progress where
  flags : Flags := {}
  names : List (List Char) := []

/-- The part of a sequence that is read: what stands before the last item, and that item, which may be
repeated. -/
structure Sequence where
  before : Regex := .empty
  last : Option Regex := none

def Sequence.whole (q : Sequence) : Regex :=
  match q.last with
  | none => q.before
  | some r => if q.before = .empty then r else .seq q.before r

def Sequence.push (q : Sequence) (r : Regex) : Sequence := ⟨q.whole, some r⟩

def Sequence.repeat (q : Sequence) (lo : Nat) (hi : Option Nat) : Except Flaw Sequence :=
  match q.last with
  | none => .error .nothingToRepeat
  | some r => .ok { q with last := some (.times lo hi r) }

/-- How a group starts. -/
inductive GroupStart
  | flags (f : Flags)
  | inside (f : Flags)
  | named (name : List Char)

def isLookAround : Rest → Bool
  | '?' :: '=' :: _ | '?' :: '!' :: _ | '?' :: '<' :: '=' :: _ | '?' :: '<' :: '!' :: _ => true
  | _ => false

/-- What follows an opening parenthesis. -/
def readGroupStart (p : Progress) (s : Rest) : Except Flaw (GroupStart × Rest) :=
  let s := skip p.flags s
  if isLookAround s then .error .lookAround
  else match s with
    | '?' :: 'P' :: '<' :: rest | '?' :: '<' :: rest =>
      (readName p.names rest).map fun (name, rest) => (.named name, rest)
    | '?' :: rest => do
      if rest.isEmpty then .error .unclosedGroup
      let (f, seen, stop, rest) ← readFlags p.flags true [] rest
      if stop = ':' then .ok (.inside f, rest)
      else if seen.isEmpty then .error .nothingToRepeat
      else .ok (.flags f, rest)
    | s => .ok (.inside p.flags, s)

/-- A question mark that only says which match is preferred. -/
def dropLazy (s : Rest) : Rest :=
  match s with
  | '?' :: rest => rest
  | s => s

/-- How deep groups may be nested. -/
def maxNesting : Nat := 250

mutual

/-- Alternatives up to the end of the text or a closing parenthesis. -/
def readAlternatives (fuel depth : Nat) (p : Progress) (s : Rest) :
    Except Flaw (Regex × Progress × Rest) :=
  match fuel with
  | 0 => .error .tooDeep
  | fuel + 1 => do
    let (r, p, s) ← readSequence fuel depth p {} s
    match s with
    | '|' :: rest => do
      let (others, p, s) ← readAlternatives fuel depth p rest
      return (.alt r others, p, s)
    | s => return (r, p, s)

/-- Items up to a bar, a closing parenthesis or the end. -/
def readSequence (fuel depth : Nat) (p : Progress) (q : Sequence) (s : Rest) :
    Except Flaw (Regex × Progress × Rest) :=
  match fuel with
  | 0 => .error .tooDeep
  | fuel + 1 =>
    match skip p.flags s with
    | [] => .ok (q.whole, p, [])
    | '|' :: rest => .ok (q.whole, p, '|' :: rest)
    | ')' :: rest => .ok (q.whole, p, ')' :: rest)
    | '*' :: rest => do readSequence fuel depth p (← q.repeat 0 none) (dropLazy rest)
    | '+' :: rest => do readSequence fuel depth p (← q.repeat 1 none) (dropLazy rest)
    | '?' :: rest => do readSequence fuel depth p (← q.repeat 0 (some 1)) (dropLazy rest)
    | '\x7b' :: rest => do
      if q.last.isNone then .error .nothingToRepeat
      let (lo, hi, rest) ← readCounts rest
      readSequence fuel depth p (← q.repeat lo hi) (dropLazy rest)
    | '.' :: rest =>
      if p.flags.unicode then readSequence fuel depth p (q.push (.chars (dot p.flags))) rest
      else .error .needsUnicode
    | '^' :: rest => readSequence fuel depth p (q.push (.assertion (lineStart p.flags))) rest
    | '$' :: rest => readSequence fuel depth p (q.push (.assertion (lineEnd p.flags))) rest
    | '[' :: rest => do
      let (set, rest) ← readSet p.flags rest
      readSequence fuel depth p (q.push (.chars set)) rest
    | '\\' :: rest => do
      let (atom, rest) ← readEscape p.flags rest
      readSequence fuel depth p (q.push (← atom.regex p.flags)) rest
    | '(' :: rest => do
      let (start, rest) ← readGroupStart p rest
      match start with
      | .flags f => readSequence fuel depth { p with flags := f } ⟨q.whole, none⟩ rest
      | .inside f =>
        let (r, names, rest) ← readGroup fuel depth { p with flags := f } rest
        readSequence fuel depth { p with names } (q.push r) rest
      | .named name =>
        let (r, names, rest) ← readGroup fuel depth { p with names := name :: p.names } rest
        readSequence fuel depth { p with names } (q.push r) rest
    | c :: rest => do
      readSequence fuel depth p (q.push (← (Atom.literal c).regex p.flags)) rest

/-- The inside of a group and its closing parenthesis, with all names that are taken then. -/
def readGroup (fuel depth : Nat) (p : Progress) (s : Rest) :
    Except Flaw (Regex × List (List Char) × Rest) :=
  match fuel with
  | 0 => .error .tooDeep
  | fuel + 1 => do
    if maxNesting ≤ depth then .error .tooDeep
    match ← readAlternatives fuel (depth + 1) p s with
    | (r, p, ')' :: rest) => return (r, p.names, rest)
    | _ => .error .unclosedGroup

end

/-- The room that a pattern may take up. -/
def maxWeight : Nat := 10 * 1024 * 1024

/-- Reads a pattern. Each call of the readers takes a character or leads to one that does, three calls
at the most. -/
def read (text : String) : Except Flaw Regex := do
  let s := text.toList
  match ← readAlternatives (3 * s.length + 3) 0 {} s with
  | (r, _, []) => if r.weight ≤ maxWeight then return r else .error .tooLarge
  | _ => .error .unopenedGroup

/-- An engine with which a session can be played. It stands in for the library that reads patterns: it reads the
common part of that library's language, in its own words where it refuses a pattern. -/
def standIn : Engine := ⟨Regex, fun text => (read text).mapError Flaw.message, Regex.isMatch⟩

end Muster.Pattern
