import Muster.Text.Decimal
import Muster.Text.Utf8

/-!
# Tools

The commands that only make something of their arguments and their input.
-/

namespace Muster.Shell

/-- What a tool writes, and its status. -/
structure Produced where
  out : List UInt8 := []
  err : String := ""
  status : Nat := 0

namespace Tools

open Text.Utf8 (encode)

def encodeChar (c : Char) : List UInt8 := encode c.toString

def written (s : String) : Produced := { out := encode s }

def failed (message : String) (status : Nat := 1) : Produced := { err := message ++ "\n", status }

/-! ### Escapes -/

def isOctal (c : Char) : Bool := '0' ≤ c && c ≤ '7'

/-- What stands behind a backslash: its octets and what follows; `none` where it means nothing. -/
def escape? : List Char → Option (List UInt8 × List Char)
  | 'n' :: rest => some ([10], rest)
  | 't' :: rest => some ([9], rest)
  | 'r' :: rest => some ([13], rest)
  | 'a' :: rest => some ([7], rest)
  | 'b' :: rest => some ([8], rest)
  | 'f' :: rest => some ([12], rest)
  | 'v' :: rest => some ([11], rest)
  | 'e' :: rest => some ([27], rest)
  | '\\' :: rest => some ([92], rest)
  | 'x' :: c :: rest =>
    if (Text.hexDigit? c).isSome then
      let (n, rest) := Text.digitsUpTo 16 2 0 (c :: rest)
      some ([UInt8.ofNat n], rest)
    else none
  | 'u' :: rest =>
    let (n, rest) := Text.digitsUpTo 16 4 0 rest
    some (encodeChar (Char.ofNat n), rest)
  | 'U' :: rest =>
    let (n, rest) := Text.digitsUpTo 16 8 0 rest
    some (encodeChar (Char.ofNat n), rest)
  | _ => none

/-- The octets of a text with escapes, up to an escape that ends all output; where `zeroFirst`, octal
numbers begin with 0. -/
def escaped (zeroFirst : Bool) : Nat → List Char → List UInt8 × Bool
  | 0, _ => ([], false)
  | _ + 1, [] => ([], false)
  | n + 1, '\\' :: rest =>
    let go (octets : List UInt8) (rest : List Char) : List UInt8 × Bool :=
      let (more, ends) := escaped zeroFirst n rest
      (octets ++ more, ends)
    match rest with
    | 'c' :: _ => ([], true)
    | c :: after =>
      if zeroFirst && c = '0' then
        let (k, after) := Text.digitsUpTo 8 3 0 after
        go [UInt8.ofNat k] after
      else if !zeroFirst && isOctal c then
        let (k, after) := Text.digitsUpTo 8 3 0 rest
        go [UInt8.ofNat k] after
      else match escape? rest with
        | some (octets, after) => go octets after
        | none => go (92 :: encodeChar c) after
    | [] => ([92], false)
  | n + 1, c :: rest =>
    let (more, ends) := escaped zeroFirst n rest
    (encodeChar c ++ more, ends)

/-! ### Output of texts -/

/-- The options of `echo`, and the rest of its arguments. -/
def echoOptions (newline escapes : Bool) : List String → Bool × Bool × List String
  | arg :: rest =>
    if arg.startsWith "-" && arg ≠ "-" && (arg.drop 1).all fun c => c = 'n' || c = 'e' || c = 'E' then
      echoOptions (newline && !arg.contains 'n')
        (if arg.contains 'e' then true else if arg.contains 'E' then false else escapes) rest
    else (newline, escapes, arg :: rest)
  | [] => (newline, escapes, [])

def echo (args : List String) : Produced :=
  let (newline, escapes, words) := echoOptions true false args
  let s := " ".intercalate words
  let (octets, ends) := if escapes then escaped true (s.length + 1) s.toList else (encode s, false)
  { out := octets ++ (if newline && !ends then [10] else []) }

/-- How a value is put into a field. -/
structure FieldSpec where
  left : Bool := false
  zero : Bool := false
  plus : Bool := false
  space : Bool := false
  alternate : Bool := false
  width : Nat := 0
  precision : Option Nat := none

def FieldSpec.pad (f : FieldSpec) (octets : List UInt8) : List UInt8 :=
  let missing := List.replicate (f.width - octets.length) 32
  if f.left then octets ++ missing else missing ++ octets

def FieldSpec.flags (f : FieldSpec) : List Char → FieldSpec × List Char
  | '-' :: rest => FieldSpec.flags { f with left := true } rest
  | '0' :: rest => FieldSpec.flags { f with zero := true } rest
  | '+' :: rest => FieldSpec.flags { f with plus := true } rest
  | ' ' :: rest => FieldSpec.flags { f with space := true } rest
  | '#' :: rest => FieldSpec.flags { f with alternate := true } rest
  | rest => (f, rest)

/-- A number in a field, with as many digits as its precision or its zeros ask for. -/
def FieldSpec.number (f : FieldSpec) (isNegative : Bool) (digits : List Char) : List UInt8 :=
  let sign := if isNegative then "-" else if f.plus then "+" else if f.space then " " else ""
  let fill (n : Nat) : List Char := List.replicate (n - digits.length) '0' ++ digits
  let digits := match f.precision with
    | some n => fill n
    | none => if f.zero && !f.left then fill (f.width - sign.length) else digits
  f.pad (encode (sign ++ String.ofList digits))

/-- An argument as a number: decimal, octal, hexadecimal, or a quoted character. -/
def numberOf (s : String) : Int :=
  match s.toList with
  | '\'' :: c :: _ | '"' :: c :: _ => c.toNat
  | '0' :: 'x' :: d => d.foldl (fun n c => n * 16 + ((Text.hexDigit? c).getD 0 : Nat)) 0
  | '0' :: d => d.foldl (fun n c => n * 8 + ((Text.digit? c).getD 0 : Nat)) 0
  | d => (Text.integer? d).getD 0

/-- A width or precision, which an argument may give. -/
def measure (args : List String) : List Char → Option Nat × List Char × List String
  | '*' :: rest => (some (numberOf (args.headD "")).toNat, rest, args.tail)
  | rest =>
    match rest.span Char.isDigit with
    | ([], _) => (none, rest, args)
    | (d, rest) => (some (Text.digitsValue 0 d), rest, args)

/-- One conversion of an argument. -/
def convert (f : FieldSpec) (kind : Char) (arg : String) : List UInt8 × Bool :=
  let cut (octets : List UInt8) : List UInt8 := match f.precision with
    | some n => octets.take n
    | none => octets
  let n := numberOf arg
  let bits : Nat := if n < 0 then (n + Width.count64).toNat else n.toNat
  match kind with
  | 's' => (f.pad (cut (encode arg)), false)
  | 'b' =>
    let (octets, ends) := escaped true (arg.length + 1) arg.toList
    (f.pad (cut octets), ends)
  | 'c' => (f.pad ((arg.toList.head?.map encodeChar).getD []), false)
  | 'd' | 'i' => (f.number (n < 0) (Nat.toDigits 10 n.natAbs), false)
  | 'u' => (f.number false (Nat.toDigits 10 bits), false)
  | 'x' => (f.number false ((if f.alternate then ['0', 'x'] else []) ++ Nat.toDigits 16 bits), false)
  | 'X' => (f.number false ((Nat.toDigits 16 bits).map Char.toUpper), false)
  | 'o' => (f.number false (Nat.toDigits 8 bits), false)
  | _ => ([], false)

/-- Goes through a format once; gives the octets, the arguments that are left, and whether output ends. -/
def formatOnce : Nat → List Char → List String → List UInt8 × List String × Bool
  | 0, _, args => ([], args, false)
  | _ + 1, [], args => ([], args, false)
  | n + 1, c :: rest, args =>
    let go (octets : List UInt8) (rest : List Char) (args : List String) :=
      let (more, args, ends) := formatOnce n rest args
      (octets ++ more, args, ends)
    if c = '%' then
      match rest with
      | '%' :: rest => go [37] rest args
      | _ =>
        let (f, rest) := FieldSpec.flags {} rest
        let (width, rest, args) := measure args rest
        let (precision, rest, args) := match rest with
          | '.' :: rest =>
            let (p, rest, args) := measure args rest
            (some (p.getD 0), rest, args)
          | rest => (none, rest, args)
        match rest with
        | kind :: rest =>
          let (octets, ends) := convert { f with width := width.getD 0, precision } kind (args.headD "")
          if ends then (octets, [], true) else go octets rest args.tail
        | [] => go [37] [] args
    else if c = '\\' then
      match rest with
      | d :: after =>
        if isOctal d then
          let (k, after) := Text.digitsUpTo 8 3 0 rest
          go [UInt8.ofNat k] after args
        else if d = '"' || d = '\'' then go (encodeChar d) after args
        else match escape? rest with
          | some (octets, after) => go octets after args
          | none => go (92 :: encodeChar d) after args
      | [] => go [92] [] args
    else go (encodeChar c) rest args

/-- Goes through a format until no argument is left. -/
def formatAll (format : List Char) : Nat → List String → List UInt8
  | 0, _ => []
  | n + 1, args =>
    let (octets, rest, ends) := formatOnce (format.length + 1) format args
    if ends || rest.isEmpty || args.length ≤ rest.length then octets
    else octets ++ formatAll format n rest

def printf : List String → Produced
  | "--" :: format :: args | format :: args =>
    { out := formatAll format.toList (args.length + 1) args }
  | [] => failed "printf: usage: printf [-v var] format [arguments]" 2

/-! ### Numbers and lines -/

def sequenceFrom (first step : Int) : Nat → List Int
  | 0 => []
  | n + 1 => first :: sequenceFrom (first + step) step n

def seq (args : List String) : Produced :=
  let (separator, args) := match args with
    | "-s" :: s :: rest => (s, rest)
    | arg :: rest => if arg.startsWith "-s" then ((arg.drop 2).toString, rest) else ("\n", arg :: rest)
    | [] => ("\n", [])
  let range (first step last : Int) : Produced :=
    if step = 0 then failed "seq: invalid Zero increment value"
    else
      let count := (last - first).fdiv step + 1
      if count ≤ 0 then {}
      else written (separator.intercalate ((sequenceFrom first step count.toNat).map toString) ++ "\n")
  match args.mapM fun s => Text.integer? s.toList with
  | some [last] => range 1 1 last
  | some [first, last] => range first 1 last
  | some [first, step, last] => range first step last
  | _ => failed "seq: invalid argument"

/-- The lines of octets, each with its end. -/
def linesOf (octets : List UInt8) : List (List UInt8) :=
  octets.foldr (fun b lines => match b, lines with
    | 10, lines => [10] :: lines
    | b, line :: lines => if line.isEmpty then [b] :: lines else (b :: line) :: lines
    | b, [] => [[b]]) []

/-- A count behind an option, as in `-n 3`, `-n3`, `-3`, `-c 3`: whether octets are counted, and the
rest. -/
def countOption (otherwise : Nat) : List String → Bool × Nat × List String
  | "-n" :: n :: rest => (false, (numberOf n).natAbs, rest)
  | "-c" :: n :: rest => (true, (numberOf n).natAbs, rest)
  | arg :: rest =>
    match arg.toList with
    | '-' :: 'n' :: d => (false, (numberOf (String.ofList d)).natAbs, rest)
    | '-' :: 'c' :: d => (true, (numberOf (String.ofList d)).natAbs, rest)
    | '-' :: c :: d =>
      if c.isDigit then (false, (numberOf (String.ofList (c :: d))).natAbs, rest)
      else (false, otherwise, arg :: rest)
    | _ => (false, otherwise, arg :: rest)
  | [] => (false, otherwise, [])

def firstOf (countsOctets : Bool) (n : Nat) (octets : List UInt8) : List UInt8 :=
  if countsOctets then octets.take n else ((linesOf octets).take n).flatten

def lastOf (countsOctets : Bool) (n : Nat) (octets : List UInt8) : List UInt8 :=
  if countsOctets then octets.drop (octets.length - n)
  else
    let lines := linesOf octets
    (lines.drop (lines.length - n)).flatten

def wordCount (octets : List UInt8) : Nat :=
  (octets.splitBy fun a b => (a ≤ 32) == (b ≤ 32)).countP fun w => w.head?.any (32 < ·)

def count (options : List String) (octets : List UInt8) : Produced :=
  let lines := octets.countP (· = 10)
  match options with
  | ["-l"] => written (toString lines ++ "\n")
  | ["-c"] => written (toString octets.length ++ "\n")
  | ["-w"] => written (toString (wordCount octets) ++ "\n")
  | _ =>
    let column (n : Nat) : String := "".pushn ' ' (7 - (toString n).length) ++ toString n
    written (column lines ++ " " ++ column (wordCount octets) ++ " " ++ column octets.length ++ "\n")

/-- Whether one line of octets comes before another. -/
def comesBefore : List UInt8 → List UInt8 → Bool
  | [], _ => true
  | _ :: _, [] => false
  | a :: s, b :: t => a < b || (a = b && comesBefore s t)

/-- The number that a line begins with. -/
def lineNumber (line : List UInt8) : Nat :=
  (line.takeWhile fun b => 48 ≤ b && b ≤ 57).foldl (fun n b => n * 10 + (b.toNat - 48)) 0

def sort (options : List String) (octets : List UInt8) : List UInt8 :=
  let lines := (linesOf octets).map fun line => if line.getLast? = some 10 then line else line ++ [10]
  let has (c : Char) : Bool := options.any fun o => o.contains c
  let sorted := lines.mergeSort fun a b =>
    if has 'n' then lineNumber a ≤ lineNumber b else comesBefore a b
  let sorted := if has 'u' then sorted.eraseDups else sorted
  (if has 'r' then sorted.reverse else sorted).flatten

/-! ### Characters for others -/

def between (first last : UInt8) : List UInt8 :=
  (List.range (last.toNat + 1 - first.toNat)).map fun i => first + UInt8.ofNat i

def className? (s : String) : Option (List UInt8) :=
  match s with
  | "[:upper:]" => some (between 65 90)
  | "[:lower:]" => some (between 97 122)
  | "[:digit:]" => some (between 48 57)
  | "[:alpha:]" => some (between 65 90 ++ between 97 122)
  | "[:alnum:]" => some (between 48 57 ++ between 65 90 ++ between 97 122)
  | "[:space:]" => some [9, 10, 11, 12, 13, 32]
  | _ => none

/-- Takes ranges apart. -/
def ranges : List UInt8 → List UInt8
  | a :: 45 :: b :: rest => between a b ++ ranges rest
  | a :: rest => a :: ranges rest
  | [] => []

/-- The octets of a set of characters. -/
def charSet (s : String) : List UInt8 :=
  (className? s).getD (ranges (escaped false (s.length + 1) s.toList).1)

/-- Replaces or deletes octets, and may squeeze those that repeat. -/
def translate (args : List String) (octets : List UInt8) : Produced :=
  let (options, sets) := args.partition fun a => a.startsWith "-" && a ≠ "-"
  let has (c : Char) : Bool := options.any fun o => o.contains c
  match sets.map charSet with
  | set :: rest =>
    let isIn (b : UInt8) : Bool := set.contains b != (has 'c' || has 'C')
    let squeezed (set : List UInt8) (octets : List UInt8) : List UInt8 :=
      if has 's' then
        octets.foldr (fun b out => if set.contains b && out.head? == some b then out else b :: out) []
      else octets
    if has 'd' then { out := squeezed (rest.headD []) (octets.filter fun b => !isIn b) }
    else match rest with
      | new :: _ =>
        let last := new.getLast?.getD 0
        let change (b : UInt8) : UInt8 :=
          if !isIn b then b
          else if has 'c' then last
          else (new[set.idxOf b]?).getD last
        { out := squeezed new (octets.map change) }
      | [] => { out := squeezed set octets }
  | [] => failed "tr: missing operand"

/-! ### Conditions -/

/-- The characters of a set up to its closing bracket, with ranges taken apart, and how many
characters of the pattern they take. -/
def bracketed (read : Nat) : List Char → Option (List (Char × Char) × Nat)
  | [] => none
  | ']' :: rest => if read = 0 then (bracketed 1 rest).map fun (set, k) => ((']', ']') :: set, k)
    else some ([], read + 1)
  | [a] => (bracketed (read + 1) []).map fun (set, k) => ((a, a) :: set, k)
  | a :: '-' :: b :: rest =>
    if b = ']' then (bracketed (read + 1) ('-' :: b :: rest)).map fun (set, k) => ((a, a) :: set, k)
    else (bracketed (read + 3) rest).map fun (set, k) => ((a, b) :: set, k)
  | a :: rest => (bracketed (read + 1) rest).map fun (set, k) => ((a, a) :: set, k)

/-- The set of characters that stands behind an opening bracket, and its length. -/
def set? (p : List Char) : Option ((Char → Bool) × Nat) :=
  let isNegated := p.head? = some '!' || p.head? = some '^'
  (bracketed 0 (if isNegated then p.tail else p)).map fun (set, k) =>
    (fun c => (set.any fun (a, b) => a ≤ c && c ≤ b) != isNegated, if isNegated then k + 1 else k)

/-- Whether a text matches a pattern with `*`, `?`, sets in brackets, and escaped characters. -/
def matchesGlob : List Char → List Char → Bool
  | [], s => s.isEmpty
  | '*' :: p, [] => matchesGlob p []
  | '*' :: p, c :: s => matchesGlob p (c :: s) || matchesGlob ('*' :: p) s
  | '?' :: p, _ :: s => matchesGlob p s
  | '\\' :: d :: p, c :: s => c = d && matchesGlob p s
  | '[' :: p, c :: s =>
    match set? p with
    | some (isIn, k) => isIn c && matchesGlob (p.drop k) s
    | none => c = '[' && matchesGlob p s
  | d :: p, c :: s => c = d && matchesGlob p s
  | _ :: _, [] => false
termination_by p s => (p.length, s.length)

/-- A text without what matches a pattern at its start or end. -/
def withoutMatch (atEnd longest : Bool) (p : List Char) (s : String) : String :=
  let s := s.toList
  let cuts := List.range (s.length + 1)
  let isMatch (k : Nat) : Bool := matchesGlob p (if atEnd then s.drop k else s.take k)
  match (if atEnd = longest then cuts else cuts.reverse).find? isMatch with
  | some k => String.ofList (if atEnd then s.take k else s.drop k)
  | none => String.ofList s

/-- A text with the longest matches of a pattern replaced, from the left. -/
def replaceFrom (all : Bool) (p new : List Char) : Nat → List Char → List Char
  | 0, s => s
  | _ + 1, [] => []
  | n + 1, c :: s =>
    let lengths := (List.range (s.length + 1)).reverse.map (· + 1)
    match lengths.find? fun k => matchesGlob p ((c :: s).take k) with
    | some k =>
      let rest := (c :: s).drop k
      new ++ if all then replaceFrom all p new n rest else rest
    | none => c :: replaceFrom all p new n s

def replaceMatches (all : Bool) (p : List Char) (new s : String) : String :=
  match p with
  | [] => s
  | '#' :: p =>
    let rest := withoutMatch false true p s
    if matchesGlob p (s.toList.take (s.length - rest.length)) then new ++ rest else s
  | '%' :: p =>
    let rest := withoutMatch true true p s
    if matchesGlob p (s.toList.drop rest.length) then rest ++ new else s
  | p => String.ofList (replaceFrom all p new.toList s.length s.toList)

/-- A part of a list; a negative start or length is counted from its end. -/
def sliceOf {α : Type} (start : Int) (length : Option Int) (l : List α) : List α :=
  let start := if start < 0 then start + l.length else start
  if start < 0 then []
  else
    let rest := l.drop start.toNat
    match length with
    | none => rest
    | some n => if n < 0 then rest.take (rest.length - n.natAbs) else rest.take n.toNat

/-- Compares two texts; the second one may be a pattern. -/
def compare? (isPattern : Bool) (a operator b : String) : Option Bool :=
  let same := if isPattern then matchesGlob b.toList a.toList else a = b
  match operator with
  | "=" | "==" => some same
  | "!=" => some !same
  | "<" => some (a < b)
  | ">" => some (b < a)
  | "-eq" => some (numberOf a = numberOf b)
  | "-ne" => some (numberOf a ≠ numberOf b)
  | "-lt" => some (numberOf a < numberOf b)
  | "-le" => some (numberOf a ≤ numberOf b)
  | "-gt" => some (numberOf b < numberOf a)
  | "-ge" => some (numberOf b ≤ numberOf a)
  | _ => none

def numberOperators : List String := ["-eq", "-ne", "-lt", "-le", "-gt", "-ge"]

def fileOperators : List String := ["-e", "-f", "-d", "-r", "-w", "-x", "-s"]

/-- Why two or three words are no condition, if they are none. -/
def conditionFault? : List String → Option String
  | [operator, _] =>
    if ("!" :: "-n" :: "-z" :: fileOperators).contains operator then none
    else some (operator ++ ": unary operator expected")
  | [a, operator, b] =>
    if numberOperators.contains operator then
      ([a, b].find? fun s => (Text.integer? s.toList).isNone).map (· ++ ": integer expression expected")
    else if a = "!" || ["=", "==", "!=", "<", ">", "-a", "-o"].contains operator then none
    else some (operator ++ ": binary operator expected")
  | _ => none

/-- The truth of a condition; `isFile` and `isDirectory` tell of files. -/
def condition (isPattern : Bool) (isFile isDirectory : String → Bool) : Nat → List String → Bool
  | 0, _ => false
  | _ + 1, [] => false
  | _ + 1, [a] => a ≠ ""
  | n + 1, "!" :: rest => !condition isPattern isFile isDirectory n rest
  | _ + 1, ["-n", a] => a ≠ ""
  | _ + 1, ["-z", a] => a = ""
  | _ + 1, [operator, a] =>
    if operator = "-d" then isDirectory a
    else if ["-e", "-r", "-w", "-x"].contains operator then isFile a || isDirectory a
    else ["-f", "-s"].contains operator && isFile a
  | n + 1, words =>
    let around (operators : List String) : Option (List String × List String) :=
      match words.span fun w => !operators.contains w with
      | (before, _ :: after) => some (before, after)
      | (_, []) => none
    match around ["||", "-o"] with
    | some (a, b) =>
      condition isPattern isFile isDirectory n a || condition isPattern isFile isDirectory n b
    | none =>
      match around ["&&", "-a"] with
      | some (a, b) =>
        condition isPattern isFile isDirectory n a && condition isPattern isFile isDirectory n b
      | none =>
        match words with
        | [a, operator, b] => (compare? isPattern a operator b).getD false
        | _ => false

end Tools

end Muster.Shell
