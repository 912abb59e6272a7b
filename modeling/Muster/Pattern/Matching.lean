import Muster.Pattern.Basic

/-!
# Matching

Whether a pattern occurs in a text. An expression leads from a set of places in the text to the set of
places where a match can end; a repetition is followed until no new place is reached.
-/

namespace Muster.Pattern

/-- Places in a text in increasing order. -/
abbrev Places := List Nat

/-- The places of both lists, each once. -/
def merge (s t : Places) : Places := (s.merge t).eraseReps

namespace Assertion

def asciiWord (c : Char) : Bool := c.isAlphanum || c = '_'

def isWordAt (unicode : Bool) (text : Array Char) (i : Nat) : Bool :=
  match text[i]? with
  | some c => if unicode then Text.isWord c else asciiWord c
  | none => false

def isWordBefore (unicode : Bool) (text : Array Char) (i : Nat) : Bool :=
  0 < i && isWordAt unicode text (i - 1)

def holds (a : Assertion) (text : Array Char) (i : Nat) : Bool :=
  let before := if i = 0 then none else text[i - 1]?
  let after := text[i]?
  match a with
  | textStart => i = 0
  | textEnd => i = text.size
  | lineStart => i = 0 || before = some '\n'
  | lineEnd => i = text.size || after = some '\n'
  | anyLineStart => i = 0 || before = some '\n' || (before = some '\r' && after != some '\n')
  | anyLineEnd => i = text.size || after = some '\r' || (after = some '\n' && before != some '\r')
  | wordEdge u => isWordBefore u text i != isWordAt u text i
  | noWordEdge u => isWordBefore u text i == isWordAt u text i
  | wordStart u => !isWordBefore u text i && isWordAt u text i
  | wordEnd u => isWordBefore u text i && !isWordAt u text i
  | noWordBefore u => !isWordBefore u text i
  | noWordAfter u => !isWordAt u text i

end Assertion

/-- Applies `f` to the places that are new until there are none, at most `fuel` times. -/
def closure (f : Places → Places) : Nat → Places → Places → Places
  | 0, seen, _ => seen
  | fuel + 1, seen, new =>
    let reached := (f new).filter fun i => !seen.contains i
    if reached.isEmpty then seen else closure f fuel (merge seen reached) reached

/-- Applies `f` a number of times, as long as there are places. -/
def iterate (f : Places → Places) : Nat → Places → Places
  | 0, s => s
  | n + 1, s => if s.isEmpty then [] else iterate f n (f s)

/-- All places that up to `n` applications of `f` reach. -/
def upTo (f : Places → Places) : Nat → Places → Places
  | 0, s => s
  | n + 1, s => if s.isEmpty then [] else merge s (upTo f n (f s))

namespace Regex

/-- The places where matches that start in `s` can end. -/
def reach (text : Array Char) : Regex → Places → Places
  | empty, s => s
  | chars set, s => s.filterMap fun i => match text[i]? with
    | some c => if set.holds c then some (i + 1) else none
    | none => none
  | assertion a, s => s.filter fun i => a.holds text i
  | seq a b, s => b.reach text (a.reach text s)
  | alt a b, s => merge (a.reach text s) (b.reach text s)
  | times lo hi a, s =>
    let s := iterate (a.reach text) lo s
    match hi with
    | none => closure (a.reach text) (text.size + 1) s s
    | some hi => upTo (a.reach text) (hi - lo) s

/-- Whether the expression matches anywhere in the text. -/
def isMatch (r : Regex) (text : String) : Bool :=
  let text := text.toList.toArray
  !(r.reach text (List.range (text.size + 1))).isEmpty

end Regex

end Muster.Pattern
