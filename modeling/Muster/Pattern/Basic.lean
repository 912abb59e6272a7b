import Muster.Text.Category
import Muster.Text.Blank
import Muster.Text.Fold
import Muster.Text.Script

/-!
# Patterns

Regular expressions over characters, with assertions about the place in the text, and the sets of
characters that they are built from.
-/

namespace Muster.Pattern

/-- A property by which characters are told apart. -/
inductive Property
  | any
  | ascii
  | assigned
  | decimal
  | blank
  | word
  | alphabetic
  | uppercase
  | lowercase
  | category (k : Text.Category)
  /-- All categories whose codes start with a letter. -/
  | categories (letter : Char)
  /-- Letters that have a case. -/
  | cased
  | script (code : String)
  deriving DecidableEq, Repr

private def within (ranges : List (Nat × Nat)) (c : Char) : Bool :=
  ranges.any fun (lo, hi) => lo ≤ c.toNat && c.toNat ≤ hi

def Property.holds (p : Property) (c : Char) : Bool :=
  match p with
  | any => true
  | ascii => c.toNat < 128
  | assigned => Text.category c != .cn
  | decimal => Text.isDecimal c
  | blank => Text.isBlank c
  | word => Text.isWord c
  | alphabetic =>
    Text.isWord c && !(Text.category c ∈ [.nd, .pc]) && !within [(0x200C, 0x200D)] c
  | uppercase =>
    Text.category c = .lu ||
      within [(0x2160, 0x216F), (0x24B6, 0x24CF), (0x1F130, 0x1F149), (0x1F150, 0x1F169),
        (0x1F170, 0x1F189)] c
  | lowercase =>
    Text.category c = .ll ||
      within [(0xAA, 0xAA), (0xBA, 0xBA), (0x2B0, 0x2B8), (0x2C0, 0x2C1), (0x2E0, 0x2E4),
        (0x345, 0x345), (0x37A, 0x37A), (0x1D2C, 0x1D6A), (0x1D78, 0x1D78), (0x1D9B, 0x1DBF),
        (0x2071, 0x2071), (0x207F, 0x207F), (0x2090, 0x209C), (0x2170, 0x217F), (0x24D0, 0x24E9),
        (0x2C7C, 0x2C7D), (0xA69C, 0xA69D), (0xA770, 0xA770), (0xA7F8, 0xA7F9), (0xAB5C, 0xAB5F)] c
  | category k => Text.category c = k
  | categories letter => (Text.category c).code.1 = letter
  | cased => Text.category c ∈ [.lu, .ll, .lt]
  | script code => Text.Script.ofChar c = code

/-- A set of characters. -/
inductive CharSet
  | empty
  | range (lo hi : Char)
  | property (p : Property)
  | union (a b : CharSet)
  | inter (a b : CharSet)
  | minus (a b : CharSet)
  | oneOf (a b : CharSet)
  | compl (a : CharSet)
  /-- All characters that differ only by case from one of the set. -/
  | anyCase (a : CharSet)
  deriving DecidableEq, Repr

namespace CharSet

def single (c : Char) : CharSet := range c c

def ofRanges (l : List (Char × Char)) : CharSet :=
  l.foldr (fun (lo, hi) s => union (range lo hi) s) empty

def holds : CharSet → Char → Bool
  | empty, _ => false
  | range lo hi, c => lo ≤ c && c ≤ hi
  | property p, c => p.holds c
  | union a b, c => a.holds c || b.holds c
  | inter a b, c => a.holds c && b.holds c
  | minus a b, c => a.holds c && !b.holds c
  | oneOf a b, c => a.holds c != b.holds c
  | compl a, c => !a.holds c
  | anyCase a, c => (Text.caseVariants c).any a.holds

/-- The room that a set takes up, roughly in octets. -/
def weight : CharSet → Nat
  | empty => 0
  | range lo hi => if hi.toNat < 128 || lo = hi then 32 else 300
  | property .ascii | property .any => 300
  | property .blank => 700
  | property .decimal => 3000
  | property _ => 20000
  | union a b | inter a b | minus a b | oneOf a b => a.weight + b.weight
  | compl a => a.weight + 300
  | anyCase a => 2 * a.weight

end CharSet

/-- A claim about a place in the text. -/
inductive Assertion
  | textStart
  | textEnd
  | lineStart
  | lineEnd
  /-- Lines that end with a line feed, a carriage return or both. -/
  | anyLineStart
  | anyLineEnd
  | wordEdge (unicode : Bool)
  | noWordEdge (unicode : Bool)
  | wordStart (unicode : Bool)
  | wordEnd (unicode : Bool)
  | noWordBefore (unicode : Bool)
  | noWordAfter (unicode : Bool)
  deriving DecidableEq, Repr

inductive Regex
  | empty
  | chars (s : CharSet)
  | assertion (a : Assertion)
  | seq (a b : Regex)
  | alt (a b : Regex)
  /-- At least `lo` times, and at most `hi` times if that is given. -/
  | times (lo : Nat) (hi : Option Nat) (a : Regex)
  deriving DecidableEq, Repr

namespace Regex

/-- The room that an expression takes up, roughly in octets. -/
def weight : Regex → Nat
  | empty => 0
  | chars s => s.weight
  | assertion _ => 32
  | seq a b => a.weight + b.weight
  | alt a b => a.weight + b.weight + 32
  | times lo hi a => (max 1 (hi.getD lo)) * (a.weight + 32)

end Regex

end Muster.Pattern
