import Muster.Fault
import Muster.Text.Split

/-!
# Engines for patterns

Nodes are picked by regular expressions, which a library reads and matches. What it does is a parameter here: what
is said of listings and of requests holds with every such library.
-/

namespace Muster.Pattern

/-- A library of regular expressions: it compiles the text of a pattern or says why it cannot, and tells whether
what it compiled matches somewhere in a text. -/
structure Engine where
  Regex : Type
  read : String → Except String Regex
  isMatch : Regex → String → Bool

/-- Compiles the pattern of a request. -/
def Engine.compile (engine : Engine) (pattern : String) : Except Fault engine.Regex :=
  match engine.read pattern with
  | .ok r => .ok r
  | .error reason => .error (.argument (.pattern pattern reason))

/-- What every such library does with letters that stand for themselves, and with bars between alternatives. It
knows no other patterns. -/
def Engine.plain : Engine where
  Regex := List String
  read text :=
    if text.toList.all fun c => c.isAlpha || c = '|' then .ok (Text.pieces '|' text)
    else .error "neither letters nor bars"
  isMatch texts name := texts.any fun text => Text.occurs text.toList name.toList

end Muster.Pattern
