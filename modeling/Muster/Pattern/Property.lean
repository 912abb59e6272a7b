import Muster.Pattern.Basic

/-!
# Names of properties

The names under which patterns refer to properties of characters, whatever their case and separators.
-/

namespace Muster.Pattern

namespace Property

/-- A name in small letters, without blanks, underscores and hyphens, and without `is` in front. -/
def loose (name : List Char) : String :=
  let kept := (name.filter fun c => !(c = ' ' || c = '_' || c = '-')).map Char.toLower
  match kept with
  | 'i' :: 's' :: rest => if rest = ['c'] then "isc" else String.ofList rest
  | kept => String.ofList kept

private def long : Text.Category → String
  | .lu => "uppercaseletter"
  | .ll => "lowercaseletter"
  | .lt => "titlecaseletter"
  | .lm => "modifierletter"
  | .lo => "otherletter"
  | .mn => "nonspacingmark"
  | .mc => "spacingmark"
  | .me => "enclosingmark"
  | .nd => "decimalnumber"
  | .nl => "letternumber"
  | .no => "othernumber"
  | .pc => "connectorpunctuation"
  | .pd => "dashpunctuation"
  | .ps => "openpunctuation"
  | .pe => "closepunctuation"
  | .pi => "initialpunctuation"
  | .pf => "finalpunctuation"
  | .po => "otherpunctuation"
  | .sm => "mathsymbol"
  | .sc => "currencysymbol"
  | .sk => "modifiersymbol"
  | .so => "othersymbol"
  | .zs => "spaceseparator"
  | .zl => "lineseparator"
  | .zp => "paragraphseparator"
  | .cc => "control"
  | .cf => "format"
  | .cs => "surrogate"
  | .co => "privateuse"
  | .cn => "unassigned"

private def short (k : Text.Category) : String :=
  String.ofList [k.code.1.toLower, k.code.2]

/-- A general category, or a group of them. -/
def category? (name : String) : Option Property :=
  match name with
  | "any" => some any
  | "ascii" => some ascii
  | "assigned" => some assigned
  | "l" | "letter" => some (categories 'L')
  | "lc" | "casedletter" => some cased
  | "m" | "mark" | "combiningmark" => some (categories 'M')
  | "n" | "number" => some (categories 'N')
  | "p" | "punctuation" | "punct" => some (categories 'P')
  | "s" | "symbol" => some (categories 'S')
  | "z" | "separator" => some (categories 'Z')
  | "c" | "other" => some (categories 'C')
  | "digit" => some (category .nd)
  | "cntrl" => some (category .cc)
  | name => (Text.Category.all.find? fun k => long k == name || short k == name).map category

/-- A property that a character has or has not. -/
def binary? (name : String) : Option Property :=
  match name with
  | "alphabetic" | "alpha" => some alphabetic
  | "uppercase" | "upper" => some uppercase
  | "lowercase" | "lower" => some lowercase
  | "whitespace" | "wspace" | "space" => some blank
  | _ => none

def script? (name : String) : Option Property := (Text.Script.code? name).map script

/-- The property of a name that stands alone. -/
def ofName? (name : List Char) : Option Property :=
  let name := loose name
  (category? name).or ((binary? name).or (script? name))

/-- The property with a value. -/
def ofValue? (name value : List Char) : Option Property :=
  match loose name with
  | "gc" | "generalcategory" => category? (loose value)
  | "sc" | "script" | "scx" | "scriptextensions" => script? (loose value)
  | _ => none

end Property

end Muster.Pattern
