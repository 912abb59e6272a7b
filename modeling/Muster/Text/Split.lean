/-!
# Cutting texts

Cutting a text at a separator, finding and replacing a part of it, and its lines.
-/

namespace Muster.Text

/-- The pieces between the separators; one more than there are separators. -/
def split (sep : Char) : List Char → List (List Char)
  | [] => [[]]
  | c :: rest =>
    if c = sep then [] :: split sep rest
    else match split sep rest with
      | [] => [[c]]
      | piece :: pieces => (c :: piece) :: pieces

/-- What stands before and after the first separator. -/
def splitOnce? (sep : Char) : List Char → Option (List Char × List Char)
  | [] => none
  | c :: rest =>
    if c = sep then some ([], rest)
    else (splitOnce? sep rest).map fun (before, after) => (c :: before, after)

/-- The pieces of a text between the separators. -/
def pieces (sep : Char) (s : String) : List String := (split sep s.toList).map String.ofList

/-- Whether `part` stands somewhere in the text. -/
def occurs (part : List Char) : List Char → Bool
  | [] => part.isEmpty
  | c :: rest => part.isPrefixOf (c :: rest) || occurs part rest

/-- Replaces each occurrence of `part`, from the left; `skip` characters of the last one are still to
be passed over. -/
def replaceFrom (part new : List Char) : Nat → List Char → List Char
  | _, [] => []
  | skip + 1, _ :: rest => replaceFrom part new skip rest
  | 0, c :: rest =>
    if !part.isEmpty && part.isPrefixOf (c :: rest) then
      new ++ replaceFrom part new (part.length - 1) rest
    else c :: replaceFrom part new 0 rest

/-- Replaces each occurrence of `part`, from the left. -/
def replaceAll (part new : String) (s : String) : String :=
  String.ofList (replaceFrom part.toList new.toList 0 s.toList)

/-- Every colon becomes a dot. -/
def dotted (s : String) : String := s.map fun c => if c = ':' then '.' else c

private def withoutReturn (line : List Char) : List Char :=
  if line.getLast? = some '\r' then line.dropLast else line

/-- The lines of a text, without their ends; nothing stands after the last end. -/
def lines (s : String) : List String :=
  let pieces := split '\n' s.toList
  let last := (pieces.getLast?.getD []) |> fun piece => if piece.isEmpty then [] else [piece]
  (pieces.dropLast.map withoutReturn ++ last).map String.ofList

end Muster.Text
