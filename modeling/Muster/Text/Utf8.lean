/-!
# UTF-8, octet by octet

A reader of UTF-8 that takes one octet at a time, so that it cannot matter how the octets were cut into
chunks. An ill-formed sequence becomes one U+FFFD for its longest part that could have begun a
character.
-/

namespace Muster.Text.Utf8

/-- The octets that may follow `lead`, one range after the other; none where no character begins so. -/
def tail? (lead : UInt8) : Option (List (UInt8 × UInt8)) :=
  let plain : UInt8 × UInt8 := (0x80, 0xBF)
  if lead < 0x80 then some []
  else if 0xC2 ≤ lead && lead ≤ 0xDF then some [plain]
  else if lead = 0xE0 then some [(0xA0, 0xBF), plain]
  else if lead = 0xED then some [(0x80, 0x9F), plain]
  else if 0xE1 ≤ lead && lead ≤ 0xEF then some [plain, plain]
  else if lead = 0xF0 then some [(0x90, 0xBF), plain, plain]
  else if 0xF1 ≤ lead && lead ≤ 0xF3 then some [plain, plain, plain]
  else if lead = 0xF4 then some [(0x80, 0x8F), plain, plain]
  else none

/-- The value that the lead octet contributes. -/
def leadBits (lead : UInt8) : Nat :=
  if lead < 0x80 then lead.toNat
  else if lead < 0xE0 then lead.toNat % 32
  else if lead < 0xF0 then lead.toNat % 16
  else lead.toNat % 8

/-- The character that a whole sequence of octets encodes. -/
def character : List UInt8 → Char
  | [] => '\x00'
  | lead :: rest => Char.ofNat (rest.foldl (fun n b => n * 64 + b.toNat % 64) (leadBits lead))

def replacement : Char := '\ufffd'

/-- What has been read of a character that is not complete yet, and what may follow. -/
structure Pending where
  octets : List UInt8 := []
  owed : List (UInt8 × UInt8) := []
  deriving DecidableEq, Repr

/-- Begins a character with `b`. -/
def start (b : UInt8) : Pending × List Char :=
  match tail? b with
  | none => ({}, [replacement])
  | some [] => ({}, [character [b]])
  | some owed => (⟨[b], owed⟩, [])

/-- Takes one octet and gives the characters that it completes. -/
def feed (p : Pending) (b : UInt8) : Pending × List Char :=
  match p.owed with
  | [] => start b
  | (lo, hi) :: owed =>
    if lo ≤ b && b ≤ hi then
      match owed with
      | [] => ({}, [character (p.octets ++ [b])])
      | _ => (⟨p.octets ++ [b], owed⟩, [])
    else
      let (q, out) := start b
      (q, replacement :: out)

/-- Takes the octets of a chunk one after the other. -/
def decode (p : Pending) : List UInt8 → Pending × List Char
  | [] => (p, [])
  | b :: rest =>
    let (q, out) := feed p b
    let (r, more) := decode q rest
    (r, out ++ more)

/-- At the end of the stream an unfinished character becomes one U+FFFD. -/
def flush (p : Pending) : List Char := if p.octets.isEmpty then [] else [replacement]

@[simp] theorem decode_nil (p : Pending) : decode p [] = (p, []) := rfl

/-- Reading on after a first chunk is reading both chunks as one. -/
theorem decode_append (p : Pending) (s t : List UInt8) :
    decode p (s ++ t) =
      ((decode (decode p s).1 t).1, (decode p s).2 ++ (decode (decode p s).1 t).2) := by
  induction s generalizing p with
  | nil => rfl
  | cons b rest ih => simp [decode, ih, List.append_assoc]

/-- The octets of a text. -/
def encode (s : String) : List UInt8 := s.toUTF8.toList

end Muster.Text.Utf8
