import Mathlib.Data.List.Basic
import Mathlib.Data.List.Induction
import Muster.Text.Utf8

/-!
# Texts of any octets

Any octets are read as a text: a character for its encoding, and U+FFFD for each longest part that could have
begun a character and for each octet that begins none. The reader that takes one octet at a time gives that text,
and what it holds back is always the beginning of a character.
-/

namespace Muster.Text.Utf8

/-! ### The octets of one character -/

/-- The range of an octet that continues a character. -/
def plain : UInt8 × UInt8 := (0x80, 0xBF)

def Continues (b : UInt8) : Prop := 128 ≤ b.toNat ∧ b.toNat ≤ 191

/-- The octets of one character. The second one is bound where fewer octets would do, where the character would be
a surrogate, and at the end of all characters. -/
inductive WellFormed : List UInt8 → Prop
  | one {a : UInt8} (ha : a.toNat < 128) : WellFormed [a]
  | two {a b : UInt8} (ha : 194 ≤ a.toNat ∧ a.toNat ≤ 223) (hb : Continues b) : WellFormed [a, b]
  | three {a b c : UInt8} (ha : 224 ≤ a.toNat ∧ a.toNat ≤ 239) (hb : Continues b) (hc : Continues c)
      (hleast : a.toNat = 224 → 160 ≤ b.toNat) (hmost : a.toNat = 237 → b.toNat ≤ 159) : WellFormed [a, b, c]
  | four {a b c d : UInt8} (ha : 240 ≤ a.toNat ∧ a.toNat ≤ 244) (hb : Continues b) (hc : Continues c)
      (hd : Continues d) (hleast : a.toNat = 240 → 144 ≤ b.toNat) (hmost : a.toNat = 244 → b.toNat ≤ 143) :
      WellFormed [a, b, c, d]

theorem wellFormed_encode (c : Char) : WellFormed (String.utf8EncodeChar c) := by
  have hvalid : c.val.toNat < 0xD800 ∨ 0xDFFF < c.val.toNat ∧ c.val.toNat < 0x110000 := c.valid
  unfold String.utf8EncodeChar
  simp only
  generalize c.val.toNat = v at hvalid
  split
  · exact .one (by simp; omega)
  · split
    · exact .two (by simp; omega) (by simp [Continues]; omega)
    · split
      · exact .three (by simp; omega) (by simp [Continues]; omega) (by simp [Continues]; omega)
          (by simp; omega) (by simp; omega)
      · exact .four (by simp; omega) (by simp [Continues]; omega) (by simp [Continues]; omega)
          (by simp [Continues]; omega) (by simp; omega) (by simp; omega)

theorem leadBits_eq (lead : UInt8) : leadBits lead =
    if lead.toNat < 128 then lead.toNat else if lead.toNat < 224 then lead.toNat % 32
    else if lead.toNat < 240 then lead.toNat % 16 else lead.toNat % 8 := by
  simp [leadBits, UInt8.lt_iff_toNat_lt]

theorem encode_ofNat {n : Nat} (h : n < 0xD800 ∨ 0xDFFF < n ∧ n < 0x110000) :
    String.utf8EncodeChar (Char.ofNat n) =
      if n ≤ 127 then [UInt8.ofNat n]
      else if n ≤ 2047 then [UInt8.ofNat (n / 64 % 32 + 192), UInt8.ofNat (n % 64 + 128)]
      else if n ≤ 65535 then
        [UInt8.ofNat (n / 4096 % 16 + 224), UInt8.ofNat (n / 64 % 64 + 128), UInt8.ofNat (n % 64 + 128)]
      else
        [UInt8.ofNat (n / 262144 % 8 + 240), UInt8.ofNat (n / 4096 % 64 + 128), UInt8.ofNat (n / 64 % 64 + 128),
          UInt8.ofNat (n % 64 + 128)] := by
  have hvalid : n.isValidChar := h
  have hvalue : (Char.ofNat n).val.toNat = n := by
    rw [Char.ofNat, dif_pos hvalid]
    rfl
  rw [String.utf8EncodeChar, hvalue]

theorem ofNat_eq {m : Nat} {b : UInt8} (h : m = b.toNat) : UInt8.ofNat m = b := by
  rw [h, UInt8.ofNat_toNat]

/-- Octets of a character are the encoding of the character that is read from them. -/
theorem encode_character {s : List UInt8} (h : WellFormed s) : String.utf8EncodeChar (character s) = s := by
  cases h with
  | @one a ha =>
    simp only [character, List.foldl_nil, leadBits_eq, if_pos ha]
    rw [encode_ofNat (by omega), if_pos (by omega), UInt8.ofNat_toNat]
  | @two a b ha hb =>
    unfold Continues at hb
    simp only [character, List.foldl_cons, List.foldl_nil, leadBits_eq]
    rw [if_neg (by omega), if_pos (by omega), encode_ofNat (by omega), if_neg (by omega), if_pos (by omega),
      ofNat_eq (b := a) (by omega), ofNat_eq (b := b) (by omega)]
  | @three a b c ha hb hc hleast hmost =>
    unfold Continues at hb hc
    simp only [character, List.foldl_cons, List.foldl_nil, leadBits_eq]
    rw [if_neg (by omega), if_neg (by omega), if_pos (by omega), encode_ofNat (by omega), if_neg (by omega),
      if_neg (by omega), if_pos (by omega), ofNat_eq (b := a) (by omega), ofNat_eq (b := b) (by omega),
      ofNat_eq (b := c) (by omega)]
  | @four a b c d ha hb hc hd hleast hmost =>
    unfold Continues at hb hc hd
    simp only [character, List.foldl_cons, List.foldl_nil, leadBits_eq]
    rw [if_neg (by omega), if_neg (by omega), if_neg (by omega), encode_ofNat (by omega), if_neg (by omega),
      if_neg (by omega), if_neg (by omega), ofNat_eq (b := a) (by omega), ofNat_eq (b := b) (by omega),
      ofNat_eq (b := c) (by omega), ofNat_eq (b := d) (by omega)]

theorem encode_injective {c d : Char} (h : String.utf8EncodeChar c = String.utf8EncodeChar d) : c = d := by
  have hread (c : Char) : ((String.utf8EncodeChar c).toByteArray).utf8DecodeChar? 0 = some c := by
    have hfront := ByteArray.utf8DecodeChar?_utf8EncodeChar_append (b := ByteArray.empty) (c := c)
    simpa using hfront
  have hc := hread c
  rw [h, hread d, Option.some.injEq] at hc
  exact hc.symm

@[simp] theorem character_encode (c : Char) : character (String.utf8EncodeChar c) = c :=
  encode_injective (encode_character (wellFormed_encode c))

/-! ### What octets still owe -/

/-- What is still to follow, of octets that have to stand each in its range. -/
def after? : List (UInt8 × UInt8) → List UInt8 → Option (List (UInt8 × UInt8))
  | ranges, [] => some ranges
  | [], _ :: _ => none
  | (lo, hi) :: ranges, b :: rest => if lo ≤ b && b ≤ hi then after? ranges rest else none

/-- What is still to follow octets for them to be a character; none where no character begins so. -/
def owed? : List UInt8 → Option (List (UInt8 × UInt8))
  | [] => none
  | lead :: rest => (tail? lead).bind fun ranges => after? ranges rest

@[simp] theorem after?_nil (ranges : List (UInt8 × UInt8)) : after? ranges [] = some ranges := by
  cases ranges <;> rfl

theorem after?_append (ranges : List (UInt8 × UInt8)) (s t : List UInt8) :
    after? ranges (s ++ t) = (after? ranges s).bind fun owed => after? owed t := by
  induction s generalizing ranges with
  | nil => simp
  | cons b rest ih =>
    cases ranges with
    | nil => rfl
    | cons range ranges =>
      rw [List.cons_append, after?, after?]
      split
      · exact ih ranges
      · rfl

theorem owed?_append {s : List UInt8} (h : s ≠ []) (t : List UInt8) :
    owed? (s ++ t) = (owed? s).bind fun owed => after? owed t := by
  cases s with
  | nil => exact absurd rfl h
  | cons lead rest =>
    rw [List.cons_append, owed?, owed?, Option.bind_assoc]
    simp only [after?_append]

theorem after?_nil_iff (rest : List UInt8) : after? [] rest = some [] ↔ rest = [] := by
  cases rest <;> simp [after?]

theorem after?_cons_iff (lo hi : UInt8) (ranges : List (UInt8 × UInt8)) (rest : List UInt8) :
    after? ((lo, hi) :: ranges) rest = some [] ↔
      ∃ b more, rest = b :: more ∧ (lo.toNat ≤ b.toNat ∧ b.toNat ≤ hi.toNat) ∧ after? ranges more = some [] := by
  cases rest with
  | nil => simp
  | cons b more => simp [after?, UInt8.le_iff_toNat_le]

theorem after?_plain {b : UInt8} (hb : Continues b) (ranges : List (UInt8 × UInt8)) (rest : List UInt8) :
    after? (plain :: ranges) (b :: rest) = after? ranges rest := by
  have hrange : (plain.1 ≤ b && b ≤ plain.2) = true := by
    simpa [plain, UInt8.le_iff_toNat_le, Continues] using hb
  exact if_pos hrange

theorem tail?_eq (lead : UInt8) : tail? lead =
    if lead.toNat < 128 then some []
    else if 194 ≤ lead.toNat ∧ lead.toNat ≤ 223 then some [plain]
    else if 224 ≤ lead.toNat ∧ lead.toNat ≤ 239 then
      some [(if lead.toNat = 224 then 0xA0 else 0x80, if lead.toNat = 237 then 0x9F else 0xBF), plain]
    else if 240 ≤ lead.toNat ∧ lead.toNat ≤ 244 then
      some [(if lead.toNat = 240 then 0x90 else 0x80, if lead.toNat = 244 then 0x8F else 0xBF), plain, plain]
    else none := by
  have hall : ∀ n < 256, tail? (UInt8.ofNat n) =
      if n < 128 then some []
      else if 194 ≤ n ∧ n ≤ 223 then some [plain]
      else if 224 ≤ n ∧ n ≤ 239 then
        some [(if n = 224 then 0xA0 else 0x80, if n = 237 then 0x9F else 0xBF), plain]
      else if 240 ≤ n ∧ n ≤ 244 then
        some [(if n = 240 then 0x90 else 0x80, if n = 244 then 0x8F else 0xBF), plain, plain]
      else none := by decide +kernel
  have h := hall lead.toNat lead.toNat_lt
  rwa [UInt8.ofNat_toNat] at h

theorem owed?_of_wellFormed {s : List UInt8} (h : WellFormed s) : owed? s = some [] := by
  cases h with
  | one ha =>
    rw [owed?, tail?_eq, if_pos ha]
    rfl
  | two ha hb =>
    rw [owed?, tail?_eq, if_neg (by omega), if_pos ha]
    exact after?_plain hb _ _
  | three ha hb hc hleast hmost =>
    rw [owed?, tail?_eq, if_neg (by omega), if_neg (by omega), if_pos ha]
    refine (after?_cons_iff _ _ _ _).2 ⟨_, _, rfl, ?_, after?_plain hc _ _⟩
    unfold Continues at hb
    split <;> split <;> simp <;> omega
  | four ha hb hc hd hleast hmost =>
    rw [owed?, tail?_eq, if_neg (by omega), if_neg (by omega), if_neg (by omega), if_pos ha]
    refine (after?_cons_iff _ _ _ _).2 ⟨_, _, rfl, ?_, (after?_plain hc _ _).trans (after?_plain hd _ _)⟩
    unfold Continues at hb
    split <;> split <;> simp <;> omega

theorem wellFormed_of_owed? {s : List UInt8} (h : owed? s = some []) : WellFormed s := by
  cases s with
  | nil => cases h
  | cons a rest =>
    rw [owed?, tail?_eq] at h
    split at h
    · rename_i ha
      simp only [Option.bind_some, after?_nil_iff] at h
      subst h
      exact .one ha
    · split at h
      · rename_i ha
        simp only [Option.bind_some, plain, after?_cons_iff, after?_nil_iff] at h
        obtain ⟨b, _, rfl, hb, rfl⟩ := h
        exact .two ha hb
      · split at h
        · rename_i ha
          simp only [Option.bind_some, plain, after?_cons_iff, after?_nil_iff] at h
          obtain ⟨b, _, rfl, hb, c, _, rfl, hc, rfl⟩ := h
          have hsecond : Continues b ∧ (a.toNat = 224 → 160 ≤ b.toNat) ∧ (a.toNat = 237 → b.toNat ≤ 159) := by
            unfold Continues
            split at hb <;> split at hb <;> simp at hb <;> omega
          exact .three ha hsecond.1 hc hsecond.2.1 hsecond.2.2
        · split at h
          · rename_i ha
            simp only [Option.bind_some, plain, after?_cons_iff, after?_nil_iff] at h
            obtain ⟨b, _, rfl, hb, c, _, rfl, hc, d, _, rfl, hd, rfl⟩ := h
            have hsecond : Continues b ∧ (a.toNat = 240 → 144 ≤ b.toNat) ∧ (a.toNat = 244 → b.toNat ≤ 143) := by
              unfold Continues
              split at hb <;> split at hb <;> simp at hb <;> omega
            exact .four ha hsecond.1 hc hd hsecond.2.1 hsecond.2.2
          · cases h

/-- Octets that owe nothing are a character. -/
theorem owed?_eq_nil_iff {s : List UInt8} : owed? s = some [] ↔ ∃ c, String.utf8EncodeChar c = s := by
  constructor
  · exact fun h => ⟨character s, encode_character (wellFormed_of_owed? h)⟩
  · rintro ⟨c, rfl⟩
    exact owed?_of_wellFormed (wellFormed_encode c)

/-! ### Beginnings of characters -/

/-- Octets that a character begins with; they may be all of it. -/
def Leads (part : List UInt8) : Prop := part ≠ [] ∧ ∃ c more, String.utf8EncodeChar c = part ++ more

/-- Octets that a character begins with and that are not all of it. -/
def Begins (part : List UInt8) : Prop := part ≠ [] ∧ ∃ c more, more ≠ [] ∧ String.utf8EncodeChar c = part ++ more

theorem suffix_of_after? {ranges owed : List (UInt8 × UInt8)} {s : List UInt8} (h : after? ranges s = some owed) :
    owed <:+ ranges := by
  induction s generalizing ranges with
  | nil =>
    rw [after?_nil, Option.some.injEq] at h
    exact h ▸ List.suffix_rfl
  | cons b rest ih =>
    cases ranges with
    | nil => cases h
    | cons range ranges =>
      rw [after?] at h
      split at h
      · exact (ih h).trans (List.suffix_cons _ _)
      · cases h

theorem le_of_mem_tail? {lead : UInt8} {ranges : List (UInt8 × UInt8)} (h : tail? lead = some ranges) :
    ∀ range ∈ ranges, range.1 ≤ range.2 := by
  unfold tail? at h
  simp only at h
  repeat' split at h
  all_goals cases h
  all_goals simp

theorem after?_least {ranges : List (UInt8 × UInt8)} (h : ∀ range ∈ ranges, range.1 ≤ range.2) :
    after? ranges (ranges.map (·.1)) = some [] := by
  induction ranges with
  | nil => rfl
  | cons range rest ih =>
    have hrange : (range.1 ≤ range.1 && range.1 ≤ range.2) = true := by
      simp [h range (by simp)]
    rw [List.map_cons, after?, if_pos hrange, ih fun r hr => h r (by simp [hr])]

/-- Octets can be filled up to a character with as many octets as they owe. -/
theorem exists_filled {part : List UInt8} {owed : List (UInt8 × UInt8)} (h : owed? part = some owed) :
    part ≠ [] ∧ ∃ c more, more.length = owed.length ∧ String.utf8EncodeChar c = part ++ more := by
  have hne : part ≠ [] := by
    rintro rfl
    cases h
  have hranges : ∀ range ∈ owed, range.1 ≤ range.2 := by
    cases part with
    | nil => cases h
    | cons lead rest =>
      obtain ⟨ranges, htail, hafter⟩ := Option.bind_eq_some_iff.1 h
      exact fun range hrange => le_of_mem_tail? htail range ((suffix_of_after? hafter).mem hrange)
  have hfilled : owed? (part ++ owed.map (·.1)) = some [] := by
    rw [owed?_append hne, h, Option.bind_some, after?_least hranges]
  obtain ⟨c, hc⟩ := owed?_eq_nil_iff.1 hfilled
  exact ⟨hne, c, _, by simp, hc⟩

theorem exists_owed? {c : Char} {part more : List UInt8} (hne : part ≠ [])
    (h : String.utf8EncodeChar c = part ++ more) : ∃ owed, owed? part = some owed ∧ after? owed more = some [] := by
  have hwhole := owed?_eq_nil_iff.2 ⟨c, h⟩
  rw [owed?_append hne] at hwhole
  exact Option.bind_eq_some_iff.1 hwhole

theorem leads_iff {part : List UInt8} : Leads part ↔ ∃ owed, owed? part = some owed := by
  constructor
  · rintro ⟨hne, c, more, h⟩
    obtain ⟨owed, howed, -⟩ := exists_owed? hne h
    exact ⟨owed, howed⟩
  · rintro ⟨owed, h⟩
    obtain ⟨hne, c, more, -, hc⟩ := exists_filled h
    exact ⟨hne, c, more, hc⟩

theorem not_leads_iff {part : List UInt8} : ¬ Leads part ↔ owed? part = none := by
  rw [leads_iff, ← Option.isSome_iff_exists, Option.not_isSome_iff_eq_none]

theorem begins_iff {part : List UInt8} : Begins part ↔ ∃ owed, owed? part = some owed ∧ owed ≠ [] := by
  constructor
  · rintro ⟨hne, c, more, hmore, h⟩
    obtain ⟨owed, howed, hafter⟩ := exists_owed? hne h
    refine ⟨owed, howed, ?_⟩
    rintro rfl
    exact hmore ((after?_nil_iff more).1 hafter)
  · rintro ⟨owed, h, howed⟩
    obtain ⟨hne, c, more, hlength, hc⟩ := exists_filled h
    refine ⟨hne, c, more, ?_, hc⟩
    rintro rfl
    exact howed (List.length_eq_zero_iff.1 hlength.symm)

theorem Begins.length_le {part : List UInt8} (h : Begins part) : part.length ≤ 3 := by
  obtain ⟨-, c, more, hmore, hc⟩ := h
  have hlength : part.length + more.length ≤ 4 := by
    rw [← List.length_append, ← hc, String.length_utf8EncodeChar]
    exact c.utf8Size_le_four
  have hpos : 0 < more.length := List.length_pos_iff.2 hmore
  omega

/-! ### The text of any octets -/

/-- Octets in front of others that are no character: one that begins none, or the longest part that begins one. -/
inductive IsBroken : List UInt8 → List UInt8 → Prop
  | stray {b : UInt8} (rest : List UInt8) (h : ¬ Leads [b]) : IsBroken [b] rest
  | left {part : List UInt8} {b : UInt8} (rest : List UInt8) (h : Begins part) (hno : ¬ Leads (part ++ [b])) :
      IsBroken part (b :: rest)

/-- Any octets as a text: a broken part, and one that is cut off at the end, is one U+FFFD. -/
inductive Lossy : List UInt8 → List Char → Prop
  | nil : Lossy [] []
  | character (c : Char) {rest : List UInt8} {text : List Char} (h : Lossy rest text) :
      Lossy (String.utf8EncodeChar c ++ rest) (c :: text)
  | broken {part rest : List UInt8} {text : List Char} (hpart : IsBroken part rest) (h : Lossy rest text) :
      Lossy (part ++ rest) (replacement :: text)
  | cut {part : List UInt8} (h : Begins part) : Lossy part [replacement]

/-- Nothing is pending, or the beginning of a character with what it owes. -/
def Pending.Fits (p : Pending) : Prop := p = {} ∨ owed? p.octets = some p.owed ∧ p.owed ≠ []

theorem fits_nothing : Pending.Fits {} := .inl rfl

theorem Pending.Fits.begins {p : Pending} (h : p.Fits) : p.octets = [] ∨ Begins p.octets := by
  rcases h with rfl | h
  · exact .inl rfl
  · exact .inr (begins_iff.2 ⟨p.owed, h⟩)

/-! ### One octet more -/

theorem decode_cons (p : Pending) (b : UInt8) (rest : List UInt8) :
    decode p (b :: rest) = ((decode (feed p b).1 rest).1, (feed p b).2 ++ (decode (feed p b).1 rest).2) := rfl

theorem start_eq (b : UInt8) :
    start b =
      match owed? [b] with
      | some [] => ({}, [character [b]])
      | some owed => (⟨[b], owed⟩, [])
      | none => ({}, [replacement]) := by
  have htail : owed? [b] = tail? b := by simp [owed?]
  rw [start, htail]
  rcases tail? b with _ | _ | _ <;> rfl

/-- What an octet makes of what is pending, by what both owe together. -/
theorem feed_eq {p : Pending} (hp : p.Fits) (b : UInt8) :
    feed p b =
      match owed? (p.octets ++ [b]) with
      | some [] => ({}, [character (p.octets ++ [b])])
      | some owed => (⟨p.octets ++ [b], owed⟩, [])
      | none => if p.octets = [] then ({}, [replacement]) else ((start b).1, replacement :: (start b).2) := by
  rcases hp with rfl | ⟨howed, hne⟩
  · refine (start_eq b).trans ?_
    rcases h : owed? [b] with _ | _ | _ <;> simp [h]
  · have hpart : p.octets ≠ [] := by
      intro h
      rw [h] at howed
      cases howed
    rw [owed?_append hpart, howed, Option.bind_some, feed]
    cases hranges : p.owed with
    | nil => exact absurd hranges hne
    | cons range ranges =>
      simp only [after?, after?_nil]
      split
      · cases ranges <;> rfl
      · simp

theorem Pending.Fits.feed {p : Pending} (hp : p.Fits) (b : UInt8) : (feed p b).1.Fits := by
  have hstart : (start b).1.Fits := by
    rw [start_eq]
    split
    · exact fits_nothing
    · rename_i owed hne howed
      exact .inr ⟨howed, hne⟩
    · exact fits_nothing
  rw [feed_eq hp]
  split
  · exact fits_nothing
  · rename_i owed hne howed
    exact .inr ⟨howed, hne⟩
  · split
    · exact fits_nothing
    · exact hstart

theorem Pending.Fits.decode {p : Pending} (hp : p.Fits) (s : List UInt8) : (decode p s).1.Fits := by
  induction s generalizing p with
  | nil => exact hp
  | cons b rest ih => exact ih (hp.feed b)

/-! ### The reader gives the text -/

/-- What the reader gives is the text of the octets. -/
theorem lossy_decode {p : Pending} (hp : p.Fits) (s : List UInt8) :
    Lossy (p.octets ++ s) ((decode p s).2 ++ flush (decode p s).1) := by
  induction s generalizing p with
  | nil =>
    rw [List.append_nil, decode_nil, List.nil_append]
    rcases hp.begins with hnil | hbegins
    · rw [hnil, flush, hnil]
      exact .nil
    · rw [flush, if_neg (by simpa using hbegins.1)]
      exact .cut hbegins
  | cons b rest ih =>
    -- If an octet is not left to a character before it, it is read as the first one.
    have hstart : Lossy (b :: rest)
        ((start b).2 ++ (decode (start b).1 rest).2 ++ flush (decode (start b).1 rest).1) := by
      rw [start_eq]
      split
      · rename_i howed
        have hchar := encode_character (wellFormed_of_owed? howed)
        have hlossy := Lossy.character (character [b]) (ih fits_nothing)
        rw [hchar] at hlossy
        exact hlossy
      · rename_i owed hne howed
        exact ih (p := ⟨[b], owed⟩) (.inr ⟨howed, hne⟩)
      · rename_i howed
        exact .broken (.stray rest (not_leads_iff.2 howed)) (ih fits_nothing)
    rw [decode_cons, feed_eq hp]
    split
    · rename_i howed
      have hchar := encode_character (wellFormed_of_owed? howed)
      have hlossy := Lossy.character (character (p.octets ++ [b])) (ih fits_nothing)
      rw [hchar, List.append_assoc] at hlossy
      exact hlossy
    · rename_i owed hne howed
      have hlossy := ih (p := ⟨p.octets ++ [b], owed⟩) (.inr ⟨howed, hne⟩)
      rw [List.append_assoc] at hlossy
      exact hlossy
    · rename_i howed
      have hno := not_leads_iff.2 howed
      split
      · rename_i hnil
        rw [hnil, List.nil_append] at hno ⊢
        exact .broken (.stray rest hno) (ih fits_nothing)
      · rename_i hpart
        have hbegins : Begins p.octets := hp.begins.resolve_left hpart
        exact .broken (.left rest hbegins hno) hstart

/-- What is left at the end is given as its text. -/
theorem lossy_flush {p : Pending} (hp : p.Fits) : Lossy p.octets (flush p) := by
  have hlossy := lossy_decode hp []
  rwa [List.append_nil, decode_nil, List.nil_append] at hlossy

/-- Octets that begin a character are held back, and those of a whole one are given. -/
theorem decode_of_owed? {s : List UInt8} {owed : List (UInt8 × UInt8)} (h : owed? s = some owed) :
    decode {} s = if owed = [] then ({}, [character s]) else (⟨s, owed⟩, []) := by
  induction s using List.reverseRecOn generalizing owed with
  | nil => cases h
  | append_singleton front b ih =>
    have hfeed {p : Pending} (hp : p.Fits) (hfront : p.octets = front) :
        feed p b = if owed = [] then ({}, [character (front ++ [b])]) else (⟨front ++ [b], owed⟩, []) := by
      rw [feed_eq hp, hfront, h]
      cases owed <;> simp
    by_cases hfront : front = []
    · subst hfront
      simp [decode, hfeed fits_nothing rfl]
    · rw [owed?_append hfront] at h
      obtain ⟨before, hbefore, hafter⟩ := Option.bind_eq_some_iff.1 h
      have hne : before ≠ [] := by
        rintro rfl
        cases hafter
      rw [decode_append, ih hbefore, if_neg hne]
      simp [decode, hfeed (p := ⟨front, before⟩) (.inr ⟨hbefore, hne⟩) rfl]

theorem decode_begins {part : List UInt8} (h : Begins part) : ∃ owed, owed? part = some owed ∧ owed ≠ [] ∧
    decode {} part = (⟨part, owed⟩, []) := by
  obtain ⟨owed, howed, hne⟩ := begins_iff.1 h
  exact ⟨owed, howed, hne, by rw [decode_of_owed? howed, if_neg hne]⟩

theorem decode_encode (c : Char) (rest : List UInt8) :
    decode {} (String.utf8EncodeChar c ++ rest) = ((decode {} rest).1, c :: (decode {} rest).2) := by
  have hwhole := decode_of_owed? (owed?_eq_nil_iff.2 ⟨c, rfl⟩)
  rw [decode_append, hwhole]
  simp

theorem decode_broken {part rest : List UInt8} (h : IsBroken part rest) :
    decode {} (part ++ rest) = ((decode {} rest).1, replacement :: (decode {} rest).2) := by
  cases h with
  | @stray b _ hno =>
    have hfeed : feed {} b = ({}, [replacement]) := by
      rw [feed_eq fits_nothing]
      simp [not_leads_iff.1 hno]
    rw [List.singleton_append, decode, hfeed]
    rfl
  | @left part b rest hbegins hno =>
    obtain ⟨owed, howed, hne, hdecode⟩ := decode_begins hbegins
    have hfeed : feed ⟨part, owed⟩ b = ((feed {} b).1, replacement :: (feed {} b).2) := by
      rw [feed_eq (p := ⟨part, owed⟩) (.inr ⟨howed, hne⟩), not_leads_iff.1 hno]
      simp only [if_neg hbegins.1]
      rfl
    rw [decode_append, hdecode]
    simp [decode, hfeed]

/-- Any octets have one text, and the reader gives it. -/
theorem lossy_iff {s : List UInt8} {text : List Char} :
    Lossy s text ↔ text = (decode {} s).2 ++ flush (decode {} s).1 := by
  constructor
  · intro h
    induction h with
    | nil => rfl
    | character c _ ih => rw [decode_encode, ih, List.cons_append]
    | broken hpart _ ih => rw [decode_broken hpart, ih, List.cons_append]
    | cut h =>
      obtain ⟨owed, -, -, hdecode⟩ := decode_begins h
      rw [hdecode, flush, if_neg (by simpa using h.1)]
      rfl
  · rintro rfl
    exact lossy_decode fits_nothing s

end Muster.Text.Utf8
