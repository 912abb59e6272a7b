import Muster.Proofs.Calendar
import Muster.Proofs.Decimal
import Mathlib.Data.List.TakeWhile

/-!
# Times and their texts

The text of a moment reads back as that moment, and whatever is read is a moment that has a text.
-/

namespace Muster.Time

open Text (isDigit digitsValue isBlank)

/-- A moment within the years of the calendar. Its fraction is less than a second, or less than two at the
end of a minute, where a leap second may stand. -/
structure IsValid (t : Time) : Prop where
  fraction : t.nanos < 1000000000 ∨ t.nanos < 2000000000 ∧ t.seconds % 60 = 59
  first : minYear ≤ (dateOf (t.seconds / 86400)).1
  last : (dateOf (t.seconds / 86400)).1 ≤ maxYear

/-! ### Digits in the text -/

/-- The digits of a number, with zeros up to a width. -/
def digitsOf (width n : Nat) : List Char :=
  List.replicate (width - (Nat.toDigits 10 n).length) '0' ++ Nat.toDigits 10 n

theorem toList_pushn (s : String) (c : Char) (n : Nat) :
    (s.pushn c n).toList = s.toList ++ List.replicate n c := by
  rw [String.pushn_eq_repeat_push]
  induction n with
  | zero => simp [Nat.repeat]
  | succ n ih => simp [Nat.repeat, ih, List.replicate_succ', String.toList_push]

theorem toList_padded (width n : Nat) : (padded width n).toList = digitsOf width n := by
  simp [padded, digitsOf, toList_pushn, Nat.repr_eq_ofList_toDigits]

theorem isDigit_of_mem_digitsOf {width n : Nat} {c : Char} (h : c ∈ digitsOf width n) : isDigit c := by
  rcases List.mem_append.1 h with hc | hc
  · rw [List.eq_of_mem_replicate hc]
    decide
  · exact Text.isDigit_of_mem_toDigits hc

theorem digitsValue_digitsOf (width n : Nat) : digitsValue 0 (digitsOf width n) = n :=
  Text.digitsValue_zeros_toDigits _ n

theorem digitsOf_ne_nil (width n : Nat) : digitsOf width n ≠ [] := by simp [digitsOf]

theorem length_digitsOf {width n : Nat} (hw : 0 < width) (h : n < Nat.pow 10 width) :
    (digitsOf width n).length = width := by
  have hlen := (Nat.length_toDigits_le_iff (n := n) (by decide : 1 < 10) hw).2 h
  simp only [digitsOf, List.length_append, List.length_replicate]
  omega

/-- The digits of a number are read up to the width, or up to a character that is no digit. -/
theorem digits?_append {width : Nat} {s rest : List Char} (hs : ∀ c ∈ s, isDigit c) (hne : s ≠ [])
    (hlen : s.length ≤ width) (hrest : s.length = width ∨ ∀ c ∈ rest.head?, isDigit c = false) :
    digits? width (s ++ rest) = some (digitsValue 0 s, rest) := by
  have htake : ((s ++ rest).take width).takeWhile isDigit = s := by
    rw [List.take_append, List.take_of_length_le hlen, List.takeWhile_append_of_pos hs]
    suffices h : (rest.take (width - s.length)).takeWhile isDigit = [] by rw [h, List.append_nil]
    rcases hrest with hw | hr
    · simp [hw]
    · cases rest with
      | nil => simp
      | cons c rest =>
        cases hk : width - s.length with
        | zero => simp
        | succ k => simp [hr c (by simp)]
  simp [digits?, htake, hne]

theorem skipBlanks_of_isDigit {s rest : List Char} (hs : ∀ c ∈ s, isDigit c) (hne : s ≠ []) :
    skipBlanks (s ++ rest) = s ++ rest := by
  cases s with
  | nil => exact absurd rfl hne
  | cons c s => simp [skipBlanks, Text.not_isBlank_of_isDigit (hs c (by simp))]

theorem ne_cons_of_isDigit {s rest tail : List Char} {c : Char} (hs : ∀ c ∈ s, isDigit c)
    (hne : s ≠ []) (hc : isDigit c = false) : s ++ rest ≠ c :: tail := by
  cases s with
  | nil => exact absurd rfl hne
  | cons d s =>
    intro heq
    simp only [List.cons_append, List.cons.injEq] at heq
    have hd := hs d (by simp)
    rw [heq.1, hc] at hd
    cases hd

theorem field?_digitsOf (lo hi : Nat) {n : Nat} (hlo : lo ≤ n) (hhi : n ≤ hi) (h : n < 100)
    (rest : List Char) : field? lo hi (digitsOf 2 n ++ rest) = some (n, rest) := by
  have hs : ∀ c ∈ digitsOf 2 n, isDigit c := fun c => isDigit_of_mem_digitsOf
  have hlen : (digitsOf 2 n).length = 2 := length_digitsOf (by decide) h
  rw [field?, skipBlanks_of_isDigit hs (digitsOf_ne_nil 2 n),
    digits?_append hs (digitsOf_ne_nil 2 n) (by omega) (.inl hlen), digitsValue_digitsOf]
  simp [hlo, hhi]

theorem mark?_self {c : Char} (h : isBlank c = false) (rest : List Char) :
    mark? c (c :: rest) = some rest := by
  simp [mark?, skipBlanks, h]

/-- The year is written with four digits or more, and with a sign where four are not enough. -/
theorem toList_yearText (year : Int) :
    (yearText year).toList =
      if 0 ≤ year ∧ year ≤ 9999 then digitsOf 4 year.toNat
      else (if year < 0 then '-' else '+') :: digitsOf 4 year.natAbs := by
  unfold yearText
  split
  · exact toList_padded 4 year.toNat
  · split <;> simp [toList_padded]

/-- The digits of a number are read to their end, if a character follows that is no digit. -/
theorem digits?_length (width n : Nat) {c : Char} (h : isDigit c = false) (rest : List Char) :
    digits? (digitsOf width n ++ c :: rest).length (digitsOf width n ++ c :: rest) =
      some (n, c :: rest) := by
  rw [digits?_append (fun c => isDigit_of_mem_digitsOf) (digitsOf_ne_nil width n) (by simp)
    (.inr (by simpa using h)), digitsValue_digitsOf]

/-- A year reads back, with the dash behind it. -/
theorem year?_yearText (year : Int) (rest : List Char) :
    year? ((yearText year).toList ++ '-' :: rest) = some (year, '-' :: rest) := by
  have hdash : isDigit '-' = false := by decide
  rw [toList_yearText]
  split
  · rename_i hrange
    have hs : ∀ c ∈ digitsOf 4 year.toNat, isDigit c := fun c => isDigit_of_mem_digitsOf
    have hne := digitsOf_ne_nil 4 year.toNat
    have hpow : Nat.pow 10 4 = 10000 := rfl
    have hlen : (digitsOf 4 year.toNat).length = 4 :=
      length_digitsOf (by decide) (by rw [hpow]; omega)
    have hread : digits? 4 (digitsOf 4 year.toNat ++ '-' :: rest) = some (year.toNat, '-' :: rest) := by
      rw [digits?_append hs hne (by omega) (.inl hlen), digitsValue_digitsOf]
    rw [year?, skipBlanks_of_isDigit hs hne]
    split
    · rename_i heq
      exact absurd heq (ne_cons_of_isDigit hs hne (by decide))
    · rename_i heq
      exact absurd heq (ne_cons_of_isDigit hs hne (by decide))
    · rw [hread]
      simp only [Option.map_some, Option.some.injEq, Prod.mk.injEq, and_true]
      omega
  · have hread := digits?_length 4 year.natAbs hdash rest
    by_cases hneg : year < 0
    · have hblank : isBlank '-' = false := by decide
      simp only [hneg, if_true, List.cons_append, year?, skipBlanks, List.dropWhile_cons, hblank,
        Bool.false_eq_true, if_false, hread, Option.map_some, Option.some.injEq, Prod.mk.injEq, and_true]
      omega
    · have hblank : isBlank '+' = false := by decide
      simp only [hneg, if_false, List.cons_append, year?, skipBlanks, List.dropWhile_cons, hblank,
        Bool.false_eq_true, hread, Option.map_some, Option.some.injEq, Prod.mk.injEq, and_true]
      omega

/-- So many digits behind the point are read as billionths. -/
theorem fraction?_digitsOf {width n : Nat} (hw : 0 < width) (hw' : width ≤ 9)
    (h : n < Nat.pow 10 width) (rest : List Char) :
    fraction? ('.' :: (digitsOf width n ++ 'Z' :: rest)) =
      some (n * Nat.pow 10 (9 - width), 'Z' :: rest) := by
  have hlen : (digitsOf width n).length = width := length_digitsOf hw h
  have hmark : isDigit 'Z' = false := by decide
  have hread : digits? 9 (digitsOf width n ++ 'Z' :: rest) = some (n, 'Z' :: rest) := by
    rw [digits?_append (fun c => isDigit_of_mem_digitsOf) (digitsOf_ne_nil width n) (by omega)
      (.inr (by simpa using hmark)), digitsValue_digitsOf]
  have hdrop : ('Z' :: rest).dropWhile isDigit = 'Z' :: rest := by simp [hmark]
  simp only [fraction?, hread, Option.map_some, hdrop, List.length_append, hlen]
  rw [Nat.add_sub_cancel]

/-- A fraction reads back, with the mark of the offset behind it. -/
theorem fraction?_fractionText {nanos : Nat} (h : nanos < 1000000000) (rest : List Char) :
    fraction? ((fractionText nanos).toList ++ 'Z' :: rest) = some (nanos, 'Z' :: rest) := by
  have hmilli : Nat.pow 10 3 = 1000 ∧ Nat.pow 10 6 = 1000000 ∧ Nat.pow 10 9 = 1000000000 :=
    ⟨rfl, rfl, rfl⟩
  unfold fractionText
  split
  · rename_i hzero
    simp [fraction?, hzero]
  · split
    · rename_i hmod
      have hread := fraction?_digitsOf (n := nanos / 1000000) (by decide : 0 < 3) (by decide)
        (by omega) rest
      have hvalue : nanos / 1000000 * Nat.pow 10 (9 - 3) = nanos := by
        rw [show 9 - 3 = 6 from rfl, hmilli.2.1]
        omega
      rw [hvalue] at hread
      simpa [toList_padded] using hread
    · split
      · rename_i hmod
        have hread := fraction?_digitsOf (n := nanos / 1000) (by decide : 0 < 6) (by decide)
          (by omega) rest
        have hvalue : nanos / 1000 * Nat.pow 10 (9 - 6) = nanos := by
          rw [show 9 - 6 = 3 from rfl, hmilli.1]
          omega
        rw [hvalue] at hread
        simpa [toList_padded] using hread
      · have hread := fraction?_digitsOf (n := nanos) (by decide : 0 < 9) (by decide) (by omega) rest
        have hvalue : nanos * Nat.pow 10 (9 - 9) = nanos := Nat.mul_one nanos
        rw [hvalue] at hread
        simpa [toList_padded] using hread

/-! ### Moments -/

/-- The characters of a moment's text. -/
theorem toList_text (t : Time) :
    t.text.toList =
      (yearText (dateOf (t.seconds / 86400)).1).toList ++ '-' ::
        (digitsOf 2 (dateOf (t.seconds / 86400)).2.1 ++ '-' ::
          (digitsOf 2 (dateOf (t.seconds / 86400)).2.2 ++ 'T' ::
            (digitsOf 2 ((t.seconds % 86400).toNat / 3600) ++ ':' ::
              (digitsOf 2 ((t.seconds % 86400).toNat / 60 % 60) ++ ':' ::
                (digitsOf 2 ((t.seconds % 86400).toNat % 60 +
                    if 1000000000 ≤ t.nanos then 1 else 0) ++
                  ((fractionText (if 1000000000 ≤ t.nanos then t.nanos - 1000000000
                    else t.nanos)).toList ++ ['Z'])))))) := by
  simp only [text, String.toList_append, toList_padded, List.append_assoc]
  rfl

/-- A valid moment reads back from its text. -/
theorem parse?_text {t : Time} (h : t.IsValid) : parse? t.text = some t := by
  obtain ⟨hm₀, hm₁, hd₀, hd₁⟩ := dateOf_bounds (t.seconds / 86400)
  have hdays : daysIn (dateOf (t.seconds / 86400)).1 (dateOf (t.seconds / 86400)).2.1 ≤ 31 := by
    unfold daysIn
    split
    · split <;> omega
    · split <;> omega
  have hdate := dayNumber_dateOf (t.seconds / 86400)
  have hfirst := h.first
  have hlast := h.last
  have hday : 0 ≤ t.seconds % 86400 ∧ t.seconds % 86400 < 86400 := by omega
  -- A second of 60 is written exactly for a leap second.
  have hleap : (t.seconds % 86400).toNat % 60 + (if 1000000000 ≤ t.nanos then 1 else 0) = 60 ↔
      1000000000 ≤ t.nanos := by
    have := h.fraction
    split <;> omega
  have hofDay : (((t.seconds % 86400).toNat / 3600 * 3600 + (t.seconds % 86400).toNat / 60 % 60 * 60 +
      if (t.seconds % 86400).toNat % 60 + (if 1000000000 ≤ t.nanos then 1 else 0) = 60 then 59
      else (t.seconds % 86400).toNat % 60 + if 1000000000 ≤ t.nanos then 1 else 0 : Nat) : Int) =
      t.seconds % 86400 := by
    have := h.fraction
    simp only [hleap]
    split <;> omega
  have hseconds : t.seconds / 86400 * 86400 + t.seconds % 86400 = t.seconds := by omega
  have hdash : isBlank '-' = false := by decide
  have hcolon : isBlank ':' = false := by decide
  have hoffset : offset? (skipBlanks ['Z']) = some (0, []) := by decide
  have hmonth := field?_digitsOf 1 12 hm₀ hm₁ (by omega)
  have hdayField := field?_digitsOf 1 31 hd₀ (by omega) (by omega)
  have hhour := field?_digitsOf 0 23 (n := (t.seconds % 86400).toNat / 3600) (by omega) (by omega)
    (by omega)
  have hminute := field?_digitsOf 0 59 (n := (t.seconds % 86400).toNat / 60 % 60) (by omega)
    (by omega) (by omega)
  have hsecond := field?_digitsOf 0 60
    (n := (t.seconds % 86400).toNat % 60 + if 1000000000 ≤ t.nanos then 1 else 0) (by omega)
    (by split <;> omega) (by split <;> omega)
  have hnanosLt : (if 1000000000 ≤ t.nanos then t.nanos - 1000000000 else t.nanos) < 1000000000 := by
    have := h.fraction
    split <;> omega
  have hfraction := fraction?_fractionText hnanosLt
  have hnanos : (if (t.seconds % 86400).toNat % 60 + (if 1000000000 ≤ t.nanos then 1 else 0) = 60 then
      (if 1000000000 ≤ t.nanos then t.nanos - 1000000000 else t.nanos) + 1000000000
      else if 1000000000 ≤ t.nanos then t.nanos - 1000000000 else t.nanos) = t.nanos := by
    simp only [hleap]
    split <;> omega
  unfold parse?
  rw [toList_text]
  refine Option.bind_eq_some_iff.2 ⟨_, year?_yearText _ _, ?_⟩
  refine Option.bind_eq_some_iff.2 ⟨_, mark?_self hdash _, ?_⟩
  refine Option.bind_eq_some_iff.2 ⟨_, hmonth _, ?_⟩
  refine Option.bind_eq_some_iff.2 ⟨_, mark?_self hdash _, ?_⟩
  refine Option.bind_eq_some_iff.2 ⟨_, hdayField _, ?_⟩
  refine Option.bind_eq_some_iff.2 ⟨_, rfl, ?_⟩
  refine Option.bind_eq_some_iff.2 ⟨_, hhour _, ?_⟩
  refine Option.bind_eq_some_iff.2 ⟨_, mark?_self hcolon _, ?_⟩
  refine Option.bind_eq_some_iff.2 ⟨_, hminute _, ?_⟩
  refine Option.bind_eq_some_iff.2 ⟨_, mark?_self hcolon _, ?_⟩
  refine Option.bind_eq_some_iff.2 ⟨_, hsecond _, ?_⟩
  refine Option.bind_eq_some_iff.2 ⟨_, hfraction _, ?_⟩
  refine Option.bind_eq_some_iff.2 ⟨_, hoffset, ?_⟩
  simp only [skipBlanks, List.dropWhile_nil, List.isEmpty_nil, Bool.not_true, Bool.false_eq_true, if_false,
    Int.sub_zero, hofDay, hdate, hseconds, hnanos]
  rw [if_neg (by omega), if_neg (by omega)]

/-! ### What is read -/

theorem field?_le {lo hi : Nat} {s rest : List Char} {n : Nat} (h : field? lo hi s = some (n, rest)) :
    n ≤ hi := by
  simp only [field?, Option.filter_eq_some_iff, Bool.and_eq_true, decide_eq_true_eq] at h
  exact h.2.2

theorem fraction?_lt {s rest : List Char} {n : Nat} (h : fraction? s = some (n, rest)) :
    n < 1000000000 := by
  unfold fraction? at h
  split at h
  · rename_i tail
    simp only [Option.map_eq_some_iff, Prod.mk.injEq] at h
    obtain ⟨⟨m, after⟩, hread, hn, -⟩ := h
    simp only [digits?] at hread
    split at hread
    · cases hread
    · simp only [Option.some.injEq, Prod.mk.injEq] at hread
      obtain ⟨hm, hafter⟩ := hread
      let found := (tail.take 9).takeWhile isDigit
      have hdigits : ∀ c ∈ found, isDigit c := fun c hc =>
        List.mem_takeWhile_imp hc
      have hlt := Text.digitsValue_lt hdigits
      have hlen : found.length ≤ (tail.take 9).length := (List.takeWhile_prefix _).length_le
      have htake : (tail.take 9).length = min 9 tail.length := List.length_take
      have hrest : tail.length - after.length = found.length := by
        rw [← hafter, List.length_drop]
        change tail.length - (tail.length - found.length) = found.length
        omega
      have hpow : Nat.pow 10 found.length * Nat.pow 10 (9 - found.length) = 1000000000 := by
        have hsum : found.length + (9 - found.length) = 9 := by omega
        exact (Nat.pow_add 10 found.length (9 - found.length)).symm.trans (by rw [hsum])
      rw [← hn, hrest, ← hpow, ← hm]
      exact Nat.mul_lt_mul_of_pos_right hlt (Nat.pow_pos (by decide))
  · simp only [Option.some.injEq, Prod.mk.injEq] at h
    omega

theorem offsetDigits?_minutes {sign : Int} {s rest : List Char} {ahead : Int}
    (h : offsetDigits? sign s = some (ahead, rest)) : ahead % 60 = 0 := by
  simp only [offsetDigits?, bind, Option.bind_eq_some_iff] at h
  obtain ⟨⟨hours, s⟩, -, ⟨minutes, s'⟩, -, h⟩ := h
  split at h
  · simp only [Option.some.injEq, Prod.mk.injEq] at h
    rw [← h.1, show hours * 3600 + minutes * 60 = (hours * 60 + minutes) * 60 by omega]
    push_cast
    rw [← Int.mul_assoc]
    exact Int.mul_emod_left _ _
  · cases h

/-- An offset has whole minutes. -/
theorem offset?_minutes {s rest : List Char} {ahead : Int} (h : offset? s = some (ahead, rest)) :
    ahead % 60 = 0 := by
  unfold offset? at h
  split at h
  all_goals first
    | exact offsetDigits?_minutes h
    | (split at h <;> simp only [reduceCtorEq, Option.some.injEq, Prod.mk.injEq] at h <;> omega)
    | (simp only [reduceCtorEq, Option.some.injEq, Prod.mk.injEq] at h; try omega)

/-- Whatever is read is a valid moment. -/
theorem parse?_isValid {text : String} {t : Time} (h : parse? text = some t) : t.IsValid := by
  unfold parse? at h
  obtain ⟨⟨year, _⟩, -, h⟩ := Option.bind_eq_some_iff.1 h
  obtain ⟨_, -, h⟩ := Option.bind_eq_some_iff.1 h
  obtain ⟨⟨month, _⟩, -, h⟩ := Option.bind_eq_some_iff.1 h
  obtain ⟨_, -, h⟩ := Option.bind_eq_some_iff.1 h
  obtain ⟨⟨day, _⟩, -, h⟩ := Option.bind_eq_some_iff.1 h
  obtain ⟨_, -, h⟩ := Option.bind_eq_some_iff.1 h
  obtain ⟨⟨hour, _⟩, -, h⟩ := Option.bind_eq_some_iff.1 h
  obtain ⟨_, -, h⟩ := Option.bind_eq_some_iff.1 h
  obtain ⟨⟨minute, _⟩, -, h⟩ := Option.bind_eq_some_iff.1 h
  obtain ⟨_, -, h⟩ := Option.bind_eq_some_iff.1 h
  obtain ⟨⟨second, _⟩, hsecond, h⟩ := Option.bind_eq_some_iff.1 h
  obtain ⟨⟨nanos, _⟩, hnanos, h⟩ := Option.bind_eq_some_iff.1 h
  obtain ⟨⟨ahead, _⟩, hahead, h⟩ := Option.bind_eq_some_iff.1 h
  have hs := field?_le hsecond
  have hn := fraction?_lt hnanos
  have ha := offset?_minutes hahead
  simp only [Option.ite_none_left_eq_some, Option.some.injEq] at h
  obtain ⟨-, -, hrange, rfl⟩ := h
  obtain ⟨hfirst, hlast⟩ := not_or.1 hrange
  refine ⟨?_, Int.not_lt.1 hfirst, Int.not_lt.1 hlast⟩
  simp only
  split <;> omega

end Muster.Time
