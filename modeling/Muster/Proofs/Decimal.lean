import Muster.Proofs.Trimming
import Muster.Text.Decimal

/-!
# Numbers and their digits

What reading the digits of a number gives, alone or with something behind them, and that a number can be read
off its text.
-/

namespace Muster.Text

theorem isDigit_eq (c : Char) : isDigit c = c.isDigit := by
  have h : ('0' ≤ c ∧ c ≤ '9') ↔ (c.val ≥ 48 ∧ c.val ≤ 57) := Iff.rfl
  by_cases hc : '0' ≤ c ∧ c ≤ '9'
  · have := h.1 hc
    simp [isDigit, digit?, hc, Char.isDigit, this]
  · have hn : ¬ (c.val ≥ 48 ∧ c.val ≤ 57) := fun hv => hc (h.2 hv)
    simp only [isDigit, digit?, hc, if_false, Option.isSome_none, Char.isDigit]
    exact (Bool.eq_false_iff.2 fun ht => hn (by simpa using ht)).symm

theorem digit?_eq {c : Char} (h : isDigit c) : digit? c = some (c.toNat - '0'.toNat) := by
  unfold isDigit at h
  unfold digit? at h ⊢
  split <;> simp_all

theorem digitsValue_eq {s : List Char} (h : ∀ c ∈ s, isDigit c) (n : Nat) :
    digitsValue n s = Nat.ofDigitChars 10 s n := by
  induction s generalizing n with
  | nil => simp [digitsValue]
  | cons c rest ih =>
    have hc := digit?_eq (h c (by simp))
    rw [digitsValue, ih fun d hd => h d (List.mem_cons_of_mem _ hd), Nat.ofDigitChars_cons, hc]
    simp [Nat.mul_comm]

theorem isDigit_of_mem_toDigits {n : Nat} {c : Char} (h : c ∈ Nat.toDigits 10 n) : isDigit c := by
  rw [isDigit_eq]
  exact Nat.isDigit_of_mem_toDigits (by decide) (by decide) h

theorem not_mem_toDigits {c : Char} (h : isDigit c = false) (n : Nat) : c ∉ Nat.toDigits 10 n := by
  intro hmem
  rw [isDigit_of_mem_toDigits hmem] at h
  cases h

theorem exists_cons_toDigits (n : Nat) : ∃ c rest, Nat.toDigits 10 n = c :: rest ∧ isDigit c := by
  obtain ⟨c, rest, hdigits⟩ := List.exists_cons_of_ne_nil (Nat.toDigits_ne_nil (n := n) (b := 10))
  exact ⟨c, rest, hdigits, isDigit_of_mem_toDigits (n := n) (by simp [hdigits])⟩

/-- The digits of a number spell it, also with zeros before them. -/
theorem digitsValue_zeros_toDigits (k n : Nat) :
    digitsValue 0 (List.replicate k '0' ++ Nat.toDigits 10 n) = n := by
  have hzero : isDigit '0' := by decide
  have hall : ∀ c ∈ List.replicate k '0' ++ Nat.toDigits 10 n, isDigit c := by
    intro c hc
    rcases List.mem_append.1 hc with hc | hc
    · rw [List.eq_of_mem_replicate hc]
      exact hzero
    · exact isDigit_of_mem_toDigits hc
  rw [digitsValue_eq hall, Nat.ofDigitChars_append]
  simp

theorem digitsValue_append (n : Nat) (s t : List Char) :
    digitsValue n (s ++ t) = digitsValue (digitsValue n s) t := by
  induction s generalizing n with
  | nil => rfl
  | cons c rest ih => exact ih _

/-- So many digits spell a number below so many powers of ten. -/
theorem digitsValue_lt {s : List Char} (h : ∀ c ∈ s, isDigit c) :
    digitsValue 0 s < Nat.pow 10 s.length := by
  induction s using List.reverseRecOn with
  | nil => simp [digitsValue]
  | append_singleton s c ih =>
    have hs := ih fun d hd => h d (List.mem_append_left _ hd)
    have hc : isDigit c := h c (by simp)
    have hd : (digit? c).getD 0 < 10 := by
      rw [isDigit_eq, Char.isDigit] at hc
      rw [digit?_eq (h c (by simp))]
      simp only [ge_iff_le, Bool.and_eq_true, decide_eq_true_eq] at hc
      have : c.toNat ≤ 57 := hc.2
      have hz : '0'.toNat = 48 := rfl
      simp only [Option.getD_some, hz]
      omega
    have hpow : Nat.pow 10 (s.length + 1) = Nat.pow 10 s.length * 10 := rfl
    rw [digitsValue_append, List.length_append, List.length_singleton, hpow]
    simp only [digitsValue]
    omega

theorem not_isBlank_of_isDigit {c : Char} (h : isDigit c) : isBlank c = false := by
  rw [isDigit_eq, Char.isDigit] at h
  simp only [ge_iff_le, Bool.and_eq_true, decide_eq_true_eq] at h
  have h₁ : 48 ≤ c.toNat := h.1
  have h₂ : c.toNat ≤ 57 := h.2
  simp only [isBlank, Bool.or_eq_false_iff, Bool.and_eq_false_iff, decide_eq_false_iff_not]
  omega

/-! ### Numbers within a bound -/

theorem le_digitsValue (n : Nat) (s : List Char) : n ≤ digitsValue n s := by
  induction s generalizing n with
  | nil => exact Nat.le_refl n
  | cons c rest ih =>
    have hrest := ih (n * 10 + (digit? c).getD 0)
    rw [digitsValue]
    omega

/-- Digits are read as the number that they spell, unless it is too large. -/
theorem naturalWithin_eq {hi n : Nat} {s : List Char} (h : ∀ c ∈ s, isDigit c) (hhi : digitsValue n s ≤ hi) :
    naturalWithin hi n s = .ok (digitsValue n s) := by
  induction s generalizing n with
  | nil => rfl
  | cons c rest ih =>
    have hc := digit?_eq (h c (by simp))
    rw [digitsValue, hc, Option.getD_some] at hhi ⊢
    have hn : n * 10 + (c.toNat - '0'.toNat) ≤ hi := Nat.le_trans (le_digitsValue _ rest) hhi
    simp only [naturalWithin, hc]
    rw [if_pos hn, ih (fun d hd => h d (List.mem_cons_of_mem _ hd)) hhi]

theorem unsigned_toDigits {hi n : Nat} (h : n ≤ hi) : unsigned hi (Nat.toDigits 10 n) = .ok n := by
  have hdigits : ∀ c ∈ Nat.toDigits 10 n, isDigit c := fun _ hc => isDigit_of_mem_toDigits hc
  have hvalue : digitsValue 0 (Nat.toDigits 10 n) = n := digitsValue_zeros_toDigits 0 n
  -- A sign is no digit.
  have hsign : '+' ∉ Nat.toDigits 10 n := not_mem_toDigits (by decide) n
  have hread : naturalWithin hi 0 (Nat.toDigits 10 n) = .ok n := by
    rw [naturalWithin_eq hdigits (by omega), hvalue]
  unfold unsigned
  split
  · rename_i hnil
    exact absurd hnil Nat.toDigits_ne_nil
  · rename_i hplus
    exact absurd (by simp [hplus]) hsign
  · rename_i hplus
    exact absurd (by simp [hplus]) hsign
  · exact hread

/-! ### Texts of numbers -/

theorem natural?_toDigits (n : Nat) : natural? (Nat.toDigits 10 n) = some n := by
  have hall : (Nat.toDigits 10 n).all isDigit := List.all_eq_true.2 fun _ hc => isDigit_of_mem_toDigits hc
  have hempty : (Nat.toDigits 10 n).isEmpty = false := by simp
  rw [natural?, hempty, hall]
  simpa using digitsValue_zeros_toDigits 0 n

theorem toList_toString_ofNat (n : Nat) : (toString (Int.ofNat n)).toList = Nat.toDigits 10 n := by
  change (Int.repr (Int.ofNat n)).toList = _
  simp only [Int.repr, Nat.repr_eq_ofList_toDigits, String.toList_ofList]

theorem toList_toString_negSucc (n : Nat) :
    (toString (Int.negSucc n)).toList = '-' :: Nat.toDigits 10 (n + 1) := by
  change (Int.repr (Int.negSucc n)).toList = _
  simp [Int.repr, Nat.repr_eq_ofList_toDigits]

/-- A number is read off its text. -/
theorem integer?_toString (i : Int) : integer? (toString i).toList = some i := by
  cases i with
  | ofNat n =>
    -- A sign is no digit.
    have hsign {c : Char} {rest : List Char} (h : Nat.toDigits 10 n = c :: rest) : isDigit c :=
      isDigit_of_mem_toDigits (h ▸ List.mem_cons_self)
    rw [toList_toString_ofNat]
    unfold integer?
    split
    · rename_i rest h
      exact absurd (hsign h) (by decide)
    · rename_i rest h
      exact absurd (hsign h) (by decide)
    · rw [natural?_toDigits]
      rfl
  | negSucc n =>
    rw [toList_toString_negSucc, integer?, natural?_toDigits]
    rfl

/-- The text of a number that is not negative is digits, without blanks. -/
theorem trim_toString {n : Int} (h : 0 ≤ n) : trim (toString n) = toString n := by
  obtain ⟨m, rfl⟩ := Int.eq_ofNat_of_zero_le h
  have hdigits : ∀ c ∈ (toString (Int.ofNat m)).toList, isBlank c = false := by
    intro c hc
    rw [toList_toString_ofNat] at hc
    exact not_isBlank_of_isDigit (isDigit_of_mem_toDigits hc)
  exact String.toList_inj.1 ((toList_trim _).trans (trimmed_of_forall hdigits))

theorem toString_int_injective {i j : Int} (h : toString i = toString j) : i = j := by
  have hread := integer?_toString i
  rw [h, integer?_toString j, Option.some.injEq] at hread
  exact hread.symm

end Muster.Text
