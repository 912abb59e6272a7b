import Muster.Proofs.Decimal

/-!
# Numbers as they are written

ASCII digits behind at most one sign, and the number that they denote. A reading of whole numbers accepts exactly
these texts, within its bounds.
-/

namespace Muster.Text

/-- ASCII digits behind at most one of some signs, and the number that they denote. -/
inductive Numeral (signs : List Char) : List Char → Int → Prop
  | plain {digits : List Char} (hne : digits ≠ []) (hdigits : ∀ c ∈ digits, c.isDigit) :
      Numeral signs digits (Nat.ofDigitChars 10 digits 0 : Nat)
  | plus {digits : List Char} (hsign : '+' ∈ signs) (hne : digits ≠ []) (hdigits : ∀ c ∈ digits, c.isDigit) :
      Numeral signs ('+' :: digits) (Nat.ofDigitChars 10 digits 0 : Nat)
  | minus {digits : List Char} (hsign : '-' ∈ signs) (hne : digits ≠ []) (hdigits : ∀ c ∈ digits, c.isDigit) :
      Numeral signs ('-' :: digits) (-(Nat.ofDigitChars 10 digits 0 : Nat))

variable {signs more s : List Char} {n : Int}

theorem Numeral.mono (h : Numeral signs s n) (hsigns : ∀ c ∈ signs, c ∈ more) : Numeral more s n := by
  cases h with
  | plain hne hdigits => exact .plain hne hdigits
  | plus hsign hne hdigits => exact .plus (hsigns _ hsign) hne hdigits
  | minus hsign hne hdigits => exact .minus (hsigns _ hsign) hne hdigits

theorem Numeral.ne_nil (h : Numeral signs s n) : s ≠ [] := by
  cases h with
  | plain hne hdigits => exact hne
  | plus | minus => exact List.cons_ne_nil _ _

/-- Without a minus sign a number is not negative. -/
theorem Numeral.nonneg (h : Numeral signs s n) (hsign : '-' ∉ s) : 0 ≤ n := by
  cases h with
  | plain | plus => exact Int.natCast_nonneg _
  | minus => exact absurd List.mem_cons_self hsign

/-- A positive number can do without a minus sign. -/
theorem Numeral.of_pos (h : Numeral signs s n) (hn : 0 < n) : Numeral ['+'] s n := by
  cases h with
  | plain hne hdigits => exact .plain hne hdigits
  | plus hsign hne hdigits => exact .plus (by simp) hne hdigits
  | minus hsign hne hdigits => omega

theorem Numeral.exists_digit (h : Numeral signs s n) : ∃ c ∈ s, c.isDigit := by
  cases h with
  | plain hne hdigits =>
    obtain ⟨c, hc⟩ := List.exists_mem_of_ne_nil s hne
    exact ⟨c, hc, hdigits c hc⟩
  | plus hsign hne hdigits | minus hsign hne hdigits =>
    obtain ⟨c, hc⟩ := List.exists_mem_of_ne_nil _ hne
    exact ⟨c, List.mem_cons_of_mem _ hc, hdigits c hc⟩

/-! ### Reading -/

theorem natural?_eq_some_iff {m : Nat} :
    natural? s = some m ↔ s ≠ [] ∧ (∀ c ∈ s, c.isDigit) ∧ Nat.ofDigitChars 10 s 0 = m := by
  have hall : s.all isDigit ↔ ∀ c ∈ s, c.isDigit := by simp only [List.all_eq_true, isDigit_eq]
  by_cases hne : s = []
  · simp [natural?, hne]
  by_cases hdigits : ∀ c ∈ s, c.isDigit
  · have hvalue : digitsValue 0 s = Nat.ofDigitChars 10 s 0 := by
      refine digitsValue_eq (fun c hc => ?_) 0
      rw [isDigit_eq]
      exact hdigits c hc
    have hread : natural? s = some (Nat.ofDigitChars 10 s 0) := by
      rw [natural?, List.isEmpty_eq_false_iff.2 hne, hall.2 hdigits, hvalue]
      rfl
    rw [hread, Option.some.injEq]
    exact ⟨fun h => ⟨hne, hdigits, h⟩, fun h => h.2.2⟩
  · have hno : s.all isDigit = false := Bool.eq_false_iff.2 fun hyes => hdigits (hall.1 hyes)
    simp [natural?, hno, hdigits]

/-- The first character tells which sign there is, if there is one. -/
theorem integer?_eq_some_iff : integer? s = some n ↔ Numeral ['+', '-'] s n := by
  constructor
  · intro h
    unfold integer? at h
    split at h
    · obtain ⟨i, hi, rfl⟩ := Option.map_eq_some_iff.1 h
      obtain ⟨m, hm, hcast⟩ := Option.bind_eq_some_iff.1 hi
      cases hcast
      obtain ⟨hne, hdigits, rfl⟩ := natural?_eq_some_iff.1 hm
      exact .minus (by simp) hne hdigits
    · obtain ⟨m, hm, rfl⟩ := Option.map_eq_some_iff.1 h
      obtain ⟨hne, hdigits, rfl⟩ := natural?_eq_some_iff.1 hm
      exact .plus (by simp) hne hdigits
    · obtain ⟨m, hm, rfl⟩ := Option.map_eq_some_iff.1 h
      obtain ⟨hne, hdigits, rfl⟩ := natural?_eq_some_iff.1 hm
      exact .plain hne hdigits
  · intro h
    cases h with
    | plain hne hdigits =>
      have hread := natural?_eq_some_iff.2 ⟨hne, hdigits, rfl⟩
      have hsign {c : Char} {rest : List Char} (hs : s = c :: rest) : c.isDigit := hdigits c (by simp [hs])
      unfold integer?
      split
      · exact absurd (hsign rfl) (by decide)
      · exact absurd (hsign rfl) (by decide)
      · rw [hread]
        rfl
    | plus hsign hne hdigits => rw [integer?, natural?_eq_some_iff.2 ⟨hne, hdigits, rfl⟩]; rfl
    | minus hsign hne hdigits => rw [integer?, natural?_eq_some_iff.2 ⟨hne, hdigits, rfl⟩]; rfl

theorem integerWithin?_eq_some_iff {lo hi : Int} :
    integerWithin? lo hi s = some n ↔ Numeral ['+', '-'] s n ∧ lo ≤ n ∧ n ≤ hi := by
  rw [integerWithin?, Option.filter_eq_some_iff, integer?_eq_some_iff]
  simp

theorem int32?_eq_some_iff :
    int32? s = some n ↔ Numeral ['+', '-'] s n ∧ Width.least32 ≤ n ∧ n ≤ Width.greatest32 :=
  integerWithin?_eq_some_iff

theorem int64?_eq_some_iff :
    int64? s = some n ↔ Numeral ['+', '-'] s n ∧ Width.least64 ≤ n ∧ n ≤ Width.greatest64 :=
  integerWithin?_eq_some_iff

end Muster.Text
