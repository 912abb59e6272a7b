import Muster.Text.Upper

/-!
# Capitals

The capital form of a text is its own capital form: the code points to which the tables send others are sent
nowhere themselves. No other character has an opening parenthesis or a colon for its capital.
-/

namespace Muster

namespace Text

namespace Upper

/-- Every so many code points between two. -/
structure Span where
  first : Nat
  last : Nat
  step : Nat

namespace Span

def Has (s : Span) (n : Nat) : Prop := s.first ≤ n ∧ n ≤ s.last ∧ (n - s.first) % s.step = 0

/-- All members are even, or all are odd. -/
def isLevel (s : Span) : Bool := s.step.beq 2 || s.first.beq s.last

/-- One span ends before the other begins, or one is even and the other is odd. -/
def isApart (s t : Span) : Bool :=
  s.last.blt t.first || t.last.blt s.first || s.isLevel && t.isLevel && ((s.first + t.first) % 2).beq 1

theorem even_of_isLevel {s : Span} (h : s.isLevel) {n : Nat} (hn : s.Has n) : n % 2 = s.first % 2 := by
  obtain ⟨first, last, step⟩ := s
  obtain ⟨hfirst, hlast, hstep⟩ := hn
  simp only [isLevel, Bool.or_eq_true, Nat.beq_eq] at h hfirst hlast hstep ⊢
  rcases h with rfl | rfl
  · omega
  · omega

theorem not_has_of_isApart {s t : Span} (h : s.isApart t) {n : Nat} (hn : s.Has n) : ¬ t.Has n := by
  intro ht
  simp only [isApart, Bool.or_eq_true, Bool.and_eq_true, Nat.blt_eq, Nat.beq_eq] at h
  rcases h with (h | h) | ⟨⟨hs, hlevel⟩, hodd⟩
  · have := hn.2.1
    have := ht.1
    omega
  · have := hn.1
    have := ht.2.1
    omega
  · have := even_of_isLevel hs hn
    have := even_of_isLevel hlevel ht
    omega

end Span

/-- The code points that the tables send elsewhere. -/
def sources : List Span :=
  (runs.map fun r => ⟨r.first, r.last, r.step⟩) ++ several.map fun e => ⟨e.1, e.1, 1⟩

/-- The code points to which the tables send others. -/
def targets : List Span :=
  (runs.map fun r => ⟨(r.first + r.shift).toNat, (r.last + r.shift).toNat, r.step⟩) ++
    several.flatMap fun e => e.2.map fun n => ⟨n, n, 1⟩

/-- What the tables give is sent nowhere, and is no opening parenthesis. -/
theorem isApart_of_target : ∀ t ∈ targets, t.isApart ⟨40, 40, 1⟩ ∧ ∀ s ∈ sources, t.isApart s := by
  have hall : targets.all (fun t => t.isApart ⟨40, 40, 1⟩ && sources.all t.isApart) := by decide +kernel
  intro t ht
  have h := List.all_eq_true.1 hall t ht
  rw [Bool.and_eq_true] at h
  exact ⟨h.1, List.all_eq_true.1 h.2⟩

theorem lookUp_eq_self {c : Char} (h : ∀ s ∈ sources, ¬ s.Has c.toNat) : lookUp c = [c] := by
  have hseveral : several.lookup c.toNat = none := by
    rw [List.lookup_eq_none_iff]
    intro e he
    have hspan : (⟨e.1, e.1, 1⟩ : Span) ∈ sources :=
      List.mem_append_right _ (List.mem_map.2 ⟨e, he, rfl⟩)
    have hne : c.toNat ≠ e.1 := by
      intro heq
      exact h _ hspan ⟨Nat.le_of_eq heq.symm, Nat.le_of_eq heq, Nat.mod_one _⟩
    simp [hne]
  have hruns : (runs.find? fun r =>
      r.first ≤ c.toNat && c.toNat ≤ r.last && (c.toNat - r.first) % r.step = 0) = none := by
    rw [List.find?_eq_none]
    intro r hr hcovers
    have hspan : (⟨r.first, r.last, r.step⟩ : Span) ∈ sources :=
      List.mem_append_left _ (List.mem_map.2 ⟨r, hr, rfl⟩)
    simp only [Bool.and_eq_true, decide_eq_true_eq] at hcovers
    exact h _ hspan ⟨hcovers.1.1, hcovers.1.2, hcovers.2⟩
  rw [lookUp, hseveral]
  simp only [hruns]

theorem toNat_ofNat (n : Nat) : (Char.ofNat n).toNat = n ∨ Char.ofNat n = '\x00' := by
  by_cases h : n.isValidChar
  · have hvalid : Char.ofNat n = Char.ofNatAux n h := dif_pos h
    rw [hvalid]
    exact .inl rfl
  · exact .inr (dif_neg h)

theorem shift_nonneg : ∀ r ∈ runs, 0 ≤ r.first + r.shift := by decide +kernel

/-- A character that the tables give, as far as it is one. -/
theorem target_of_mem_lookUp {c d : Char} (h : d ∈ lookUp c) :
    lookUp c = [c] ∧ d = c ∨ d = '\x00' ∨ ∃ t ∈ targets, t.Has d.toNat := by
  unfold lookUp at h ⊢
  split at h
  · rename_i cs hcs
    obtain ⟨n, hn, rfl⟩ := List.mem_map.1 h
    rcases toNat_ofNat n with hval | hnull
    · have hmem : (c.toNat, cs) ∈ several := by
        obtain ⟨l, r, hl, -⟩ := List.lookup_eq_some_iff.1 hcs
        rw [hl]
        simp
      have htarget : (⟨n, n, 1⟩ : Span) ∈ targets :=
        List.mem_append_right _ (List.mem_flatMap.2 ⟨_, hmem, List.mem_map.2 ⟨n, hn, rfl⟩⟩)
      refine .inr (.inr ⟨_, htarget, ?_⟩)
      rw [hval]
      exact ⟨Nat.le_refl n, Nat.le_refl n, Nat.mod_one _⟩
    · exact .inr (.inl hnull)
  · split at h
    · rename_i r hr
      rw [List.mem_singleton.1 h]
      have hcovers := List.find?_some hr
      simp only [Bool.and_eq_true, decide_eq_true_eq] at hcovers
      obtain ⟨⟨hfirst, hlast⟩, hstep⟩ := hcovers
      have hmem := List.mem_of_find?_eq_some hr
      have hshift := shift_nonneg r hmem
      rcases toNat_ofNat (c.toNat + r.shift).toNat with hval | hnull
      · refine .inr (.inr ⟨_, List.mem_append_left _ (List.mem_map.2 ⟨r, hmem, rfl⟩), ?_⟩)
        rw [hval]
        refine ⟨by simp only; omega, by simp only; omega, ?_⟩
        have hsame : (c.toNat + r.shift).toNat - (r.first + r.shift).toNat = c.toNat - r.first := by omega
        simp only [hsame, hstep]
      · exact .inr (.inl hnull)
    · exact .inl ⟨by simp_all, List.mem_singleton.1 h⟩

end Upper

/-! ### Capitals -/

theorem upperChar_of_lt : ∀ n < 128, upperChar (Char.ofNat n).toUpper = [(Char.ofNat n).toUpper] ∧
    ((Char.ofNat n).toUpper = '(' → Char.ofNat n = '(') := by decide +kernel

theorem upperChar_of_target {c : Char} {t : Upper.Span} (ht : t ∈ Upper.targets) (h : t.Has c.toNat) :
    upperChar c = [c] := by
  have hself : Upper.lookUp c = [c] := by
    refine Upper.lookUp_eq_self ?_
    intro s hs
    exact Upper.Span.not_has_of_isApart ((Upper.isApart_of_target t ht).2 s hs) h
  have hletters : (⟨97, 122, 1⟩ : Upper.Span) ∈ Upper.sources :=
    List.mem_of_getElem? (show Upper.sources[0]? = some ⟨97, 122, 1⟩ from rfl)
  have hlower : ¬ ('a'.val ≤ c.val ∧ c.val ≤ 'z'.val) := by
    rintro ⟨hfirst, hlast⟩
    have happart := (Upper.isApart_of_target t ht).2 _ hletters
    exact Upper.Span.not_has_of_isApart happart h ⟨hfirst, hlast, Nat.mod_one _⟩
  unfold upperChar
  split
  · have hcapital : c.toUpper = c := dif_neg hlower
    rw [hcapital]
  · exact hself

/-- A capital is its own capital form. -/
theorem upperChar_of_mem {c d : Char} (h : d ∈ upperChar c) : upperChar d = [d] := by
  by_cases hascii : c.toNat < 128
  · rw [upperChar, if_pos hascii, List.mem_singleton] at h
    have hcapital := (upperChar_of_lt c.toNat hascii).1
    rw [Char.ofNat_toNat] at hcapital
    rw [h]
    exact hcapital
  · rw [upperChar, if_neg hascii] at h
    rcases Upper.target_of_mem_lookUp h with ⟨hself, rfl⟩ | rfl | ⟨t, ht, hd⟩
    · rw [upperChar, if_neg hascii, hself]
    · rfl
    · exact upperChar_of_target ht hd

theorem uppercase_of_forall {s : List Char} (h : ∀ c ∈ s, upperChar c = [c]) : uppercase s = s := by
  induction s with
  | nil => rfl
  | cons c rest ih =>
    have hrest := ih fun d hd => h d (List.mem_cons_of_mem _ hd)
    rw [uppercase, List.flatMap_cons, h c (by simp)]
    exact congrArg (c :: ·) hrest

theorem uppercase_uppercase (s : List Char) : uppercase (uppercase s) = uppercase s := by
  refine uppercase_of_forall ?_
  intro d hd
  obtain ⟨c, -, hc⟩ := List.mem_flatMap.1 hd
  exact upperChar_of_mem hc

@[simp] theorem upper_upper (s : String) : upper (upper s) = upper s := by
  rw [upper, toList_upper, uppercase_uppercase, upper]

/-- A character that is the capital of no other comes into a capital form only by itself. -/
theorem mem_of_mem_uppercase {d : Char} (hlow : ∀ n < 128, (Char.ofNat n).toUpper = d → Char.ofNat n = d)
    (htargets : ∀ t ∈ Upper.targets, t.isApart ⟨d.toNat, d.toNat, 1⟩) (hnull : d ≠ '\x00') {s : List Char}
    (h : d ∈ uppercase s) : d ∈ s := by
  obtain ⟨c, hc, hmem⟩ := List.mem_flatMap.1 h
  have hsame : c = d := by
    by_cases hascii : c.toNat < 128
    · rw [upperChar, if_pos hascii, List.mem_singleton] at hmem
      have honly := hlow c.toNat hascii
      rw [Char.ofNat_toNat] at honly
      exact honly hmem.symm
    · rw [upperChar, if_neg hascii] at hmem
      rcases Upper.target_of_mem_lookUp hmem with ⟨-, hself⟩ | hzero | ⟨t, ht, hd⟩
      · exact hself.symm
      · exact absurd hzero hnull
      · refine absurd ?_ (Upper.Span.not_has_of_isApart (htargets t ht) hd)
        exact ⟨Nat.le_refl _, Nat.le_refl _, Nat.mod_one _⟩
  rwa [hsame] at hc

/-- An opening parenthesis is the capital of no other character. -/
theorem parenthesis_of_mem_uppercase {s : List Char} (h : '(' ∈ uppercase s) : '(' ∈ s :=
  mem_of_mem_uppercase (fun n hn => (upperChar_of_lt n hn).2) (fun t ht => (Upper.isApart_of_target t ht).1)
    (by decide) h

/-- Neither is a colon. -/
theorem colon_of_mem_uppercase {s : List Char} (h : ':' ∈ uppercase s) : ':' ∈ s := by
  have htargets : Upper.targets.all (·.isApart ⟨':'.toNat, ':'.toNat, 1⟩) := by decide +kernel
  exact mem_of_mem_uppercase (by decide +kernel) (List.all_eq_true.1 htargets) (by decide) h

end Text

end Muster
