import Mathlib.Data.List.Flatten
import Mathlib.Data.List.Induction
import Muster.Proofs.Capital
import Muster.Text.Blank

/-!
# Blanks at the ends

The capital form of a text has the same blanks at its ends as the text: a blank is its own capital and no other
character has one among its capitals. So it makes no difference whether a text is trimmed before or after.
-/

namespace Muster.Text

namespace Upper

/-- The blank characters, as spans. -/
def blanks : List Span :=
  [⟨9, 13, 1⟩, ⟨32, 32, 1⟩, ⟨133, 133, 1⟩, ⟨160, 160, 1⟩, ⟨5760, 5760, 1⟩, ⟨8192, 8202, 1⟩, ⟨8232, 8233, 1⟩,
    ⟨8239, 8239, 1⟩, ⟨8287, 8287, 1⟩, ⟨12288, 12288, 1⟩]

theorem exists_blank {c : Char} (h : isBlank c) : ∃ b ∈ blanks, b.Has c.toNat := by
  simp only [isBlank, Bool.or_eq_true, Bool.and_eq_true, decide_eq_true_eq] at h
  simp only [blanks, List.mem_cons, List.not_mem_nil, or_false, exists_eq_or_imp, exists_eq_left, Span.Has,
    Nat.mod_one, and_true]
  omega

/-- The tables send blanks nowhere, and nothing to a blank. -/
theorem isApart_of_blank :
    ∀ b ∈ blanks, (∀ s ∈ sources, s.isApart b) ∧ ∀ t ∈ targets, t.isApart b := by
  have hall : blanks.all (fun b => sources.all (·.isApart b) && targets.all (·.isApart b)) := by
    decide +kernel
  intro b hb
  have h := List.all_eq_true.1 hall b hb
  rw [Bool.and_eq_true] at h
  exact ⟨List.all_eq_true.1 h.1, List.all_eq_true.1 h.2⟩

theorem several_ne_nil : ∀ e ∈ several, e.2 ≠ [] := by decide +kernel

theorem lookUp_ne_nil (c : Char) : lookUp c ≠ [] := by
  unfold lookUp
  split
  · rename_i cs hcs
    obtain ⟨l, r, hl, -⟩ := List.lookup_eq_some_iff.1 hcs
    simpa using several_ne_nil (c.toNat, cs) (by simp [hl])
  · split <;> simp

theorem lookUp_of_isBlank {c : Char} (h : isBlank c) : lookUp c = [c] := by
  obtain ⟨b, hb, hc⟩ := exists_blank h
  refine lookUp_eq_self ?_
  intro s hs hsource
  exact Span.not_has_of_isApart ((isApart_of_blank b hb).1 s hs) hsource hc

end Upper

/-! ### Trimmed texts -/

theorem dropWhile_isBlank {s : List Char} (h : ∀ c ∈ s.head?, isBlank c = false) : s.dropWhile isBlank = s := by
  cases s with
  | nil => rfl
  | cons c rest => exact List.dropWhile_cons_of_neg (by simp [h c rfl])

/-- A text is trimmed already if neither end of it is blank. -/
theorem trimmed_of_ends {s : List Char} (hfirst : ∀ c ∈ s.head?, isBlank c = false)
    (hlast : ∀ c ∈ s.getLast?, isBlank c = false) : trimmed s = s := by
  have hback : s.reverse.dropWhile isBlank = s.reverse := by
    refine dropWhile_isBlank fun c hc => hlast c ?_
    rwa [List.head?_reverse] at hc
  rw [trimmed, dropWhile_isBlank hfirst, dropEndWhile, hback, List.reverse_reverse]

/-- A text without blanks is trimmed already. -/
theorem trimmed_of_forall {s : List Char} (h : ∀ c ∈ s, isBlank c = false) : trimmed s = s :=
  trimmed_of_ends (fun c hc => h c (List.mem_of_mem_head? hc)) fun c hc => h c (List.mem_of_getLast? hc)

theorem head?_dropWhile_isBlank {s : List Char} {c : Char} (h : c ∈ (s.dropWhile isBlank).head?) :
    isBlank c = false := by
  have hhead := List.head?_dropWhile_not isBlank s
  rw [Option.mem_def.1 h] at hhead
  exact hhead

theorem getLast?_trimmed {s : List Char} {c : Char} (h : c ∈ (trimmed s).getLast?) : isBlank c = false := by
  rw [trimmed, dropEndWhile, List.getLast?_reverse] at h
  exact head?_dropWhile_isBlank h

theorem head?_trimmed {s : List Char} {c : Char} (h : c ∈ (trimmed s).head?) : isBlank c = false := by
  -- What is cut off the end does not reach the first character.
  have hprefix : trimmed s <+: s.dropWhile isBlank := by
    have hsuffix := List.dropWhile_suffix isBlank (l := (s.dropWhile isBlank).reverse)
    rwa [← List.reverse_prefix, List.reverse_reverse] at hsuffix
  obtain ⟨rest, hrest⟩ := hprefix
  refine head?_dropWhile_isBlank (s := s) (c := c) ?_
  rw [← hrest, List.head?_append, Option.mem_def.1 h]
  rfl

theorem trimmed_trimmed (s : List Char) : trimmed (trimmed s) = trimmed s :=
  trimmed_of_ends (fun _ => head?_trimmed) fun _ => getLast?_trimmed

/-! ### Blanks and capitals -/

theorem upperChar_ne_nil (c : Char) : upperChar c ≠ [] := by
  unfold upperChar
  split
  · simp
  · exact Upper.lookUp_ne_nil c

theorem isBlank_toUpper : ∀ n < 128, isBlank (Char.ofNat n).toUpper = isBlank (Char.ofNat n) ∧
    (isBlank (Char.ofNat n) → (Char.ofNat n).toUpper = Char.ofNat n) := by decide +kernel

theorem upperChar_of_isBlank {c : Char} (h : isBlank c) : upperChar c = [c] := by
  unfold upperChar
  split
  · rename_i hascii
    have hself := (isBlank_toUpper c.toNat hascii).2
    rw [Char.ofNat_toNat] at hself
    rw [hself h]
  · exact Upper.lookUp_of_isBlank h

/-- No blank is the capital of another character. -/
theorem not_isBlank_of_mem_upperChar {c d : Char} (h : d ∈ upperChar c) (hc : isBlank c = false) :
    isBlank d = false := by
  by_cases hascii : c.toNat < 128
  · rw [upperChar, if_pos hascii, List.mem_singleton] at h
    have hsame := (isBlank_toUpper c.toNat hascii).1
    rw [Char.ofNat_toNat] at hsame
    rw [h, hsame, hc]
  · rw [upperChar, if_neg hascii] at h
    rcases Upper.target_of_mem_lookUp h with ⟨-, rfl⟩ | rfl | ⟨t, ht, hd⟩
    · exact hc
    · decide
    · rw [Bool.eq_false_iff]
      intro hblank
      obtain ⟨b, hb, hhas⟩ := Upper.exists_blank hblank
      exact Upper.Span.not_has_of_isApart ((Upper.isApart_of_blank b hb).2 t ht) hd hhas

theorem uppercase_cons (c : Char) (s : List Char) : uppercase (c :: s) = upperChar c ++ uppercase s := by
  simp [uppercase]

theorem dropWhile_uppercase (s : List Char) :
    (uppercase s).dropWhile isBlank = uppercase (s.dropWhile isBlank) := by
  induction s with
  | nil => rfl
  | cons c rest ih =>
    rw [uppercase_cons]
    cases hc : isBlank c with
    | true =>
      rw [upperChar_of_isBlank hc, List.singleton_append, List.dropWhile_cons_of_pos hc,
        List.dropWhile_cons_of_pos hc, ih]
    | false =>
      rw [List.dropWhile_cons_of_neg (by simp [hc]), uppercase_cons]
      cases hcapitals : upperChar c with
      | nil => exact absurd hcapitals (upperChar_ne_nil c)
      | cons d more =>
        have hd : isBlank d = false := not_isBlank_of_mem_upperChar (by simp [hcapitals]) hc
        rw [List.cons_append, List.dropWhile_cons_of_neg (by simp [hd])]

/-- What is cut off the end depends on the last character first. -/
theorem dropEndWhile_concat (p : Char → Bool) (s : List Char) (c : Char) :
    dropEndWhile p (s ++ [c]) = if p c then dropEndWhile p s else s ++ [c] := by
  cases hc : p c <;> simp [dropEndWhile, hc]

theorem dropEndWhile_uppercase (s : List Char) :
    dropEndWhile isBlank (uppercase s) = uppercase (dropEndWhile isBlank s) := by
  induction s using List.reverseRecOn with
  | nil => rfl
  | append_singleton s c ih =>
    rw [dropEndWhile_concat, uppercase_append]
    cases hc : isBlank c with
    | true => rw [uppercase_cons, upperChar_of_isBlank hc, uppercase_nil, List.append_nil, dropEndWhile_concat,
        if_pos hc, ih, if_pos rfl]
    | false =>
      obtain hnil | ⟨front, d, hcapitals⟩ := List.eq_nil_or_concat (upperChar c)
      · exact absurd hnil (upperChar_ne_nil c)
      · have hd : isBlank d = false := not_isBlank_of_mem_upperChar (by simp [hcapitals]) hc
        simp [uppercase_cons, hcapitals, ← List.append_assoc, dropEndWhile_concat, hd]

theorem trimmed_uppercase (s : List Char) : trimmed (uppercase s) = uppercase (trimmed s) := by
  rw [trimmed, dropWhile_uppercase, dropEndWhile_uppercase, trimmed]

/-- It makes no difference whether a text is trimmed before or after. -/
theorem trim_upper (s : String) : trim (upper s) = upper (trim s) := by
  rw [trim, toList_upper, trimmed_uppercase, upper, toList_trim]

theorem trimmed_sublist (s : List Char) : (trimmed s).Sublist s := by
  have hend : (trimmed s).Sublist (s.dropWhile isBlank) := by
    have h := (List.dropWhile_sublist isBlank (l := (s.dropWhile isBlank).reverse)).reverse
    rwa [List.reverse_reverse] at h
  exact hend.trans (List.dropWhile_sublist _)

/-- Every character has a capital, so the capital form of a part is shorter. -/
theorem eq_of_uppercase_eq {s t : List Char} (h : s.Sublist t) (heq : uppercase s = uppercase t) : s = t := by
  have hlength : (uppercase s).length = (uppercase t).length := congrArg List.length heq
  clear heq
  induction h with
  | slnil => rfl
  | @cons s t c hsub _ =>
    have hle : (uppercase s).length ≤ (uppercase t).length := (hsub.flatMap upperChar).length_le
    have hpos : 0 < (upperChar c).length := List.length_pos_iff.2 (upperChar_ne_nil c)
    rw [uppercase_cons, List.length_append] at hlength
    omega
  | @cons_cons s t c _ ih =>
    simp only [uppercase_cons, List.length_append, Nat.add_left_cancel_iff] at hlength
    rw [ih hlength]

/-- The capital form of a text has blanks at its ends exactly if the text has. -/
theorem trim_upper_eq_iff (s : String) : trim (upper s) = upper s ↔ trim s = s := by
  constructor
  · intro h
    rw [trim_upper] at h
    have hlist : uppercase (trimmed s.toList) = uppercase s.toList := by
      have htext := congrArg String.toList h
      rwa [toList_upper, toList_upper, toList_trim] at htext
    rw [trim, eq_of_uppercase_eq (trimmed_sublist _) hlist, String.ofList_toList]
  · intro h
    rw [trim_upper, h]

end Muster.Text
