import Muster.Text.Split

/-!
# Pieces of texts

What stands before and behind the first separator of a text, and the pieces between all of them.
-/

namespace Muster.Text

variable {sep : Char} {s : List Char}

/-! ### The first separator -/

theorem splitOnce?_append (h : sep ∉ s) (rest : List Char) : splitOnce? sep (s ++ sep :: rest) = some (s, rest) := by
  induction s with
  | nil => simp [splitOnce?]
  | cons c s ih =>
    simp only [List.mem_cons, not_or] at h
    rw [List.cons_append, splitOnce?, if_neg (Ne.symm h.1), ih h.2]
    rfl

theorem splitOnce?_eq_none (h : sep ∉ s) : splitOnce? sep s = none := by
  induction s with
  | nil => rfl
  | cons c s ih =>
    simp only [List.mem_cons, not_or] at h
    rw [splitOnce?, if_neg (Ne.symm h.1), ih h.2]
    rfl

theorem splitOnce?_eq_some_iff {before after : List Char} :
    splitOnce? sep s = some (before, after) ↔ s = before ++ sep :: after ∧ sep ∉ before := by
  constructor
  · intro h
    induction s generalizing before with
    | nil => cases h
    | cons c rest ih =>
      rw [splitOnce?] at h
      split at h
      · rename_i hsep
        cases h
        exact ⟨by rw [hsep, List.nil_append], List.not_mem_nil⟩
      · rename_i hne
        obtain ⟨⟨front, back⟩, hsplit, hcut⟩ := Option.map_eq_some_iff.1 h
        cases hcut
        obtain ⟨hrest, hfront⟩ := ih hsplit
        refine ⟨by rw [hrest, List.cons_append], ?_⟩
        rw [List.mem_cons, not_or]
        exact ⟨Ne.symm hne, hfront⟩
  · rintro ⟨rfl, hbefore⟩
    exact splitOnce?_append hbefore after

/-- The last separator of a text tells what stands before and behind it. -/
theorem eq_of_append_sep {front back front' back' : List Char} (hback : sep ∉ back) (hback' : sep ∉ back')
    (h : front ++ sep :: back = front' ++ sep :: back') : front = front' ∧ back = back' := by
  have hsplit (front : List Char) {back : List Char} (hback : sep ∉ back) :
      splitOnce? sep (front ++ sep :: back).reverse = some (back.reverse, front.reverse) := by
    rw [List.reverse_append, List.reverse_cons, List.append_assoc]
    exact splitOnce?_append (by rwa [List.mem_reverse]) _
  have hparts := hsplit front hback
  rw [h, hsplit front' hback', Option.some.injEq, Prod.mk.injEq, List.reverse_inj, List.reverse_inj] at hparts
  exact ⟨hparts.2.symm, hparts.1.symm⟩

/-- What goes on as far as a condition holds ends before what comes first without it. -/
theorem takeWhile_append_of_head {p : Char → Bool} {rest : List Char} (h : ∀ c ∈ s, p c)
    (hrest : ∀ c ∈ rest.head?, ¬ p c) : (s ++ rest).takeWhile p = s := by
  rw [List.takeWhile_append_of_pos h]
  cases rest with
  | nil => simp
  | cons c rest => rw [List.takeWhile_cons_of_neg (hrest c rfl), List.append_nil]

theorem takeWhile_drop_eq_iff {p : Char → Bool} {taken rest : List Char} :
    s.takeWhile p = taken ∧ s.drop taken.length = rest ↔
      s = taken ++ rest ∧ (∀ c ∈ taken, p c) ∧ ∀ c ∈ rest.head?, ¬ p c := by
  constructor
  · rintro ⟨rfl, rfl⟩
    have hrest : s.drop (s.takeWhile p).length = s.dropWhile p := by
      have hcut := congrArg (List.drop (s.takeWhile p).length) (List.takeWhile_append_dropWhile (p := p) (l := s))
      rw [List.drop_left] at hcut
      exact hcut.symm
    rw [hrest]
    refine ⟨List.takeWhile_append_dropWhile.symm, List.all_eq_true.1 List.all_takeWhile, fun c hc => ?_⟩
    have hstop := List.head?_dropWhile_not p s
    rw [Option.mem_def.1 hc] at hstop
    simpa using hstop
  · rintro ⟨rfl, htaken, hrest⟩
    exact ⟨takeWhile_append_of_head htaken hrest, List.drop_left⟩

/-! ### All separators -/

theorem split_of_not_mem (h : sep ∉ s) : split sep s = [s] := by
  induction s with
  | nil => rfl
  | cons c rest ih =>
    simp only [List.mem_cons, not_or] at h
    rw [split, if_neg (Ne.symm h.1), ih h.2]

theorem split_ne_nil (sep : Char) (s : List Char) : split sep s ≠ [] := by
  cases s with
  | nil => simp [split]
  | cons c rest =>
    rw [split]
    split
    · simp
    · split <;> simp

/-- A separator ends the pieces before it. -/
theorem split_append (s rest : List Char) : split sep (s ++ sep :: rest) = split sep s ++ split sep rest := by
  induction s with
  | nil => simp [split]
  | cons c s ih =>
    rw [List.cons_append, split, split]
    split
    · rw [ih]
      rfl
    · cases hpieces : split sep s with
      | nil => exact absurd hpieces (split_ne_nil sep s)
      | cons piece pieces =>
        rw [ih, hpieces]
        rfl

theorem not_mem_of_mem_split {piece : List Char} (h : piece ∈ split sep s) : sep ∉ piece := by
  induction s generalizing piece with
  | nil =>
    rw [split, List.mem_singleton] at h
    simp [h]
  | cons c rest ih =>
    rw [split] at h
    split at h
    · rcases List.mem_cons.1 h with rfl | h
      · simp
      · exact ih h
    · rename_i hne
      split at h
      · rw [List.mem_singleton.1 h, List.mem_singleton]
        exact Ne.symm hne
      · rename_i first pieces hrest
        rcases List.mem_cons.1 h with rfl | h
        · have hfirst : sep ∉ first := ih (by simp [hrest])
          simp [Ne.symm hne, hfirst]
        · exact ih (by simp [hrest, h])

end Muster.Text
