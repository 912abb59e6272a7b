import Mathlib.Data.List.Induction
import Muster.Files
import Muster.Proofs.Sorted

/-!
# Trees of files

What stands at a path after directories were removed or one was made, as far as directories directly below the top
are concerned. In a tree nothing stands below a path at which there is no directory.
-/

namespace Muster

namespace Files

theorem isDirectory_iff {files : Files} {path : Path} :
    files.isDirectory path ↔ path = [] ∨ files.get? path = some .directory := by
  simp [isDirectory]

theorem isStuck_iff {stuck : List Path} {path : Path} : isStuck stuck path ↔ ∃ s ∈ stuck, path <+: s := by
  simp [isStuck]

@[simp] theorem isStuck_nil (path : Path) : isStuck [] path = false := rfl

/-- What stays keeps the directories that lead to it. -/
theorem isStuck_of_below {stuck : List Path} {path p : Path} (hpath : path <+: p) (h : isStuck stuck p) :
    isStuck stuck path := by
  obtain ⟨s, hs, hp⟩ := isStuck_iff.1 h
  exact isStuck_iff.2 ⟨s, hs, hpath.trans hp⟩

theorem get?_removeDirectory (files : Files) (stuck : List Path) (path p : Path) :
    (files.removeDirectory path stuck).get? p =
      if files.isDirectory path ∧ path <+: p ∧ ¬ isStuck stuck p then none else files.get? p := by
  unfold removeDirectory
  by_cases hdir : files.isDirectory path
  · simp only [hdir, if_true, true_and]
    ext entry
    rw [SortedMap.get?_filter_eq_some_iff, Bool.or_eq_true, Bool.not_eq_true', ← Bool.not_eq_true,
      List.isPrefixOf_iff_prefix]
    by_cases hgoes : path <+: p ∧ ¬ isStuck stuck p
    · simp [hgoes]
    · rw [if_neg hgoes, and_iff_left]
      tauto
  · simp [hdir]

/-- A directory that is removed takes nothing with it that stands elsewhere. -/
theorem get?_removeDirectory_of_not_below (files : Files) (stuck : List Path) {path p : Path} (h : ¬ path <+: p) :
    (files.removeDirectory path stuck).get? p = files.get? p := by
  rw [get?_removeDirectory, if_neg fun hall => h hall.2.1]

theorem makeDirectory_single (files : Files) (name : String) : files.makeDirectory [name] =
    match files.get? [name] with
    | some .directory => some files
    | some (.file _) => none
    | none => some (files.insert [name] .directory) := by
  unfold makeDirectory makeBelow
  simp only [List.nil_append]
  split <;> simp_all [makeBelow]

/-- What stands at a path stands in a directory. -/
def IsTree (files : Files) : Prop :=
  ∀ path entry, files.get? path = some entry → path ≠ [] ∧ files.isDirectory path.dropLast

/-- Something stands below a directory. -/
def Holds (files : Files) (name : String) : Prop :=
  ∃ rest entry, rest ≠ [] ∧ files.get? (name :: rest) = some entry

section

variable {files made : Files} {stuck : List Path} {name : String}

/-- Nothing stands below a path at which there is no directory. -/
theorem IsTree.isDirectory_of_holds (h : files.IsTree) (hholds : files.Holds name) :
    files.isDirectory [name] := by
  obtain ⟨rest, entry, hne, hget⟩ := hholds
  induction rest using List.reverseRecOn generalizing entry with
  | nil => exact absurd rfl hne
  | append_singleton rest last ih =>
    obtain ⟨-, hdir⟩ := h _ _ hget
    rw [← List.cons_append, List.dropLast_concat] at hdir
    rcases isDirectory_iff.1 hdir with hnil | hdir
    · cases hnil
    · by_cases hrest : rest = []
      · subst hrest
        exact isDirectory_iff.2 (.inr hdir)
      · exact ih _ hrest hdir

theorem IsTree.removeDirectory (h : files.IsTree) (path : Path) : (files.removeDirectory path stuck).IsTree := by
  intro p entry hget
  rw [get?_removeDirectory] at hget
  split at hget
  · cases hget
  · rename_i hkept
    obtain ⟨hne, hdir⟩ := h p entry hget
    refine ⟨hne, isDirectory_iff.2 ?_⟩
    rcases isDirectory_iff.1 hdir with hnil | hdir
    · exact .inl hnil
    · rw [get?_removeDirectory, if_neg]
      · exact .inr hdir
      · rintro ⟨hpath, hbelow, hfree⟩
        have hup : p.dropLast <+: p := List.dropLast_prefix p
        exact hkept ⟨hpath, hbelow.trans hup, fun hstuck => hfree (isStuck_of_below hup hstuck)⟩

theorem IsTree.makeDirectory (h : files.IsTree) (hmade : files.makeDirectory [name] = some made) :
    made.IsTree := by
  rw [makeDirectory_single] at hmade
  split at hmade
  · cases hmade
    exact h
  · cases hmade
  · rename_i hnone
    cases hmade
    have hstays {p : Path} (hdir : files.isDirectory p) :
        isDirectory (SortedMap.insert files [name] .directory) p := by
      rcases isDirectory_iff.1 hdir with hnil | hdir
      · exact isDirectory_iff.2 (.inl hnil)
      · have hne : p ≠ [name] := by
          rintro rfl
          rw [hnone] at hdir
          cases hdir
        exact isDirectory_iff.2 (.inr (by rw [SortedMap.get?_insert_of_ne _ _ hne, hdir]))
    intro p entry hget
    by_cases hp : p = [name]
    · subst hp
      exact ⟨by simp, hstays (isDirectory_iff.2 (.inl rfl))⟩
    · rw [SortedMap.get?_insert_of_ne _ _ hp] at hget
      obtain ⟨hne, hdir⟩ := h p entry hget
      exact ⟨hne, hstays hdir⟩

theorem isDirectory_of_removeDirectory {path p : Path} (h : (files.removeDirectory path stuck).isDirectory p) :
    files.isDirectory p := by
  rcases isDirectory_iff.1 h with hnil | hget
  · exact isDirectory_iff.2 (.inl hnil)
  · rw [get?_removeDirectory] at hget
    split at hget
    · cases hget
    · exact isDirectory_iff.2 (.inr hget)

/-- A directory that is made is there, and everything else is as it was. -/
theorem get?_of_makeDirectory (hmade : files.makeDirectory [name] = some made) :
    made.get? [name] = some .directory ∧ ∀ p, p ≠ [name] → made.get? p = files.get? p := by
  rw [makeDirectory_single] at hmade
  split at hmade
  · rename_i hdir
    cases hmade
    exact ⟨hdir, fun _ _ => rfl⟩
  · cases hmade
  · cases hmade
    exact ⟨SortedMap.get?_insert_self _ _ _, fun p hp => SortedMap.get?_insert_of_ne _ _ hp⟩

/-- Only a file is in the way of a directory. -/
theorem makeDirectory_eq_none_iff :
    files.makeDirectory [name] = none ↔ ∃ text, files.get? [name] = some (.file text) := by
  rw [makeDirectory_single]
  split
  · rename_i hdir
    simp [hdir]
  · rename_i text hfile
    simp [hfile]
  · rename_i hnone
    simp [hnone]

/-! ### Several directories -/

/-- What is left of the files without some directories, as far as these can be removed. -/
def removeAll (files : Files) (names : List String) (stuck : List Path := []) : Files :=
  names.foldl (fun files name => files.removeDirectory [name] stuck) files

variable {names : List String}

/-- What stands below a directory that is among them goes, unless it is stuck, and all else stays. -/
theorem get?_removeAll_eq (files : Files) (stuck : List Path) (names : List String) (name : String) (rest : Path) :
    (files.removeAll names stuck).get? (name :: rest) =
      if name ∈ names ∧ files.isDirectory [name] ∧ ¬ isStuck stuck (name :: rest) then none
      else files.get? (name :: rest) := by
  unfold removeAll
  induction names generalizing files with
  | nil => simp
  | cons other names ih =>
    rw [List.foldl_cons, ih]
    by_cases hname : name = other
    · subst hname
      by_cases hgoes : files.isDirectory [name] ∧ ¬ isStuck stuck (name :: rest)
      · simp [get?_removeDirectory, hgoes]
      · have hsame : (files.removeDirectory [name] stuck).get? (name :: rest) = files.get? (name :: rest) := by
          rw [get?_removeDirectory, if_neg fun hall => hgoes ⟨hall.1, hall.2.2⟩]
        have hno : ¬ (name ∈ names ∧ (files.removeDirectory [name] stuck).isDirectory [name] ∧
            ¬ isStuck stuck (name :: rest)) := by
          rintro ⟨-, hdir, hfree⟩
          exact hgoes ⟨isDirectory_of_removeDirectory hdir, hfree⟩
        rw [hsame, if_neg hno, if_neg fun hall => hgoes hall.2]
    · have hstays (below : Path) :
          (files.removeDirectory [other] stuck).get? (name :: below) = files.get? (name :: below) :=
        files.get?_removeDirectory_of_not_below stuck fun hprefix => hname (List.cons_prefix_cons.1 hprefix).1.symm
      have hdir : (files.removeDirectory [other] stuck).isDirectory [name] = files.isDirectory [name] := by
        simp only [isDirectory, hstays]
      rw [hstays, hdir]
      simp only [List.mem_cons, hname, false_or]

theorem get?_removeAll (files : Files) (stuck : List Path) (h : name ∉ names) (rest : Path) :
    (files.removeAll names stuck).get? (name :: rest) = files.get? (name :: rest) := by
  rw [get?_removeAll_eq, if_neg fun hall => h hall.1]

theorem IsTree.removeAll (h : files.IsTree) (names : List String) : (files.removeAll names stuck).IsTree := by
  unfold Files.removeAll
  induction names generalizing files with
  | nil => exact h
  | cons name names ih => exact ih (h.removeDirectory [name])

end

end Files

end Muster
