import Muster.Proofs.Restarting

/-!
# What requests ask for

A node is told to report to head nodes, and not to report to them any more. The entries of a request can be spelled in
many ways and can be no addresses at all; after the request the node reports to the head nodes that the valid entries
stand for, by the mode of the request.
-/

namespace Muster

namespace Reporter

variable {r : Reporter} {own : Address} {localName entry headnode other : String}

/-! ### What a request asks for -/

/-- The name under which an entry is answered: that of the head node, or the entry itself if it stands for none. -/
def shownAs (localName entry : String) : String :=
  match Address.parse entry localName with
  | .ok address => address.text
  | .error _ => entry

/-- Whether an entry stands for a head node. -/
def isValid (localName entry : String) : Bool := (Address.parse entry localName).isOk

/-- Whether a head node is to be listed after a request, by the list before it. -/
def Asked (localName : String) (before entries : List String) (headnode : String) : Mode → Prop
  | .add => headnode ∈ before ∨ ∃ entry ∈ entries, Names localName entry headnode
  | .remove => headnode ∈ before ∧ ¬ ∃ entry ∈ entries, Names localName entry headnode
  | .replace => ∃ entry ∈ entries, Names localName entry headnode

theorem Names.unique (h : Names localName entry headnode) (h' : Names localName entry other) : headnode = other := by
  obtain ⟨address, hparse, rfl⟩ := h
  obtain ⟨address', hparse', rfl⟩ := h'
  rw [hparse, Except.ok.injEq] at hparse'
  rw [hparse']

theorem isValid_iff : isValid localName entry ↔ Names localName entry (shownAs localName entry) := by
  unfold isValid shownAs Names
  cases Address.parse entry localName with
  | ok address => simp [Except.isOk, Except.toBool]
  | error fault => simp [Except.isOk, Except.toBool]

/-- An entry stands for a head node if it is answered under its name and is valid. -/
theorem names_iff : Names localName entry headnode ↔ isValid localName entry ∧ shownAs localName entry = headnode := by
  constructor
  · intro h
    obtain ⟨address, hparse, rfl⟩ := h
    simp [isValid, shownAs, hparse, Except.isOk, Except.toBool]
  · rintro ⟨hvalid, rfl⟩
    exact isValid_iff.1 hvalid

theorem shownAs_of_not_isValid (h : isValid localName entry = false) : shownAs localName entry = entry := by
  unfold isValid at h
  unfold shownAs
  split
  · rename_i hparse
    rw [hparse] at h
    cases h
  · rfl

/-! ### One entry -/

/-- What adding an entry comes to: the node afterwards, and the answer. -/
inductive Adds (r : Reporter) (entry : String) : Reporter × String × Change → Prop
  | invalid (fault : Fault) (hvalid : isValid r.host.host entry = false) : Adds r entry (r, entry, .invalid fault)
  | there {headnode : String} {task : Nat} {change : Change} (hnames : Names r.host.host entry headnode)
      (hlink : r.links.get? headnode = some task) (hchange : change = .alreadyConnected ∨ change = .connecting) :
      Adds r entry (r, headnode, change)
  | added {headnode : String} (hnames : Names r.host.host entry headnode) (hlink : r.links.get? headnode = none) :
      Adds r entry
        ({ r with
          links := r.links.insert headnode r.tasks.length
          tasks := r.tasks ++ [{ headnode, cancelled := r.stopped }] }, headnode, .added)

/-- The same for taking an entry away. -/
inductive Removes (r : Reporter) (entry : String) : Reporter × String × Change → Prop
  | invalid (fault : Fault) (hvalid : isValid r.host.host entry = false) : Removes r entry (r, entry, .invalid fault)
  | gone {headnode : String} (hnames : Names r.host.host entry headnode) (hlink : r.links.get? headnode = none) :
      Removes r entry (r, headnode, .alreadyRemoved)
  | removed {headnode : String} {task : Nat} (hnames : Names r.host.host entry headnode)
      (hlink : r.links.get? headnode = some task) :
      Removes r entry
        ({ r with
          links := r.links.erase headnode
          tasks := r.tasks.modify task fun t => { t with cancelled := true } }, headnode, .removed)

theorem adds (r : Reporter) (entry : String) : Adds r entry (r.addOne entry) := by
  unfold addOne
  split
  · rename_i hparse
    exact .invalid _ (by simp [isValid, hparse, Except.isOk, Except.toBool])
  · rename_i address hparse
    have hnames : Names r.host.host entry address.text := ⟨address, hparse, rfl⟩
    simp only
    split
    · rename_i hlink
      exact .there hnames hlink (by split <;> simp)
    · rename_i hlink
      exact .added hnames hlink

theorem removes (r : Reporter) (entry : String) : Removes r entry (r.removeOne entry) := by
  unfold removeOne
  split
  · rename_i hparse
    exact .invalid _ (by simp [isValid, hparse, Except.isOk, Except.toBool])
  · rename_i address hparse
    have hnames : Names r.host.host entry address.text := ⟨address, hparse, rfl⟩
    simp only
    split
    · rename_i hlink
      exact .removed hnames hlink
    · rename_i hlink
      exact .gone hnames hlink

theorem addOne_of_not_isValid (h : isValid r.host.host entry = false) : (r.addOne entry).1 = r := by
  have hadds := adds r entry
  generalize r.addOne entry = result at hadds ⊢
  cases hadds with
  | invalid | there => rfl
  | added hnames =>
    rw [(names_iff.1 hnames).1] at h
    cases h

theorem removeOne_of_not_isValid (h : isValid r.host.host entry = false) : (r.removeOne entry).1 = r := by
  have hremoves := removes r entry
  generalize r.removeOne entry = result at hremoves ⊢
  cases hremoves with
  | invalid | gone => rfl
  | removed hnames =>
    rw [(names_iff.1 hnames).1] at h
    cases h

theorem key_addOne (r : Reporter) (entry : String) : (r.addOne entry).2.1 = shownAs r.host.host entry := by
  have hadds := adds r entry
  generalize r.addOne entry = result at hadds ⊢
  cases hadds with
  | invalid fault hvalid => exact (shownAs_of_not_isValid hvalid).symm
  | there hnames | added hnames => exact (names_iff.1 hnames).2.symm

theorem key_removeOne (r : Reporter) (entry : String) : (r.removeOne entry).2.1 = shownAs r.host.host entry := by
  have hremoves := removes r entry
  generalize r.removeOne entry = result at hremoves ⊢
  cases hremoves with
  | invalid fault hvalid => exact (shownAs_of_not_isValid hvalid).symm
  | gone hnames | removed hnames => exact (names_iff.1 hnames).2.symm

theorem mem_headnodes_removeOne (r : Reporter) (entry headnode : String) :
    headnode ∈ (r.removeOne entry).1.headnodes ↔ headnode ∈ r.headnodes ∧ ¬ Names r.host.host entry headnode := by
  have hremoves := removes r entry
  generalize r.removeOne entry = result at hremoves ⊢
  cases hremoves with
  | invalid fault hvalid =>
    refine ⟨fun hmem => ⟨hmem, fun hnames => ?_⟩, And.left⟩
    rw [(names_iff.1 hnames).1] at hvalid
    cases hvalid
  | gone hnames hlink =>
    refine ⟨fun hmem => ⟨hmem, fun hother => ?_⟩, And.left⟩
    rw [mem_headnodes, hother.unique hnames] at hmem
    simp [SortedMap.contains, hlink] at hmem
  | @removed gone _ hnames =>
    have hne : Names r.host.host entry headnode ↔ headnode = gone :=
      ⟨fun hother => hother.unique hnames, fun heq => heq ▸ hnames⟩
    rw [mem_headnodes, SortedMap.contains_erase, mem_headnodes, hne, and_comm]

/-! ### Whole lists -/

section lists

variable {one : Reporter → String → Reporter × String × Change}

theorem applyAll_cons (r : Reporter) (changes : SortedMap String Change) (entry : String) (rest : List String) :
    applyAll one r changes (entry :: rest) =
      applyAll one (one r entry).1 (changes.insert (one r entry).2.1 (one r entry).2.2) rest := rfl

theorem host_applyAll (hone : ∀ r entry, (one r entry).1.host = r.host) (r : Reporter)
    (changes : SortedMap String Change) (entries : List String) : (applyAll one r changes entries).1.host = r.host := by
  induction entries generalizing r changes with
  | nil => rfl
  | cons entry rest ih => rw [applyAll_cons, ih, hone]

theorem contains_applyAll (hhost : ∀ r entry, (one r entry).1.host = r.host)
    (hkey : ∀ r entry, (one r entry).2.1 = shownAs r.host.host entry) (r : Reporter) (changes : SortedMap String Change)
    (entries : List String) (headnode : String) :
    (applyAll one r changes entries).2.contains headnode ↔
      changes.contains headnode ∨ ∃ entry ∈ entries, shownAs r.host.host entry = headnode := by
  induction entries generalizing r changes with
  | nil => simp [applyAll]
  | cons entry rest ih =>
    rw [applyAll_cons, ih, SortedMap.contains_insert, hkey, hhost]
    simp only [List.mem_cons, exists_eq_or_imp]
    tauto

/-- What becomes of the node does not depend on what was answered before. -/
theorem applyAll_fst (r : Reporter) (changes changes' : SortedMap String Change) (entries : List String) :
    (applyAll one r changes entries).1 = (applyAll one r changes' entries).1 := by
  induction entries generalizing r changes changes' with
  | nil => rfl
  | cons entry rest ih => exact ih _ _ _

/-- Entries that are passed over may as well be missing. -/
theorem applyAll_filter (hhost : ∀ r entry, (one r entry).1.host = r.host)
    (hskip : ∀ r entry, isValid r.host.host entry = false → (one r entry).1 = r) (r : Reporter)
    (changes changes' : SortedMap String Change) (entries : List String) :
    (applyAll one r changes (entries.filter (isValid r.host.host))).1 = (applyAll one r changes' entries).1 := by
  induction entries generalizing r changes changes' with
  | nil => rfl
  | cons entry rest ih =>
    cases hvalid : isValid r.host.host entry with
    | false =>
      rw [List.filter_cons_of_neg (by simp [hvalid]), applyAll_cons, hskip r entry hvalid]
      exact ih r _ _
    | true =>
      rw [List.filter_cons_of_pos hvalid, applyAll_cons, applyAll_cons, ← hhost r entry]
      exact ih _ _ _

end lists

theorem mem_headnodes_addAll (r : Reporter) (changes : SortedMap String Change) (entries : List String)
    (headnode : String) :
    headnode ∈ (applyAll addOne r changes entries).1.headnodes ↔
      headnode ∈ r.headnodes ∨ ∃ entry ∈ entries, Names r.host.host entry headnode := by
  induction entries generalizing r changes with
  | nil => simp [applyAll]
  | cons entry rest ih =>
    rw [applyAll_cons, ih, mem_headnodes_addOne, host_addOne, or_assoc]
    simp only [List.mem_cons, exists_eq_or_imp]

theorem mem_headnodes_removeAll (r : Reporter) (changes : SortedMap String Change) (entries : List String)
    (headnode : String) :
    headnode ∈ (applyAll removeOne r changes entries).1.headnodes ↔
      headnode ∈ r.headnodes ∧ ¬ ∃ entry ∈ entries, Names r.host.host entry headnode := by
  induction entries generalizing r changes with
  | nil => simp [applyAll]
  | cons entry rest ih =>
    rw [applyAll_cons, ih, mem_headnodes_removeOne, host_removeOne, and_assoc]
    simp only [List.mem_cons, exists_eq_or_imp, not_or]

/-! ### Replacing -/

/-- The node after the entries of a list were added, and the answers to them. -/
def added (r : Reporter) (entries : List String) : Reporter × SortedMap String Change := applyAll addOne r ∅ entries

/-- The head nodes that go when a list takes the place of all there are. -/
def stale (r : Reporter) (entries : List String) : List String :=
  (r.added entries).1.headnodes.filter fun headnode => !(r.added entries).2.contains headnode

theorem set_replace (r : Reporter) (entries : List String) :
    r.set .replace entries = applyAll removeOne (r.added entries).1 (r.added entries).2 (r.stale entries) := rfl

theorem host_added (r : Reporter) (entries : List String) : (r.added entries).1.host = r.host :=
  host_applyAll host_addOne r ∅ entries

theorem contains_added (r : Reporter) (entries : List String) (headnode : String) :
    (r.added entries).2.contains headnode ↔ ∃ entry ∈ entries, shownAs r.host.host entry = headnode := by
  rw [added, contains_applyAll host_addOne key_addOne]
  simp [SortedMap.contains]

/-- What is listed after the entries were added, and answered, is what they stand for. -/
theorem Keyed.mem_added (hown : Address.IsHost own.host) (h : Keyed own r) (entries : List String) (headnode : String) :
    headnode ∈ (r.added entries).1.headnodes ∧ (r.added entries).2.contains headnode ↔
      ∃ entry ∈ entries, Names own.host entry headnode := by
  have hkeyed : Keyed own (r.added entries).1 := h.applyAll (fun r entry hr => hr.addOne hown entry) ∅ entries
  rw [contains_added, h.host]
  constructor
  · rintro ⟨hmem, entry, hentry, hshown⟩
    refine ⟨entry, hentry, names_iff.2 ⟨?_, hshown⟩⟩
    -- An invalid entry is answered as it is, and is not the name of a head node.
    by_contra hinvalid
    rw [shownAs_of_not_isValid (by simpa using hinvalid)] at hshown
    subst hshown
    exact hinvalid (names_iff.1 (hkeyed.named entry hmem)).1
  · rintro ⟨entry, hentry, hnames⟩
    refine ⟨?_, entry, hentry, (names_iff.1 hnames).2⟩
    rw [added, mem_headnodes_addAll, h.host]
    exact .inr ⟨entry, hentry, hnames⟩

/-- Each head node that goes is taken away under its own name. -/
theorem Keyed.names_stale (hown : Address.IsHost own.host) (h : Keyed own r) {entries : List String}
    (hmem : other ∈ r.stale entries) : Names own.host other headnode ↔ headnode = other := by
  have hkeyed : Keyed own (r.added entries).1 := h.applyAll (fun r entry hr => hr.addOne hown entry) ∅ entries
  have hself := hkeyed.named other (List.mem_filter.1 hmem).1
  refine ⟨fun hnames => hnames.unique hself, ?_⟩
  rintro rfl
  exact hself

theorem Keyed.mem_headnodes_replace (hown : Address.IsHost own.host) (h : Keyed own r) (entries : List String)
    (headnode : String) :
    headnode ∈ (r.set .replace entries).1.headnodes ↔ ∃ entry ∈ entries, Names own.host entry headnode := by
  have hstale : (∃ other ∈ r.stale entries, Names own.host other headnode) ↔ headnode ∈ r.stale entries := by
    constructor
    · rintro ⟨other, hother, hnames⟩
      rwa [(h.names_stale hown hother).1 hnames]
    · exact fun hmem => ⟨headnode, hmem, (h.names_stale hown hmem).2 rfl⟩
  rw [set_replace, mem_headnodes_removeAll, host_added, h.host, hstale, ← h.mem_added hown, stale, List.mem_filter]
  refine and_congr_right fun hmem => ?_
  rw [and_iff_right hmem]
  simp

/-- After a request the list is what the request asks for. -/
theorem mem_headnodes_set (r : Reporter) (mode : Mode) (entries : List String) (headnode : String)
    (hreplace : mode = .replace → Address.IsHost r.host.host ∧ Keyed r.host r) :
    headnode ∈ (r.set mode entries).1.headnodes ↔ Asked r.host.host r.headnodes entries headnode mode := by
  cases mode with
  | add => exact mem_headnodes_addAll r ∅ entries headnode
  | remove => exact mem_headnodes_removeAll r ∅ entries headnode
  | replace =>
    obtain ⟨hown, hkeyed⟩ := hreplace rfl
    exact hkeyed.mem_headnodes_replace hown entries headnode

/-- Without its invalid entries a request does the same. -/
theorem set_filter (r : Reporter) (mode : Mode) (entries : List String)
    (hreplace : mode = .replace → Address.IsHost r.host.host ∧ Keyed r.host r) :
    (r.set mode (entries.filter (isValid r.host.host))).1 = (r.set mode entries).1 := by
  have hadd := applyAll_filter host_addOne (fun r entry => addOne_of_not_isValid) r ∅ ∅ entries
  cases mode with
  | add => exact hadd
  | remove => exact applyAll_filter host_removeOne (fun r entry => removeOne_of_not_isValid) r ∅ ∅ entries
  | replace =>
    obtain ⟨hown, hkeyed⟩ := hreplace rfl
    have hsame : (r.added (entries.filter (isValid r.host.host))).1 = (r.added entries).1 := hadd
    have hstale : r.stale (entries.filter (isValid r.host.host)) = r.stale entries := by
      unfold stale
      rw [hsame]
      refine List.filter_congr fun headnode hmem => congrArg not (Bool.eq_iff_iff.2 ?_)
      have hvalid := hkeyed.mem_added hown (entries.filter (isValid r.host.host)) headnode
      have hall := hkeyed.mem_added hown entries headnode
      rw [hsame, and_iff_right hmem] at hvalid
      rw [and_iff_right hmem] at hall
      rw [hvalid, hall]
      simp only [List.mem_filter]
      constructor
      · rintro ⟨entry, ⟨hentry, -⟩, hnames⟩
        exact ⟨entry, hentry, hnames⟩
      · rintro ⟨entry, hentry, hnames⟩
        exact ⟨entry, ⟨hentry, (names_iff.1 hnames).1⟩, hnames⟩
    rw [set_replace, set_replace, hsame, hstale]
    exact applyAll_fst _ _ _ _

end Reporter

end Muster
