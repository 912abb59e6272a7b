import Muster.Proofs.Links

/-!
# What is answered to a request

A request is answered under the name of each head node that its entries stand for. Entries are applied one after the
other, and the answer to a later one takes the place of an earlier one. So an answer tells what the request did to the
list, unless the head node was answered again after it was added or taken away; and that is so exactly where several
entries stand for it.
-/

namespace Muster

namespace Reporter

variable {r after : Reporter} {own : Address} {headnode : String}

/-! ### Answers in turn -/

/-- The answers to entries, one after the other. -/
def answers (one : Reporter → String → Reporter × String × Change) (r : Reporter) :
    List String → List (String × Change)
  | [] => []
  | entry :: rest => (one r entry).2 :: answers one (one r entry).1 rest

/-- All answers that are given in the course of a request. -/
def given (r : Reporter) (entries : List String) : Mode → List (String × Change)
  | .add => answers addOne r entries
  | .remove => answers removeOne r entries
  | .replace => answers addOne r entries ++ answers removeOne (r.added entries).1 (r.stale entries)

/-- A head node is added or taken away, and answered again after that. -/
def AnsweredAgain (answers : List (String × Change)) (headnode : String) : Prop :=
  ∃ earlier change later, answers = earlier ++ (headnode, change) :: later ∧ (change = .added ∨ change = .removed) ∧
    headnode ∈ later.map Prod.fst

theorem AnsweredAgain.two_le_count {l : List (String × Change)} (h : AnsweredAgain l headnode) :
    2 ≤ (l.map Prod.fst).count headnode := by
  obtain ⟨earlier, change, later, rfl, -, hmem⟩ := h
  have hlater := List.count_pos_iff.2 hmem
  rw [List.map_append, List.map_cons, List.count_append, List.count_cons_self]
  omega

theorem applyAll_snd (one : Reporter → String → Reporter × String × Change) (r : Reporter)
    (changes : SortedMap String Change) (entries : List String) :
    (applyAll one r changes entries).2 = (answers one r entries).foldl (fun m a => m.insert a.1 a.2) changes := by
  induction entries generalizing r changes with
  | nil => rfl
  | cons entry rest ih =>
    rw [applyAll_cons, ih]
    rfl

/-- What is told in the end is the last answer under each name. -/
theorem set_snd (r : Reporter) (mode : Mode) (entries : List String) :
    (r.set mode entries).2 = SortedMap.ofList (r.given entries mode) := by
  cases mode with
  | add => exact applyAll_snd addOne r ∅ entries
  | remove => exact applyAll_snd removeOne r ∅ entries
  | replace =>
    rw [set_replace, applyAll_snd, added, applyAll_snd, given, SortedMap.ofList, List.foldl_append]
    rfl

/-- An answer tells what became of the list. -/
structure Tells (r : Reporter) (answer : String × Change) (after : Reporter) : Prop where
  added : answer.2 = .added → answer.1 ∉ r.headnodes
  removed : answer.2 = .removed → answer.1 ∈ r.headnodes
  listed : ∀ headnode, headnode ∈ after.headnodes ↔
    headnode = answer.1 ∧ answer.2 = .added ∨ headnode ∈ r.headnodes ∧ ¬ (headnode = answer.1 ∧ answer.2 = .removed)

/-- Answers tell in turn what became of the list. -/
inductive Told : Reporter → List (String × Change) → Reporter → Prop
  | nothing (r : Reporter) : Told r [] r
  | more {r before after : Reporter} {answers : List (String × Change)} {answer : String × Change}
      (h : Told r answers before) (ha : Tells before answer after) : Told r (answers ++ [answer]) after

theorem tells_addOne (r : Reporter) (entry : String) : Tells r (r.addOne entry).2 (r.addOne entry).1 := by
  have hadds := adds r entry
  generalize r.addOne entry = result at hadds ⊢
  cases hadds with
  | invalid => exact ⟨by simp, by simp, by simp⟩
  | there _ _ hchange => rcases hchange with rfl | rfl <;> exact ⟨by simp, by simp, by simp⟩
  | @added headnode _ hlink =>
    refine ⟨fun _ hmem => ?_, by simp, fun other => ?_⟩
    · rw [mem_headnodes] at hmem
      simp [SortedMap.contains, hlink] at hmem
    · rw [mem_headnodes, SortedMap.contains_insert, mem_headnodes]
      simp

theorem tells_removeOne (r : Reporter) (entry : String) : Tells r (r.removeOne entry).2 (r.removeOne entry).1 := by
  have hremoves := removes r entry
  generalize r.removeOne entry = result at hremoves ⊢
  cases hremoves with
  | invalid | gone => exact ⟨by simp, by simp, by simp⟩
  | @removed headnode task _ hlink =>
    refine ⟨by simp, fun _ => mem_headnodes.2 (by simp [SortedMap.contains, hlink]), fun other => ?_⟩
    rw [mem_headnodes, SortedMap.contains_erase, mem_headnodes, and_comm]
    simp

theorem Told.append {before : Reporter} {first second : List (String × Change)} (h : Told r first before)
    (h' : Told before second after) : Told r (first ++ second) after := by
  induction h' with
  | nothing => rwa [List.append_nil]
  | more _ ha ih =>
    rw [← List.append_assoc]
    exact .more ih ha

theorem told_answers {one : Reporter → String → Reporter × String × Change}
    (hone : ∀ r entry, Tells r (one r entry).2 (one r entry).1) (r : Reporter) (changes : SortedMap String Change)
    (entries : List String) : Told r (answers one r entries) (applyAll one r changes entries).1 := by
  induction entries generalizing r changes with
  | nil => exact .nothing r
  | cons entry rest ih => exact (Told.more (.nothing r) (hone r entry)).append (ih _ _)

theorem told_given (r : Reporter) (mode : Mode) (entries : List String) :
    Told r (r.given entries mode) (r.set mode entries).1 := by
  cases mode with
  | add => exact told_answers tells_addOne r ∅ entries
  | remove => exact told_answers tells_removeOne r ∅ entries
  | replace =>
    rw [set_replace]
    exact (told_answers tells_addOne r ∅ entries).append (told_answers tells_removeOne _ _ _)

/-- A head node stays as it is where no answer adds it or takes it away. -/
theorem Told.mem_iff {l : List (String × Change)} (h : Told r l after)
    (hquiet : ∀ a ∈ l, a.1 = headnode → a.2 ≠ .added ∧ a.2 ≠ .removed) :
    headnode ∈ after.headnodes ↔ headnode ∈ r.headnodes := by
  induction h with
  | nothing => rfl
  | @more _ _ _ answer _ ha ih =>
    have hlast := hquiet answer (by simp)
    have hbefore := ih fun a hmem => hquiet a (by simp [hmem])
    rw [ha.listed headnode, ← hbefore]
    constructor
    · rintro (⟨heq, hadded⟩ | ⟨hmem, -⟩)
      · exact absurd hadded (hlast heq.symm).1
      · exact hmem
    · exact fun hmem => .inr ⟨hmem, fun hremoved => (hlast hremoved.1.symm).2 hremoved.2⟩

/-- Where a head node is not answered again, the last answer tells the change of the list. -/
theorem Told.get?_eq_iff {l : List (String × Change)} (h : Told r l after) (honce : ¬ AnsweredAgain l headnode) :
    ((SortedMap.ofList l).get? headnode = some .added ↔ headnode ∉ r.headnodes ∧ headnode ∈ after.headnodes) ∧
      ((SortedMap.ofList l).get? headnode = some .removed ↔
        headnode ∈ r.headnodes ∧ headnode ∉ after.headnodes) := by
  induction h with
  | nothing =>
    have hnone : (SortedMap.ofList ([] : List (String × Change))).get? headnode = none := rfl
    simp [hnone]
  | @more before after answers answer h ha ih =>
    obtain ⟨name, change⟩ := answer
    rw [SortedMap.ofList_concat]
    by_cases hname : headnode = name
    · subst hname
      -- It was not changed before, or this answer would be another one after that.
      have hquiet : ∀ a ∈ answers, a.1 = headnode → a.2 ≠ .added ∧ a.2 ≠ .removed := by
        rintro ⟨other, earlier⟩ hmem hother
        obtain ⟨front, back, rfl⟩ := List.append_of_mem hmem
        refine not_or.1 fun hchange => honce ⟨front, earlier, back ++ [(headnode, change)], ?_, hchange, by simp⟩
        simp only [List.append_assoc, List.cons_append, ← hother]
      have hsame := h.mem_iff hquiet
      have hadded := ha.added
      have hremoved := ha.removed
      have hlisted := ha.listed headnode
      simp only [SortedMap.get?_insert_self, Option.some.injEq] at *
      cases change <;> simp_all
    · have hbefore : headnode ∈ after.headnodes ↔ headnode ∈ before.headnodes := by
        rw [ha.listed headnode]
        simp [hname]
      rw [SortedMap.get?_insert_of_ne _ _ hname, hbefore]
      refine ih fun hagain => honce ?_
      obtain ⟨earlier, last, later, rfl, hchange, hmem⟩ := hagain
      exact ⟨earlier, last, later ++ [(name, change)], by simp, hchange, by simp [hmem]⟩

/-! ### Entries that stand for one head node -/

/-- The head nodes that entries stand for, one for each valid entry. -/
def meant (localName : String) (entries : List String) : List String :=
  (entries.filter (isValid localName)).map (shownAs localName)

theorem mem_meant {localName : String} {entries : List String} :
    headnode ∈ meant localName entries ↔ ∃ entry ∈ entries, Names localName entry headnode := by
  simp only [meant, List.mem_map, List.mem_filter, names_iff, and_assoc]

theorem meant_concat_of_names {localName entry : String} (h : Names localName entry headnode) (entries : List String) :
    meant localName (entries ++ [entry]) = meant localName entries ++ [headnode] := by
  obtain ⟨hvalid, hshown⟩ := names_iff.1 h
  simp [meant, List.filter_append, hvalid, hshown]

theorem meant_concat_of_not_isValid {localName entry : String} (h : isValid localName entry = false)
    (entries : List String) : meant localName (entries ++ [entry]) = meant localName entries := by
  simp [meant, List.filter_append, h]

/-- The name of a head node is no invalid entry. -/
theorem ne_of_mem_meant {localName entry : String} {entries : List String} (hlocal : Address.IsHost localName)
    (hinvalid : isValid localName entry = false) (hmem : headnode ∈ meant localName entries) : headnode ≠ entry := by
  obtain ⟨_, -, hnames⟩ := mem_meant.1 hmem
  rintro rfl
  rw [(names_iff.1 (hnames.self hlocal)).1] at hinvalid
  cases hinvalid

theorem applyAll_concat (one : Reporter → String → Reporter × String × Change) (r : Reporter)
    (changes : SortedMap String Change) (entries : List String) (entry : String) :
    applyAll one r changes (entries ++ [entry]) =
      ((one (applyAll one r changes entries).1 entry).1,
        (applyAll one r changes entries).2.insert (one (applyAll one r changes entries).1 entry).2.1
          (one (applyAll one r changes entries).1 entry).2.2) := by
  induction entries generalizing r changes with
  | nil => rfl
  | cons first rest ih =>
    rw [List.cons_append, applyAll_cons, ih]
    rfl

section turns

variable {one : Reporter → String → Reporter × String × Change} {wanted : Change} {due : Reporter → String → Prop}

/-- Entries make a change that is due with the first one that stands for the head node. -/
structure Makes (one : Reporter → String → Reporter × String × Change) (wanted : Change)
    (due : Reporter → String → Prop) : Prop where
  host : ∀ r entry, (one r entry).1.host = r.host
  key : ∀ r entry, (one r entry).2.1 = shownAs r.host.host entry
  change : ∀ r entry, (one r entry).2.2 = wanted ↔ isValid r.host.host entry ∧ due r (shownAs r.host.host entry)
  due : ∀ r entry headnode, due (one r entry).1 headnode ↔ due r headnode ∧ ¬ Names r.host.host entry headnode

theorem Makes.due_applyAll (h : Makes one wanted due) (r : Reporter) (changes : SortedMap String Change)
    (entries : List String) (headnode : String) :
    due (applyAll one r changes entries).1 headnode ↔ due r headnode ∧ headnode ∉ meant r.host.host entries := by
  induction entries generalizing r changes with
  | nil => simp [applyAll, meant]
  | cons entry rest ih =>
    rw [applyAll_cons, ih, h.due, h.host, mem_meant, mem_meant, and_assoc]
    simp only [List.mem_cons, exists_eq_or_imp, not_or]

/-- The change is told if it was due and one entry stands for the head node; another one is answered otherwise. -/
theorem Makes.get?_applyAll (h : Makes one wanted due) (hown : Address.IsHost r.host.host)
    {changes : SortedMap String Change} (hstart : changes.get? headnode ≠ some wanted) (entries : List String) :
    (applyAll one r changes entries).2.get? headnode = some wanted ↔
      due r headnode ∧ (meant r.host.host entries).count headnode = 1 := by
  induction entries using List.reverseRecOn with
  | nil => simpa [applyAll, meant] using hstart
  | append_singleton entries entry ih =>
    have hdue := h.due_applyAll r changes entries headnode
    have hkey := h.key (applyAll one r changes entries).1 entry
    have hchange := h.change (applyAll one r changes entries).1 entry
    rw [host_applyAll h.host] at hkey hchange
    rw [applyAll_concat, hkey]
    by_cases hshown : headnode = shownAs r.host.host entry
    · rw [← hshown] at hchange ⊢
      rw [SortedMap.get?_insert_self, Option.some.injEq, hchange, hdue]
      cases hvalid : isValid r.host.host entry with
      | false =>
        rw [meant_concat_of_not_isValid hvalid]
        rw [shownAs_of_not_isValid hvalid] at hshown
        have hnot : headnode ∉ meant r.host.host entries := fun hmem => ne_of_mem_meant hown hvalid hmem hshown
        simp [List.count_eq_zero_of_not_mem hnot]
      | true =>
        rw [meant_concat_of_names (names_iff.2 ⟨hvalid, hshown.symm⟩), List.count_append, List.count_singleton_self]
        simp [List.count_eq_zero]
    · rw [SortedMap.get?_insert_of_ne _ _ hshown, ih]
      cases hvalid : isValid r.host.host entry with
      | false => rw [meant_concat_of_not_isValid hvalid]
      | true =>
        have hother : [shownAs r.host.host entry].count headnode = 0 :=
          List.count_eq_zero_of_not_mem (by simpa using hshown)
        rw [meant_concat_of_names (isValid_iff.1 hvalid), List.count_append, hother, Nat.add_zero]

/-- What no entry is answered with is not told. -/
theorem get?_applyAll_ne {change : Change} (hone : ∀ r entry, (one r entry).2.2 ≠ change)
    {changes : SortedMap String Change} (hstart : changes.get? headnode ≠ some change) (r : Reporter)
    (entries : List String) : (applyAll one r changes entries).2.get? headnode ≠ some change := by
  induction entries generalizing r changes with
  | nil => exact hstart
  | cons entry rest ih =>
    refine ih ?_ _
    by_cases heq : headnode = (one r entry).2.1
    · rw [heq, SortedMap.get?_insert_self, ne_eq, Option.some.injEq]
      exact hone r entry
    · rwa [SortedMap.get?_insert_of_ne _ _ heq]

/-- What is answered under other names changes nothing. -/
theorem get?_applyAll_of_not_shown (hhost : ∀ r entry, (one r entry).1.host = r.host)
    (hkey : ∀ r entry, (one r entry).2.1 = shownAs r.host.host entry) (r : Reporter)
    (changes : SortedMap String Change) {entries : List String}
    (hnot : ∀ entry ∈ entries, headnode ≠ shownAs r.host.host entry) :
    (applyAll one r changes entries).2.get? headnode = changes.get? headnode := by
  induction entries generalizing r changes with
  | nil => rfl
  | cons entry rest ih =>
    rw [applyAll_cons, ih, SortedMap.get?_insert_of_ne]
    · rw [hkey]
      exact hnot entry List.mem_cons_self
    · intro other hother
      rw [hhost]
      exact hnot other (List.mem_cons_of_mem _ hother)

end turns

theorem makes_addOne : Makes addOne .added fun r headnode => headnode ∉ r.headnodes where
  host := host_addOne
  key := key_addOne
  change r entry := by
    have hadds := adds r entry
    generalize r.addOne entry = result at hadds ⊢
    cases hadds with
    | invalid fault hvalid => simp [hvalid]
    | there hnames hlink hchange =>
      rw [(names_iff.1 hnames).2, mem_headnodes]
      rcases hchange with rfl | rfl <;> simp [SortedMap.contains, hlink]
    | added hnames hlink =>
      rw [(names_iff.1 hnames).2, mem_headnodes]
      simp [SortedMap.contains, hlink, (names_iff.1 hnames).1]
  due r entry headnode := by rw [mem_headnodes_addOne, not_or]

theorem makes_removeOne : Makes removeOne .removed fun r headnode => headnode ∈ r.headnodes where
  host := host_removeOne
  key := key_removeOne
  change r entry := by
    have hremoves := removes r entry
    generalize r.removeOne entry = result at hremoves ⊢
    cases hremoves with
    | invalid fault hvalid => simp [hvalid]
    | gone hnames hlink =>
      rw [(names_iff.1 hnames).2, mem_headnodes]
      simp [SortedMap.contains, hlink]
    | removed hnames hlink =>
      rw [(names_iff.1 hnames).2, mem_headnodes]
      simp [SortedMap.contains, hlink, (names_iff.1 hnames).1]
  due := mem_headnodes_removeOne

theorem addOne_ne_removed (r : Reporter) (entry : String) : (r.addOne entry).2.2 ≠ .removed := by
  have hadds := adds r entry
  generalize r.addOne entry = result at hadds ⊢
  cases hadds with
  | invalid | added => simp
  | there _ _ hchange => rcases hchange with rfl | rfl <;> simp

theorem removeOne_ne_added (r : Reporter) (entry : String) : (r.removeOne entry).2.2 ≠ .added := by
  have hremoves := removes r entry
  generalize r.removeOne entry = result at hremoves ⊢
  cases hremoves <;> simp

/-! ### What is told in the end -/

theorem Change.message_invalid_ne (fault : Fault) {text : String} (h : text.toList.head? ≠ some 'I') :
    (Change.invalid fault).message ≠ text := by
  rintro rfl
  have hhead : "Invalid headnode: ".toList.head? = some 'I' := by decide +kernel
  apply h
  show ("Invalid headnode: " ++ fault.message).toList.head? = some 'I'
  rw [String.toList_append, List.head?_append, hhead, Option.some_or]

theorem Change.message_eq_added {change : Change} : change.message = "Added" ↔ change = .added := by
  cases change with
  | added => exact iff_of_true rfl rfl
  | invalid fault => exact iff_of_false (Change.message_invalid_ne fault (by decide +kernel)) (by simp)
  | _ => exact iff_of_false (by decide +kernel) (by simp)

theorem Change.message_eq_removed {change : Change} : change.message = "Removed" ↔ change = .removed := by
  cases change with
  | removed => exact iff_of_true rfl rfl
  | invalid fault => exact iff_of_false (Change.message_invalid_ne fault (by decide +kernel)) (by simp)
  | _ => exact iff_of_false (by decide +kernel) (by simp)

/-- The message under the name of a head node in the result of a request. -/
def told (r : Reporter) (mode : Mode) (entries : List String) (headnode : String) : Option String :=
  ((r.set mode entries).2.get? headnode).map Change.message

theorem told_eq_added {mode : Mode} {entries : List String} :
    r.told mode entries headnode = some "Added" ↔ (r.set mode entries).2.get? headnode = some .added := by
  simp only [told, Option.map_eq_some_iff, Change.message_eq_added, exists_eq_right]

theorem told_eq_removed {mode : Mode} {entries : List String} :
    r.told mode entries headnode = some "Removed" ↔ (r.set mode entries).2.get? headnode = some .removed := by
  simp only [told, Option.map_eq_some_iff, Change.message_eq_removed, exists_eq_right]

/-! ### Requests and the entries that stand for one head node -/

theorem count_meant {localName : String} {entries : List String} :
    (meant localName entries).count headnode = 1 ↔
      (∃ entry ∈ entries, Names localName entry headnode) ∧ (meant localName entries).count headnode ≤ 1 := by
  rw [← mem_meant, ← List.count_pos_iff]
  omega

/-- The head nodes that go in an exchange are told as removed, and no others. -/
theorem Keyed.get?_replace_removed (hown : Address.IsHost own.host) (h : Keyed own r) (entries : List String) :
    (r.set .replace entries).2.get? headnode = some .removed ↔ headnode ∈ r.stale entries := by
  have hhost : (r.added entries).1.host = own := (host_added r entries).trans h.host
  have hnames : ∀ other ∈ r.stale entries, Names own.host other other := fun other hother =>
    (h.names_stale hown hother).2 rfl
  have hmeant : meant own.host (r.stale entries) = r.stale entries := by
    have hvalid : (r.stale entries).filter (isValid own.host) = r.stale entries :=
      List.filter_eq_self.2 fun other hother => (names_iff.1 (hnames other hother)).1
    rw [meant, hvalid]
    refine (List.map_congr_left fun other hother => ?_).trans (List.map_id _)
    exact (names_iff.1 (hnames other hother)).2
  have hnodup : (r.stale entries).Nodup := (SortedMap.keys_nodup _).filter _
  have hstart : (r.added entries).2.get? headnode ≠ some .removed :=
    get?_applyAll_ne addOne_ne_removed (by simp) r entries
  rw [set_replace, makes_removeOne.get?_applyAll (by rwa [hhost]) hstart, hhost, hmeant, List.Nodup.count hnodup]
  constructor
  · rintro ⟨-, hcount⟩
    by_contra hnot
    simp [hnot] at hcount
  · exact fun hmem => ⟨(List.mem_filter.1 hmem).1, by simp [hmem]⟩

/-- In an exchange a head node is told as added if the addition told it. -/
theorem Keyed.get?_replace_added (hown : Address.IsHost own.host) (h : Keyed own r) (entries : List String) :
    (r.set .replace entries).2.get? headnode = some .added ↔
      headnode ∉ r.headnodes ∧ (meant own.host entries).count headnode = 1 := by
  have hhost : (r.added entries).1.host = own := (host_added r entries).trans h.host
  have hadded : (r.added entries).2.get? headnode = some .added ↔
      headnode ∉ r.headnodes ∧ (meant own.host entries).count headnode = 1 := by
    have hnone : (∅ : SortedMap String Change).get? headnode ≠ some .added := by simp
    have hget := makes_addOne.get?_applyAll (by rwa [h.host]) hnone entries
    rwa [h.host] at hget
  rw [set_replace]
  by_cases hstale : headnode ∈ r.stale entries
  · -- A head node that goes is not among the answers to the entries.
    have hnone : (r.added entries).2.get? headnode ≠ some .added := fun hget => by
      have hcontains := (List.mem_filter.1 hstale).2
      simp [SortedMap.contains, hget] at hcontains
    exact iff_of_false (get?_applyAll_ne removeOne_ne_added hnone _ _) (fun hboth => hnone (hadded.2 hboth))
  · rw [← hadded, get?_applyAll_of_not_shown host_removeOne key_removeOne]
    rintro other hother rfl
    rw [hhost, (names_iff.1 ((h.names_stale hown hother).2 rfl)).2] at hstale
    exact hstale hother

/-- A head node is told as added if it was and one entry stands for it. -/
theorem Keyed.told_added (hown : Address.IsHost own.host) (h : Keyed own r) (mode : Mode) (entries : List String) :
    r.told mode entries headnode = some "Added" ↔
      (headnode ∉ r.headnodes ∧ headnode ∈ (r.set mode entries).1.headnodes) ∧
        (meant own.host entries).count headnode ≤ 1 := by
  have hhost : Address.IsHost r.host.host ∧ Keyed r.host r := by
    rw [h.host]
    exact ⟨hown, h⟩
  rw [told_eq_added, mem_headnodes_set r mode entries headnode fun _ => hhost, h.host]
  cases mode with
  | add =>
    have hnone : (∅ : SortedMap String Change).get? headnode ≠ some .added := by simp
    have hget := makes_addOne.get?_applyAll hhost.1 hnone entries
    rw [h.host, count_meant] at hget
    refine hget.trans ?_
    simp only [Asked]
    tauto
  | remove =>
    refine iff_of_false (get?_applyAll_ne removeOne_ne_added (by simp) r entries) ?_
    simp only [Asked]
    tauto
  | replace =>
    rw [h.get?_replace_added hown, count_meant, Asked]
    tauto

/-- A head node is told as removed if it was and no more than one entry stands for it. -/
theorem Keyed.told_removed (hown : Address.IsHost own.host) (h : Keyed own r) (mode : Mode) (entries : List String) :
    r.told mode entries headnode = some "Removed" ↔
      (headnode ∈ r.headnodes ∧ headnode ∉ (r.set mode entries).1.headnodes) ∧
        (meant own.host entries).count headnode ≤ 1 := by
  have hhost : Address.IsHost r.host.host ∧ Keyed r.host r := by
    rw [h.host]
    exact ⟨hown, h⟩
  rw [told_eq_removed, mem_headnodes_set r mode entries headnode fun _ => hhost, h.host]
  cases mode with
  | add =>
    refine iff_of_false (get?_applyAll_ne addOne_ne_removed (by simp) r entries) ?_
    simp only [Asked]
    tauto
  | remove =>
    have hnone : (∅ : SortedMap String Change).get? headnode ≠ some .removed := by simp
    have hget := makes_removeOne.get?_applyAll hhost.1 hnone entries
    rw [h.host, count_meant] at hget
    refine hget.trans ?_
    simp only [Asked]
    generalize (∃ entry ∈ entries, Names own.host entry headnode) = asked
    tauto
  | replace =>
    have hadded : headnode ∈ (r.added entries).1.headnodes ↔
        headnode ∈ r.headnodes ∨ ∃ entry ∈ entries, Names own.host entry headnode := by
      rw [added, mem_headnodes_addAll, h.host]
    have hnamed := h.mem_added hown entries headnode
    have hzero : (¬ ∃ entry ∈ entries, Names own.host entry headnode) →
        (meant own.host entries).count headnode ≤ 1 := by
      rw [← mem_meant]
      exact fun hnot => (List.count_eq_zero_of_not_mem hnot).trans_le (Nat.zero_le 1)
    rw [h.get?_replace_removed hown, stale, List.mem_filter, Bool.not_eq_true', ← Bool.not_eq_true, Asked]
    generalize (∃ entry ∈ entries, Names own.host entry headnode) = asked at *
    tauto

/-- What a request tells about a head node. An answer to a later entry takes the place of an earlier one, so what is
told is the change of the list if the head node is not answered again after it was added or taken away; and in a run of
a node whose host is a host that is if no more than one entry stands for it. -/
theorem told_of_requests (mode : Mode) (entries : List String) (headnode : String) :
    (∀ r : Reporter, ¬ AnsweredAgain (r.given entries mode) headnode →
      (r.told mode entries headnode = some "Added" ↔
        headnode ∉ r.headnodes ∧ headnode ∈ (r.set mode entries).1.headnodes) ∧
      (r.told mode entries headnode = some "Removed" ↔
        headnode ∈ r.headnodes ∧ headnode ∉ (r.set mode entries).1.headnodes)) ∧
      ∀ (nodeName : String) (own : Address) (events : List Event), Address.IsHost own.host →
        let r := (new nodeName own).run events
        (r.told mode entries headnode = some "Added" ↔
          (headnode ∉ r.headnodes ∧ headnode ∈ (r.set mode entries).1.headnodes) ∧
            (meant own.host entries).count headnode ≤ 1) ∧
        (r.told mode entries headnode = some "Removed" ↔
          (headnode ∈ r.headnodes ∧ headnode ∉ (r.set mode entries).1.headnodes) ∧
            (meant own.host entries).count headnode ≤ 1) := by
  refine ⟨fun r honce => ?_, fun nodeName own events hown => ?_⟩
  · rw [told_eq_added, told_eq_removed, set_snd]
    exact (told_given r mode entries).get?_eq_iff honce
  · intro r
    have hkeyed : Keyed own r := keyed_run nodeName hown events
    exact ⟨hkeyed.told_added hown mode entries, hkeyed.told_removed hown mode entries⟩

/-- One entry is new, one is no address, and two stand for the host of the node. -/
theorem told_of_spellings :
    let r := (new "n1" ⟨"N1", 50505⟩).run [.set .add ["b"]]
    let entries := ["a", "-:", "localhost", "N1"]
    ¬ AnsweredAgain (r.given entries .add) "A:50505" ∧
      (r.told .add entries "A:50505" = some "Added" ↔
        "A:50505" ∉ r.headnodes ∧ "A:50505" ∈ (r.set .add entries).1.headnodes) ∧
      (r.told .replace entries "N1:50505" = some "Added" ↔
        ("N1:50505" ∉ r.headnodes ∧ "N1:50505" ∈ (r.set .replace entries).1.headnodes) ∧
          (meant "N1" entries).count "N1:50505" ≤ 1) ∧
      (r.told .replace entries "B:50505" = some "Removed" ↔
        ("B:50505" ∈ r.headnodes ∧ "B:50505" ∉ (r.set .replace entries).1.headnodes) ∧
          (meant "N1" entries).count "B:50505" ≤ 1) := by
  intro r entries
  have hhost : Address.IsHost "N1" := ⟨by decide, by decide, by decide, by decide⟩
  have honce : ¬ AnsweredAgain (r.given entries .add) "A:50505" := fun hagain =>
    absurd hagain.two_le_count (by decide +kernel)
  have hadd := (told_of_requests .add entries "A:50505").1 r honce
  have hown := (told_of_requests .replace entries "N1:50505").2 "n1" ⟨"N1", 50505⟩ [.set .add ["b"]] hhost
  have hstale := (told_of_requests .replace entries "B:50505").2 "n1" ⟨"N1", 50505⟩ [.set .add ["b"]] hhost
  exact ⟨honce, hadd.1, hown.1, hstale.2⟩

/-- A head node that is added under two spellings is told to be connecting, and one that is taken away under two is told
to have been removed already. -/
theorem told_of_repeated_spellings :
    let r := new "n1" ⟨"N1", 50505⟩
    let r' := (r.set .add ["a"]).1
    (r.told .add ["a", "A"] "A:50505" = some "Connecting" ∧ "A:50505" ∉ r.headnodes ∧
      "A:50505" ∈ (r.set .add ["a", "A"]).1.headnodes) ∧
      r'.told .remove ["a", "A"] "A:50505" = some "Already removed" ∧ "A:50505" ∈ r'.headnodes ∧
        "A:50505" ∉ (r'.set .remove ["a", "A"]).1.headnodes := by
  decide +kernel

end Reporter

end Muster
