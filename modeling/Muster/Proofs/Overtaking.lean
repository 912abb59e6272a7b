import Mathlib.Data.Nat.Find
import Muster.Clusnode
import Muster.Proofs.HostEntries

/-!
# The head nodes that are saved

A request to change something at a node takes down the head nodes after its change and writes them later.
What the file keeps in the end is what the last writer took down. That is an older list exactly where
another request has overtaken it: it took down a newer list and wrote that before.
-/

namespace Muster.Clusnode.Desk

/-- The head nodes that the file keeps for the node. -/
def saved (d : Desk) : List String := (ConfigFile.load d.file d.host {}).2

/-! ### What one event does -/

/-- A request comes as due, takes down the head nodes, and writes; nothing else becomes of it. -/
theorem saves_step (d : Desk) (e : Event) (r : Nat) :
    (d.step e).saves[r]? = d.saves[r]? ∨
      d.saves[r]? = none ∧ (d.step e).saves[r]? = some .due ∨
      e = .take r ∧ d.saves[r]? = some .due ∧
        (d.step e).saves[r]? = some (.taken d.reporter.headnodes) ∨
      ∃ headnodes, e = .write r ∧ d.saves[r]? = some (.taken headnodes) ∧
        (d.step e).saves[r]? = some .done := by
  have hnew : (d.saves ++ [Save.due])[r]? = d.saves[r]? ∨
      d.saves[r]? = none ∧ (d.saves ++ [Save.due])[r]? = some .due := by
    rcases Nat.lt_trichotomy r d.saves.length with h | h | h
    · exact .inl (List.getElem?_append_left h)
    · exact .inr (by simp [h])
    · left
      rw [List.getElem?_eq_none (by simp; omega), List.getElem?_eq_none (by omega)]
  cases e with
  | setHeadnodes mode headnodes => exact hnew.imp_right .inl
  | setConfigs configs => exact hnew.imp_right .inl
  | take request =>
    simp only [step]
    split
    · rename_i hdue
      by_cases hr : request = r
      · subst hr
        have hlt := (List.getElem?_eq_some_iff.1 hdue).1
        exact .inr (.inr (.inl ⟨rfl, hdue, by simp [hlt]⟩))
      · exact .inl (List.getElem?_set_ne hr)
    · exact .inl rfl
  | write request =>
    simp only [step]
    split
    · rename_i headnodes htaken
      by_cases hr : request = r
      · subst hr
        have hlt := (List.getElem?_eq_some_iff.1 htaken).1
        exact .inr (.inr (.inr ⟨headnodes, rfl, htaken, by simp [hlt]⟩))
      · exact .inl (List.getElem?_set_ne hr)
    · exact .inl rfl

/-- The head nodes in the file change only to those that a request writes. -/
theorem saved_step (d : Desk) (e : Event) :
    (d.step e).saved = d.saved ∨ ∃ r, e = .write r ∧ d.saves[r]? = some (.taken (d.step e).saved) := by
  cases e with
  | setHeadnodes mode headnodes => exact .inl rfl
  | setConfigs configs => exact .inl rfl
  | take request =>
    left
    simp only [step]
    split <;> rfl
  | write request =>
    simp only [step]
    split
    · rename_i headnodes htaken
      refine .inr ⟨request, rfl, ?_⟩
      rw [htaken, saved, ConfigFile.headnodes_load_save]
    · exact .inl rfl

/-- A request that writes puts the head nodes it took down into the file. -/
theorem saved_write {d : Desk} {r : Nat} {headnodes : List String}
    (h : d.saves[r]? = some (.taken headnodes)) : (d.step (.write r)).saved = headnodes := by
  rw [step, h]
  exact ConfigFile.headnodes_load_save _ _ _ _ _

/-- The list changes only with a request that comes. -/
theorem reporter_step (d : Desk) (e : Event) :
    (d.step e).reporter = d.reporter ∨ ∃ r : Nat, d.saves[r]? = none ∧ (d.step e).saves[r]? = some .due := by
  cases e with
  | setHeadnodes mode headnodes => exact .inr ⟨d.saves.length, by simp, by simp [step, setHeadnodes]⟩
  | setConfigs configs => exact .inl rfl
  | take request =>
    left
    simp only [step]
    split <;> rfl
  | write request =>
    left
    simp only [step]
    split <;> rfl

/-! ### The course of a run -/

variable {d : Desk} {events : List Event} {r : Nat}

/-- The desk after so many of the events. -/
def after (d : Desk) (events : List Event) (n : Nat) : Desk := d.run (events.take n)

@[simp] theorem after_zero : d.after events 0 = d := rfl

@[simp] theorem after_length : d.after events events.length = d.run events := by
  rw [after, List.take_length]

theorem after_succ_of_getElem? {n : Nat} {e : Event} (h : events[n]? = some e) :
    d.after events (n + 1) = (d.after events n).step e := by
  rw [after, List.take_add_one, h, run_append]
  rfl

theorem after_succ (d : Desk) (events : List Event) (n : Nat) :
    d.after events (n + 1) = d.after events n ∨
      ∃ e, events[n]? = some e ∧ d.after events (n + 1) = (d.after events n).step e := by
  cases h : events[n]? with
  | none => exact .inl (by simp [after, List.take_add_one, h])
  | some e => exact .inr ⟨e, rfl, after_succ_of_getElem? h⟩

/-- The `i`th event lets a request take down the head nodes. -/
def TakesAt (d : Desk) (events : List Event) (r i : Nat) : Prop :=
  events[i]? = some (.take r) ∧ (d.after events i).saves[r]? = some .due

/-- The `i`th event lets a request write the head nodes it took down. -/
def WritesAt (d : Desk) (events : List Event) (r i : Nat) : Prop :=
  events[i]? = some (.write r) ∧ ∃ headnodes, (d.after events i).saves[r]? = some (.taken headnodes)

/-- How far a request has come. -/
def stage : Option Save → Nat
  | none => 0
  | some .due => 1
  | some (.taken _) => 2
  | some .done => 3

theorem stage_step (d : Desk) (e : Event) (r : Nat) :
    stage d.saves[r]? ≤ stage (d.step e).saves[r]? := by
  rcases d.saves_step e r with h | ⟨h, h'⟩ | ⟨-, h, h'⟩ | ⟨_, -, h, h'⟩
  · rw [h]
  · simp [h, stage]
  · simp [h, h', stage]
  · simp [h, h', stage]

theorem stage_mono (d : Desk) (events : List Event) (r : Nat) {i k : Nat} (h : i ≤ k) :
    stage (d.after events i).saves[r]? ≤ stage (d.after events k).saves[r]? := by
  induction k, h using Nat.le_induction with
  | base => exact Nat.le_refl _
  | succ k _ ih =>
    rcases d.after_succ events k with hk | ⟨e, -, hk⟩
    · rwa [hk]
    · rw [hk]
      exact Nat.le_trans ih (stage_step _ e r)

/-- What a request has taken down is the list as it was when it did. -/
theorem takesAt_of_taken (hopen : d.saves = []) {headnodes : List String} {k : Nat}
    (h : (d.after events k).saves[r]? = some (.taken headnodes)) :
    ∃ i < k, d.TakesAt events r i ∧ (d.after events i).reporter.headnodes = headnodes := by
  induction k with
  | zero => simp [hopen] at h
  | succ k ih =>
    have hearlier : (d.after events k).saves[r]? = some (.taken headnodes) →
        ∃ i < k + 1, d.TakesAt events r i ∧ (d.after events i).reporter.headnodes = headnodes := by
      intro hk
      obtain ⟨i, hi, htakes⟩ := ih hk
      exact ⟨i, by omega, htakes⟩
    rcases d.after_succ events k with hk | ⟨e, he, hk⟩
    · exact hearlier (hk ▸ h)
    · rw [hk] at h
      rcases (d.after events k).saves_step e r with hsame | ⟨-, hdue⟩ | ⟨rfl, hdue, htaken⟩ | ⟨_, -, -, hdone⟩
      · exact hearlier (hsame ▸ h)
      · simp [h] at hdue
      · rw [h, Option.some.injEq, Save.taken.injEq] at htaken
        exact ⟨k, by omega, ⟨he, hdue⟩, htaken.symm⟩
      · simp [h] at hdone

/-- A request that is done has written. -/
theorem writesAt_of_done (hopen : d.saves = []) {k : Nat} (h : (d.after events k).saves[r]? = some .done) :
    ∃ i < k, d.WritesAt events r i := by
  induction k with
  | zero => simp [hopen] at h
  | succ k ih =>
    have hearlier : (d.after events k).saves[r]? = some .done → ∃ i < k + 1, d.WritesAt events r i := by
      intro hk
      obtain ⟨i, hi, hwrites⟩ := ih hk
      exact ⟨i, by omega, hwrites⟩
    rcases d.after_succ events k with hk | ⟨e, he, hk⟩
    · exact hearlier (hk ▸ h)
    · rw [hk] at h
      rcases (d.after events k).saves_step e r with hsame | ⟨-, hdue⟩ | ⟨-, -, htaken⟩ | ⟨l, rfl, htaken, -⟩
      · exact hearlier (hsame ▸ h)
      · simp [h] at hdue
      · simp [h] at htaken
      · exact ⟨k, by omega, he, l, htaken⟩

/-- The file keeps what it has until somebody writes. -/
theorem saved_of_not_writesAt {i k : Nat} (hik : i ≤ k)
    (h : ∀ r m, i ≤ m → m < k → ¬ d.WritesAt events r m) :
    (d.after events k).saved = (d.after events i).saved := by
  induction k, hik using Nat.le_induction with
  | base => rfl
  | succ k hik ih =>
    have hk := ih fun r m him hmk => h r m him (by omega)
    rcases d.after_succ events k with hsame | ⟨e, he, hstep⟩
    · rw [hsame, hk]
    · rcases (d.after events k).saved_step e with hsaved | ⟨r, rfl, htaken⟩
      · rw [hstep, hsaved, hk]
      · exact absurd ⟨he, _, htaken⟩ (h r k hik (by omega))

/-- If the list changes, a request comes meanwhile. -/
theorem exists_of_reporter_ne {i k : Nat} (hik : i ≤ k)
    (h : (d.after events k).reporter ≠ (d.after events i).reporter) :
    ∃ r n : Nat, i ≤ n ∧ n < k ∧ (d.after events n).saves[r]? = none ∧
      (d.after events (n + 1)).saves[r]? = some .due := by
  induction k, hik using Nat.le_induction with
  | base => exact absurd rfl h
  | succ k hik ih =>
    by_cases hk : (d.after events k).reporter = (d.after events i).reporter
    · rcases d.after_succ events k with hsame | ⟨e, -, hstep⟩
      · rw [hsame, hk] at h
        exact absurd rfl h
      · rcases (d.after events k).reporter_step e with hreporter | ⟨r, hnone, hdue⟩
        · rw [hstep, hreporter, hk] at h
          exact absurd rfl h
        · exact ⟨r, k, hik, by omega, hnone, hstep ▸ hdue⟩
    · obtain ⟨r, n, hin, hnk, hcomes⟩ := ih hk
      exact ⟨r, n, hin, by omega, hcomes⟩

/-- If anybody wrote, somebody was the last to. -/
theorem exists_last_writesAt {i : Nat} (h : d.WritesAt events r i) :
    ∃ r j, d.WritesAt events r j ∧ ∀ other k, d.WritesAt events other k → k ≤ j := by
  classical
  have hbound {other k : Nat} (hk : d.WritesAt events other k) : k ≤ events.length :=
    Nat.le_of_lt (List.getElem?_eq_some_iff.1 hk.1).1
  obtain ⟨r, hr⟩ := Nat.findGreatest_spec (P := fun k => ∃ r, d.WritesAt events r k) (hbound h) ⟨r, h⟩
  exact ⟨r, _, hr, fun other k hk => Nat.le_findGreatest (hbound hk) ⟨other, hk⟩⟩

/-- When every request is done, the file keeps what the last writer took down. If that is not the list that
the node reports to, another request has overtaken it: it took down the list later and wrote it before. -/
theorem saved_of_last_writer (hopen : d.saves = []) (hsome : (d.run events).saves ≠ [])
    (hdone : ∀ s ∈ (d.run events).saves, s = .done) :
    ∃ r i j, d.TakesAt events r i ∧ d.WritesAt events r j ∧ i < j ∧
      (∀ other k, d.WritesAt events other k → k ≤ j) ∧
      (d.run events).saved = (d.after events i).reporter.headnodes ∧
      ((d.run events).saved ≠ (d.run events).reporter.headnodes →
        ∃ other i' j', d.TakesAt events other i' ∧ d.WritesAt events other j' ∧ i < i' ∧ j' < j) := by
  -- Whoever has come in the end is done, so it has written.
  have hwrites (r : Nat) (hr : 0 < stage (d.run events).saves[r]?) : ∃ k, d.WritesAt events r k := by
    cases hs : (d.run events).saves[r]? with
    | none => simp [hs, stage] at hr
    | some s =>
      rw [hdone s (List.mem_of_getElem? hs), ← after_length] at hs
      obtain ⟨k, -, hk⟩ := writesAt_of_done hopen hs
      exact ⟨k, hk⟩
  obtain ⟨s, rest, hs⟩ := List.exists_cons_of_ne_nil hsome
  obtain ⟨k, hk⟩ := hwrites 0 (by cases s <;> simp [hs, stage])
  obtain ⟨r, j, hlast, hmax⟩ := exists_last_writesAt hk
  obtain ⟨hevent, headnodes, htaken⟩ := hlast
  obtain ⟨i, hij, htakes, hheadnodes⟩ := takesAt_of_taken hopen htaken
  have hj : j + 1 ≤ events.length := (List.getElem?_eq_some_iff.1 hevent).1
  have hsaved : (d.run events).saved = (d.after events i).reporter.headnodes := by
    have hrest : ∀ other m, j + 1 ≤ m → m < events.length → ¬ d.WritesAt events other m := by
      intro other m hjm _ hm
      have := hmax other m hm
      omega
    rw [← after_length, saved_of_not_writesAt hj hrest, after_succ_of_getElem? hevent, saved_write htaken,
      hheadnodes]
  refine ⟨r, i, j, htakes, ⟨hevent, headnodes, htaken⟩, hij, hmax, hsaved, fun hne => ?_⟩
  have hreporter : (d.after events events.length).reporter ≠ (d.after events i).reporter := by
    intro h
    rw [hsaved, ← after_length, h] at hne
    exact hne rfl
  obtain ⟨other, n, hin, hn, hnone, hdue⟩ := exists_of_reporter_ne (by omega) hreporter
  have hstage : stage (d.after events n).saves[other]? = 0 := by rw [hnone, stage]
  obtain ⟨j', hj'⟩ := hwrites other (by
    have hmono := d.stage_mono events other (i := n + 1) (k := events.length) hn
    rw [hdue, after_length] at hmono
    exact hmono)
  obtain ⟨hevent', headnodes', htaken'⟩ := hj'
  obtain ⟨i', hij', htakes', -⟩ := takesAt_of_taken hopen htaken'
  have hlater : n < i' := by
    by_contra hle
    have hmono := d.stage_mono events other (i := i') (k := n) (by omega)
    rw [hstage, htakes'.2] at hmono
    simp [stage] at hmono
  have hother : other ≠ r := by
    rintro rfl
    have hmono := d.stage_mono events other hin
    rw [hstage, htakes.2] at hmono
    simp [stage] at hmono
  have hle : j' ≤ j := hmax other j' ⟨hevent', headnodes', htaken'⟩
  have hne' : j' ≠ j := by
    rintro rfl
    rw [hevent', Option.some.injEq, Event.write.injEq] at hevent
    exact hother hevent
  exact ⟨other, i', j', htakes', ⟨hevent', headnodes', htaken'⟩, by omega, by omega⟩

/-! ### Two requests that cross -/

/-- A node that reports to nobody and has no file. -/
def quiet : Desk := (Clusnode.new "N1" ⟨"N1", 50505⟩).desk {} .absent

/-- The second request takes down its list after the first and writes it before. -/
def crossing : List Event :=
  [.setHeadnodes .add ["A:50505"], .take 0, .setHeadnodes .add ["B:50505"], .take 1, .write 1, .write 0]

theorem crossing_done : ∀ s ∈ (quiet.run crossing).saves, s = .done := by decide +kernel

/-- The head node that was added last is reported to, and it is not in the file. -/
theorem crossing_loses_headnode :
    quiet.saves = [] ∧ (∀ s ∈ (quiet.run crossing).saves, s = .done) ∧
      (quiet.run crossing).saved = ["A:50505"] ∧
      (quiet.run crossing).reporter.headnodes = ["A:50505", "B:50505"] := by
  decide +kernel

/-- The first request is the last writer, and the second one has overtaken it. -/
theorem crossing_overtaken :
    quiet.saves = [] ∧ (quiet.run crossing).saves ≠ [] ∧ (∀ s ∈ (quiet.run crossing).saves, s = .done) ∧
      ∃ r i j, quiet.TakesAt crossing r i ∧ quiet.WritesAt crossing r j ∧
        (quiet.run crossing).saved = (quiet.after crossing i).reporter.headnodes ∧
        ∃ other i' j', quiet.TakesAt crossing other i' ∧ quiet.WritesAt crossing other j' ∧
          i < i' ∧ j' < j := by
  have hsome : (quiet.run crossing).saves ≠ [] := by decide +kernel
  have hne : (quiet.run crossing).saved ≠ (quiet.run crossing).reporter.headnodes := by decide +kernel
  have hopen : quiet.saves = [] := rfl
  obtain ⟨r, i, j, htakes, hwrites, -, -, hsaved, hovertaken⟩ :=
    saved_of_last_writer hopen hsome crossing_done
  exact ⟨rfl, hsome, crossing_done, r, i, j, htakes, hwrites, hsaved, hovertaken hne⟩

end Muster.Clusnode.Desk
