import Mathlib.Data.List.Nodup
import Muster.Proofs.Asked
import Muster.Proofs.Filtering

/-!
# The links of a node

A node has a task for each head node that it was told to report to. One task of a head node goes on as long as it is
listed; all others are cancelled, though they may still have an attempt to end. A head node counts as connected by the
attempts of its present task alone.
-/

namespace Muster

namespace Reporter

variable {r : Reporter} {own : Address} {headnode : String}

/-! ### The tasks of the links -/

/-- The tasks that are not cancelled are those of the links. -/
structure Linked (r : Reporter) : Prop where
  serves : r.stopped = false
  listed : ∀ headnode i, r.links.get? headnode = some i ↔
    ∃ t, r.tasks[i]? = some t ∧ t.headnode = headnode ∧ t.cancelled = false

theorem linked_new (nodeName : String) (own : Address) : (new nodeName own).Linked :=
  ⟨rfl, fun headnode i => by simp [new]⟩

theorem Linked.addOne (h : r.Linked) (entry : String) : (r.addOne entry).1.Linked := by
  have hadds := adds r entry
  generalize r.addOne entry = result at hadds ⊢
  cases hadds with
  | invalid | there => exact h
  | @added headnode hnames hlink =>
    refine ⟨h.serves, fun other i => ?_⟩
    simp only [getElem?_concat_eq_some]
    by_cases hsame : other = headnode
    · -- No task of the head node went on before, as it was not listed.
      subst hsame
      rw [SortedMap.get?_insert_self, Option.some.injEq]
      constructor
      · rintro rfl
        exact ⟨_, .inr ⟨rfl, rfl⟩, rfl, h.serves⟩
      · rintro ⟨t, ht | ⟨hi, -⟩, hname, hgoes⟩
        · rw [(h.listed other i).2 ⟨t, ht, hname, hgoes⟩] at hlink
          cases hlink
        · exact hi.symm
    · rw [SortedMap.get?_insert_of_ne _ _ hsame, h.listed other i]
      constructor
      · rintro ⟨t, ht, hname, hgoes⟩
        exact ⟨t, .inl ht, hname, hgoes⟩
      · rintro ⟨t, ht | ⟨-, rfl⟩, hname, hgoes⟩
        · exact ⟨t, ht, hname, hgoes⟩
        · exact absurd hname.symm hsame

theorem Linked.removeOne (h : r.Linked) (entry : String) : (r.removeOne entry).1.Linked := by
  have hremoves := removes r entry
  generalize r.removeOne entry = result at hremoves ⊢
  cases hremoves with
  | invalid | gone => exact h
  | @removed headnode task hnames hlink =>
    refine ⟨h.serves, fun other i => ?_⟩
    obtain ⟨gone, hgone, hname, -⟩ := (h.listed headnode task).1 hlink
    rw [SortedMap.get?_erase_eq_some_iff, h.listed other i]
    simp only [List.getElem?_modify]
    by_cases hi : task = i
    · subst hi
      rw [hgone]
      constructor
      · rintro ⟨hne, t, ht, hother, -⟩
        rw [Option.some.injEq] at ht
        exact absurd (hother.symm.trans (ht ▸ hname)) hne
      · rintro ⟨t, ht, -, hgoes⟩
        simp only [Option.map_eq_map, Option.map_some, if_true, Option.some.injEq] at ht
        rw [← ht] at hgoes
        cases hgoes
    · simp only [hi, if_false, Option.map_eq_map, Option.map_id']
      refine and_iff_right_of_imp ?_
      rintro ⟨t, ht, hother, hgoes⟩ rfl
      rw [(h.listed other i).2 ⟨t, ht, hother, hgoes⟩, Option.some.injEq] at hlink
      exact hi hlink.symm

/-- What every entry of a request keeps, the request keeps. -/
theorem set_keeps {p : Reporter → Prop} (hadd : ∀ r entry, p r → p (r.addOne entry).1)
    (hremove : ∀ r entry, p r → p (r.removeOne entry).1) (h : p r) (mode : Mode) (entries : List String) :
    p (r.set mode entries).1 := by
  have hall {one : Reporter → String → Reporter × String × Change} (hone : ∀ r entry, p r → p (one r entry).1)
      {r : Reporter} (h : p r) (changes : SortedMap String Change) (entries : List String) :
      p (applyAll one r changes entries).1 := by
    induction entries generalizing r changes with
    | nil => exact h
    | cons entry rest ih => exact ih (hone r entry h) _
  cases mode with
  | add => exact hall hadd h _ _
  | remove => exact hall hremove h _ _
  | replace => exact hall hremove (hall hadd h _ _) _ _

/-- What a task does by itself leaves the links as they are. -/
theorem Linked.changeTask (h : r.Linked) (task : Nat) {f : Task → Task} (hname : ∀ t, (f t).headnode = t.headnode)
    (hcancelled : ∀ t, (f t).cancelled = t.cancelled) : (r.changeTask task f).Linked := by
  refine ⟨h.serves, fun headnode i => ?_⟩
  change r.links.get? headnode = some i ↔ ∃ t, (r.tasks.modify task f)[i]? = some t ∧ _
  rw [h.listed headnode i, List.getElem?_modify]
  cases r.tasks[i]? with
  | none => simp
  | some t =>
    by_cases hi : task = i
    · simp [hi, hname, hcancelled]
    · simp [hi]

theorem endAttempt_headnode (t : Task) (beat : Beat) : (t.endAttempt beat).headnode = t.headnode := by
  unfold Task.endAttempt
  split
  · split <;> rfl
  · rfl
  · rfl

theorem endAttempt_cancelled (t : Task) (beat : Beat) : (t.endAttempt beat).cancelled = t.cancelled := by
  unfold Task.endAttempt
  split
  · split <;> rfl
  · rfl
  · rfl

theorem Linked.step (h : r.Linked) {e : Event} (he : e ≠ .shutdown) : (r.step e).Linked := by
  cases e with
  | set mode entries =>
    exact set_keeps (fun r entry hr => hr.addOne entry) (fun r entry hr => hr.removeOne entry) h mode entries
  | attempt task => exact h.changeTask task (fun t => by split <;> rfl) (fun t => by split <;> rfl)
  | attempted task beat =>
    refine h.changeTask task (fun t => ?_) (fun t => ?_)
    · split
      · exact endAttempt_headnode t beat
      · rfl
    · split
      · exact endAttempt_cancelled t beat
      · rfl
  | stop task => exact h.changeTask task (fun t => by split <;> rfl) (fun t => by split <;> rfl)
  | shutdown => exact absurd rfl he

theorem run_concat (r : Reporter) (events : List Event) (e : Event) :
    r.run (events ++ [e]) = (r.run events).step e := by
  rw [run_append]
  rfl

/-- As long as the node serves, its links and its tasks go together. -/
theorem linked_run (nodeName : String) (own : Address) {events : List Event} (h : .shutdown ∉ events) :
    ((new nodeName own).run events).Linked := by
  induction events using List.reverseRecOn with
  | nil => exact linked_new nodeName own
  | append_singleton events e ih =>
    rw [List.mem_append, not_or, List.mem_singleton] at h
    rw [run_concat]
    exact (ih h.1).step (Ne.symm h.2)

theorem Keyed.step (hown : Address.IsHost own.host) (h : Keyed own r) (e : Event) : Keyed own (r.step e) := by
  cases e with
  | set mode entries => exact h.set hown mode entries
  | attempt task | attempted task | stop task => exact h.changeTask task _
  | shutdown => exact ⟨h.host, h.named⟩

theorem keyed_run (nodeName : String) (hown : Address.IsHost own.host) (events : List Event) :
    Keyed own ((new nodeName own).run events) := by
  induction events using List.reverseRecOn with
  | nil => exact keyed_new nodeName own
  | append_singleton events e ih =>
    rw [run_concat]
    exact ih.step hown e

theorem host_run (nodeName : String) (own : Address) (events : List Event) :
    ((new nodeName own).run events).host = own := by
  induction events using List.reverseRecOn with
  | nil => rfl
  | append_singleton events e ih =>
    rw [run_concat]
    cases e with
    | set mode entries =>
      exact set_keeps (p := fun r => r.host = own) (fun r entry hr => (host_addOne r entry).trans hr)
        (fun r entry hr => (host_removeOne r entry).trans hr) ih mode entries
    | _ => exact ih

/-! ### The attempts of a task -/

/-- How an attempt of a task ends with an event, if one does. -/
def endOf? (r : Reporter) (task : Nat) : Event → Option Beat
  | .attempted other beat =>
    match r.tasks[task]? with
    | some t =>
      if other = task ∧ t.phase = .trying ∧ (beat = .unreachable → t.hasChannel = false) then some beat else none
    | none => none
  | _ => none

/-- How the attempts of a task end in the course of events, one after the other. -/
def ends (r : Reporter) (task : Nat) : List Event → List Beat
  | [] => []
  | e :: rest => (r.endOf? task e).toList ++ (r.step e).ends task rest

theorem ends_concat (r : Reporter) (task : Nat) (events : List Event) (e : Event) :
    r.ends task (events ++ [e]) = r.ends task events ++ ((r.run events).endOf? task e).toList := by
  induction events generalizing r with
  | nil => simp [ends, run]
  | cons first rest ih =>
    rw [List.cons_append, ends, ends, ih, List.append_assoc]
    rfl

/-- A task, if there is one of that number, shows how its last attempt ended. -/
def Shows (r : Reporter) (task : Nat) (beats : List Beat) : Prop :=
  match r.tasks[task]? with
  | some t => t.hasChannel = t.connected ∧ (t.connected ↔ beats.getLast? = some .accepted)
  | none => beats = []

variable {task : Nat} {beats : List Beat}

theorem Shows.addOne (h : r.Shows task beats) (entry : String) : (r.addOne entry).1.Shows task beats := by
  have hadds := adds r entry
  generalize r.addOne entry = result at hadds ⊢
  cases hadds with
  | invalid | there => exact h
  | added =>
    unfold Shows at h ⊢
    cases htask : r.tasks[task]? with
    | some t =>
      rw [getElem?_concat_eq_some.2 (.inl htask)]
      rwa [htask] at h
    | none =>
      rw [htask] at h
      split
      · rename_i hnew
        rcases getElem?_concat_eq_some.1 hnew with hold | ⟨-, rfl⟩
        · rw [hold] at htask
          cases htask
        · simp [h]
      · exact h

theorem Shows.changeTask (h : r.Shows task beats) (other : Nat) {f : Task → Task}
    (hchannel : ∀ t, (f t).hasChannel = t.hasChannel) (hconnected : ∀ t, (f t).connected = t.connected) :
    (r.changeTask other f).Shows task beats := by
  unfold Shows at h ⊢
  simp only [Reporter.changeTask, List.getElem?_modify]
  cases htask : r.tasks[task]? with
  | none => rwa [htask] at h
  | some t =>
    rw [htask] at h
    by_cases hsame : other = task
    · simpa [hsame, hchannel, hconnected] using h
    · simpa [hsame] using h

theorem Shows.removeOne (h : r.Shows task beats) (entry : String) : (r.removeOne entry).1.Shows task beats := by
  have hremoves := removes r entry
  generalize r.removeOne entry = result at hremoves ⊢
  cases hremoves with
  | invalid | gone => exact h
  | @removed _ other =>
    exact h.changeTask other (f := fun t => { t with cancelled := true }) (fun t => rfl) (fun t => rfl)

/-- The end of an attempt is shown by its own task and by no other. -/
theorem Shows.attempted (h : r.Shows task beats) (other : Nat) (beat : Beat) :
    (r.step (.attempted other beat)).Shows task (beats ++ (r.endOf? task (.attempted other beat)).toList) := by
  unfold Shows endOf? at *
  simp only [Reporter.step, Reporter.changeTask, List.getElem?_modify]
  cases htask : r.tasks[task]? with
  | none => simpa [htask] using h
  | some t =>
    rw [htask] at h
    obtain ⟨hchannel, hconnected⟩ := h
    by_cases hends : other = task ∧ t.phase = .trying
    · obtain ⟨rfl, hphase⟩ := hends
      cases beat with
      | accepted | refused => simp [hphase, Task.endAttempt]
      | unreachable =>
        cases hhas : t.hasChannel with
        | true => simpa [hphase, Task.endAttempt, hhas, ← hchannel] using hconnected
        | false => simp [hphase, Task.endAttempt, hhas, ← hchannel]
    · have hno : ¬ (other = task ∧ t.phase = .trying ∧ (beat = .unreachable → t.hasChannel = false)) :=
        fun hall => hends ⟨hall.1, hall.2.1⟩
      by_cases hsame : other = task
      · have hphase : t.phase ≠ .trying := fun hphase => hends ⟨hsame, hphase⟩
        simpa [hsame, hphase] using ⟨hchannel, hconnected⟩
      · simpa [hsame] using ⟨hchannel, hconnected⟩

theorem Shows.step (h : r.Shows task beats) (e : Event) :
    (r.step e).Shows task (beats ++ (r.endOf? task e).toList) := by
  have hquiet {e : Event} (hsame : (r.step e).Shows task beats) (hnone : r.endOf? task e = none) :
      (r.step e).Shows task (beats ++ (r.endOf? task e).toList) := by
    rwa [hnone, Option.toList_none, List.append_nil]
  cases e with
  | attempted other beat => exact h.attempted other beat
  | set mode entries =>
    exact hquiet (set_keeps (p := fun r => r.Shows task beats) (fun r entry hr => hr.addOne entry)
      (fun r entry hr => hr.removeOne entry) h mode entries) rfl
  | attempt other => exact hquiet (h.changeTask other (fun t => by split <;> rfl) (fun t => by split <;> rfl)) rfl
  | stop other => exact hquiet (h.changeTask other (fun t => by split <;> rfl) (fun t => by split <;> rfl)) rfl
  | shutdown =>
    refine hquiet ?_ rfl
    unfold Shows at h ⊢
    simp only [Reporter.step, shutdown, List.getElem?_map]
    cases htask : r.tasks[task]? with
    | none => rwa [htask] at h
    | some t => rwa [htask] at h

theorem shows_run (nodeName : String) (own : Address) (events : List Event) (task : Nat) :
    ((new nodeName own).run events).Shows task ((new nodeName own).ends task events) := by
  induction events using List.reverseRecOn with
  | nil => exact rfl
  | append_singleton events e ih =>
    rw [run_concat, ends_concat]
    exact ih.step e

/-! ### The head nodes that are connected -/

theorem mem_connected : headnode ∈ r.connected ↔ ∃ task, r.links.get? headnode = some task ∧ r.isConnected task := by
  rw [connected, SortedMap.mem_keys]
  simp only [SortedMap.contains, Option.isSome_iff_exists, SortedMap.get?_filter_eq_some_iff]

theorem connected_perm (r : Reporter) : (r.connected ++ r.connecting).Perm r.headnodes := by
  have hsplit := List.filter_append_perm (fun e : String × Nat => r.isConnected e.2) r.links.entries
  have hkeys := hsplit.map Prod.fst
  rwa [List.map_append] at hkeys

theorem connected_disjoint (r : Reporter) : r.connected.Disjoint r.connecting := by
  have hnodup : (r.connected ++ r.connecting).Nodup := (connected_perm r).nodup_iff.2 r.links.keys_nodup
  exact List.disjoint_of_nodup_append hnodup

/-! ### Whole runs -/

/-- A head node is connected if the task that goes on for it is. -/
theorem Linked.mem_connected_iff (h : r.Linked) {task : Nat} {t : Task} (htask : r.tasks[task]? = some t)
    (hgoes : t.cancelled = false) : t.headnode ∈ r.connected ↔ t.connected := by
  have hlink := (h.listed t.headnode task).2 ⟨t, htask, rfl, hgoes⟩
  rw [mem_connected, hlink]
  simp [isConnected, htask]

/-- What a node reports to after any requests and attempts. A request lists what was listed together with the head
nodes that its entries stand for, or without them, or these alone, and invalid entries change nothing; for an exchange
of the whole list the node's own host has to be a host, as its addresses are read again. Each head node that is listed
has one task that is not cancelled, and one that is not listed has none. The head nodes that are connected and those
that are not are parts of the list in its order; and a head node is connected exactly if the last attempt that its
present task has ended was a heartbeat that was accepted. -/
theorem links_of_requests (nodeName : String) (own : Address) {events : List Event} (hserves : .shutdown ∉ events) :
    let r := (new nodeName own).run events
    (∀ mode entries, (mode = .replace → Address.IsHost own.host) →
      (∀ headnode, headnode ∈ (r.set mode entries).1.headnodes ↔ Asked own.host r.headnodes entries headnode mode) ∧
        (r.set mode (entries.filter (isValid own.host))).1 = (r.set mode entries).1) ∧
      (∀ headnode ∈ r.headnodes,
        ∃! task : Nat, ∃ t : Task, r.tasks[task]? = some t ∧ t.headnode = headnode ∧ t.cancelled = false) ∧
      (∀ t ∈ r.tasks, t.headnode ∉ r.headnodes → t.cancelled) ∧
      (r.connected ++ r.connecting).Perm r.headnodes ∧ r.connected.Disjoint r.connecting ∧
      r.connected.Pairwise (· < ·) ∧ r.connecting.Pairwise (· < ·) ∧
      ∀ task t, r.tasks[task]? = some t → t.cancelled = false →
        (t.headnode ∈ r.connected ↔ ((new nodeName own).ends task events).getLast? = some .accepted) := by
  intro r
  have hlinked : r.Linked := linked_run nodeName own hserves
  have hhost : r.host = own := host_run nodeName own events
  refine ⟨fun mode entries hmode => ?_, fun headnode hmem => ?_, fun t ht hno => ?_, connected_perm r,
    connected_disjoint r, SortedMap.keys_lt _, SortedMap.keys_lt _, fun task t ht hgoes => ?_⟩
  · have hreplace : mode = .replace → Address.IsHost r.host.host ∧ Keyed r.host r := by
      rw [hhost]
      exact fun heq => ⟨hmode heq, keyed_run nodeName (hmode heq) events⟩
    rw [← hhost]
    exact ⟨fun headnode => mem_headnodes_set r mode entries headnode hreplace, set_filter r mode entries hreplace⟩
  · rw [mem_headnodes, SortedMap.contains, Option.isSome_iff_exists] at hmem
    obtain ⟨task, hlink⟩ := hmem
    refine ⟨task, (hlinked.listed headnode task).1 hlink, fun other hother => ?_⟩
    rw [(hlinked.listed headnode other).2 hother, Option.some.injEq] at hlink
    exact hlink
  · by_contra hgoes
    obtain ⟨task, htask⟩ := List.getElem?_of_mem ht
    have hlink := (hlinked.listed t.headnode task).2 ⟨t, htask, rfl, by simpa using hgoes⟩
    exact hno (mem_headnodes.2 (by simp [SortedMap.contains, hlink]))
  · have hshows : r.Shows task ((new nodeName own).ends task events) := shows_run nodeName own events task
    rw [Shows, ht] at hshows
    rw [hlinked.mem_connected_iff ht hgoes]
    exact hshows.2

/-- A head node is taken away and added again, its first task still ends an attempt, and the second one is refused after
it was accepted. -/
def comings : List Event :=
  [.set .add ["a", " A:50505 ", "a:b:c", "localhost"], .attempted 0 .accepted, .set .remove ["A"],
    .set .add ["a:050505"], .attempted 2 .accepted, .attempt 0, .attempted 0 .refused, .attempted 1 .accepted,
    .attempt 1, .attempted 1 .refused]

theorem links_of_comings :
    ((new "n1" ⟨"N1", 50505⟩).run comings).headnodes = ["A:50505", "N1:50505"] ∧
      ((new "n1" ⟨"N1", 50505⟩).run comings).connected = ["A:50505"] ∧
      (∃! task : Nat, ∃ t : Task, ((new "n1" ⟨"N1", 50505⟩).run comings).tasks[task]? = some t ∧
        t.headnode = "A:50505" ∧ t.cancelled = false) ∧
      (∀ headnode,
        headnode ∈ (((new "n1" ⟨"N1", 50505⟩).run comings).set .replace ["n1:50505", "b", "-:"]).1.headnodes ↔
          ∃ entry ∈ ["n1:50505", "b", "-:"], Names "N1" entry headnode) := by
  have hhost : Address.IsHost "N1" := ⟨by decide, by decide, by decide, by decide⟩
  have hserves : .shutdown ∉ comings := by decide
  obtain ⟨hasked, hone, -⟩ := links_of_requests "n1" ⟨"N1", 50505⟩ hserves
  exact ⟨by decide +kernel, by decide +kernel, hone "A:50505" (by decide +kernel),
    (hasked .replace ["n1:50505", "b", "-:"] fun _ => hhost).1⟩

end Reporter

end Muster
