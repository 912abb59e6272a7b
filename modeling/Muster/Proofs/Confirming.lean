import Muster.Proofs.Answering
import Muster.Proofs.Delivery

/-!
# What a cancellation knows

A job counts as cancelled only if every node of it has confirmed that, and a cancellation plans for it only
once its nodes have been called. Both hold whether the storage works or not.
-/

namespace Muster.Dispatch

open Store (withId newestId cancelEnded marks)

/-! ### Cancelled jobs -/

theorem Turn.mem_listed {p p' : Part} {now : Time} (h : Turn now p p') {after : Job}
    (hafter : after ∈ p'.listed) :
    ∃ entry ∈ p.listed, after.nodes = entry.nodes ∧ (after.state = .canceled → entry.state = .canceled) := by
  cases h with
  | stayed | left | dropped | answered | relayed | exited | lost =>
    exact ⟨after, hafter, rfl, fun h => h⟩
  | begun _ _ hl =>
    rw [List.mem_singleton.1 hafter, hl]
    exact ⟨_, List.mem_singleton_self _, rfl, by intro hno; cases hno⟩
  | launched =>
    obtain ⟨entry, hentry, rfl⟩ := List.mem_map.1 hafter
    refine ⟨entry, hentry, ?_⟩
    unfold Dispatch.launched
    split
    · exact ⟨rfl, by intro hno; cases hno⟩
    · exact ⟨rfl, fun h => h⟩
  | @finished run job _ _ _ hl =>
    rw [List.mem_singleton.1 hafter, hl]
    refine ⟨job, List.mem_singleton_self _, ?_⟩
    unfold Store.finished
    simp only
    split
    · refine ⟨rfl, ?_⟩
      simp only
      split <;> (intro hno; cases hno)
    · exact ⟨rfl, fun h => h⟩

/-- A job that is listed as cancelled was so before, or a cancellation settles it that no node has refused. -/
theorem Move.mem_listed {planned : Prop} {settles : List String → Prop} {p p' : Part} {now : Time}
    (h : Move now planned settles p p') {after : Job} (hafter : after ∈ p'.listed) :
    ∃ entry ∈ p.listed, after.nodes = entry.nodes ∧
      (after.state = .canceled → entry.state = .canceled ∨ settles []) := by
  cases h with
  | turned ht =>
    obtain ⟨entry, hentry, hnodes, hstate⟩ := ht.mem_listed hafter
    exact ⟨entry, hentry, hnodes, fun h => .inl (hstate h)⟩
  | evicted => cases hafter
  | marked ids jobs =>
    obtain ⟨entry, hentry, rfl⟩ := List.mem_map.1 hafter
    refine ⟨entry, hentry, ?_⟩
    unfold Store.mark
    split
    · exact ⟨rfl, by intro hno; cases hno⟩
    · exact ⟨rfl, .inl⟩
  | settled refused hsettles =>
    obtain ⟨entry, hentry, rfl⟩ := List.mem_map.1 hafter
    refine ⟨entry, hentry, ?_⟩
    unfold cancelEnded
    split
    · cases refused with
      | nil => exact ⟨rfl, fun _ => .inr hsettles⟩
      | cons => exact ⟨rfl, by intro hno; cases hno⟩
    · exact ⟨rfl, .inl⟩

/-- A node answers a cancellation that it has cancelled the job. -/
def Confirms (id : Int) (node : String) (_ : Dispatch) (e : Moment × Event) : Prop :=
  ∃ call, e.2 = .cancelAnswered call id node true

/-- Where the job counts as cancelled, all its nodes have confirmed, and where a cancellation waits for it, all
nodes have that do not count as open or as refusing. -/
structure Confirming (id : Int) (nodes : List String) (confirmed : String → Prop) (d : Dispatch) : Prop where
  entries : ∀ jobs, d.store.jobs = .ok jobs → ∀ entry ∈ withId id jobs,
    entry.nodes = nodes ∧ (entry.state = .canceled → ∀ node ∈ nodes, confirmed node)
  calls : ∀ c ∈ d.cancels, ∀ j ∈ c.jobs, j.id = id → ∀ node ∈ nodes,
    node ∈ j.waiting ∨ node ∈ j.failed ∨ confirmed node
  results : ∀ c ∈ d.cancels, c.results.get? id = some .canceled → ∀ node ∈ nodes, confirmed node

/-! ### Whole runs -/

theorem mem_mergeSort_cons {node other : String} {failed : List String} :
    node ∈ (other :: failed).mergeSort ↔ node = other ∨ node ∈ failed := by
  rw [List.mem_mergeSort, List.mem_cons]

/-- A node that is not open any more after an answer has refused or confirmed. -/
theorem mem_answer {j : CancelJob} {node other : String} {accepted : Bool} {confirmed : Prop}
    (h : node ∈ j.waiting ∨ node ∈ j.failed ∨ confirmed)
    (hconfirms : node = other → accepted → confirmed) :
    node ∈ (j.answer other accepted).waiting ∨ node ∈ (j.answer other accepted).failed ∨ confirmed := by
  unfold CancelJob.answer
  split
  · rcases h with hwaiting | hfailed | hdone
    · by_cases hsame : node = other
      · cases accepted with
        | true => exact .inr (.inr (hconfirms hsame rfl))
        | false => exact .inr (.inl (mem_mergeSort_cons.2 (.inl hsame)))
      · exact .inl ((List.mem_erase_of_ne hsame).2 hwaiting)
    · cases accepted with
      | true => exact .inr (.inl hfailed)
      | false => exact .inr (.inl (mem_mergeSort_cons.2 (.inr hfailed)))
    · exact .inr (.inr hdone)
  · exact h

namespace Confirming

variable {id : Int} {nodes : List String} {confirmed confirmed' : String → Prop} {d : Dispatch}

/-- Where nobody has refused a cancellation, all nodes have confirmed it. -/
theorem of_settled (h : Confirming id nodes confirmed d) {c : Cancel} (hc : c ∈ d.cancels) {j : CancelJob}
    (hj : j ∈ c.jobs) (hid : j.id = id) (hwaiting : j.waiting = []) (hfailed : j.failed = []) :
    ∀ node ∈ nodes, confirmed node := by
  intro node hnode
  rcases h.calls c hc j hj hid node hnode with hin | hin | hdone
  · rw [hwaiting] at hin
    cases hin
  · rw [hfailed] at hin
    cases hin
  · exact hdone

theorem step (h : Confirming id nodes confirmed d) {e : Moment × Event}
    (hmono : ∀ node, confirmed node → confirmed' node)
    (hconfirms : ∀ node, Confirms id node d e → confirmed' node)
    (hlisted : ∀ jobs, d.store.jobs = .ok jobs → (withId id jobs).length ≤ 1 ∧ id ≤ newestId jobs) :
    Confirming id nodes confirmed' (d.stepAt e) := by
  refine ⟨?_, ?_, ?_⟩
  · intro _ hread' after hafter
    obtain ⟨jobs, hread, rfl⟩ := jobs_of_stepAt hread'
    obtain ⟨hone, hknown⟩ := hlisted jobs hread
    obtain ⟨entry, hentry, hnodes, hstate⟩ := (move_step hread hone hknown e).mem_listed hafter
    obtain ⟨hold, hdone⟩ := h.entries jobs hread entry hentry
    refine ⟨hnodes.trans hold, ?_⟩
    intro hcanceled node hnode
    rcases hstate hcanceled with hbefore | ⟨call, c, -, hc, j, hj, hid, hwaiting, hfailed⟩
    · exact hmono node (hdone hbefore node hnode)
    · exact hmono node (h.of_settled (List.mem_of_getElem? hc) hj hid hwaiting hfailed node hnode)
  · intro c hmem j hj hid node hnode
    have hkept {k : CancelJob} {before : Cancel} (hbefore : before ∈ d.cancels) (hk : k ∈ before.jobs)
        (hkid : k.id = id) : node ∈ k.waiting ∨ node ∈ k.failed ∨ confirmed' node :=
      (h.calls before hbefore k hk hkid node hnode).imp_right (.imp_right (hmono node))
    cases origin_of_mem e.1.1 hmem with
    | kept hc => exact hkept hc hj hid
    | begun _ hread =>
      obtain ⟨⟨other, planned⟩, hplan, rfl⟩ := List.mem_map.1 hj
      obtain ⟨entry, hentry, hname, hnodes, -⟩ := Store.mem_plan hplan
      have hold := (h.entries _ hread entry (Store.mem_withId.2 ⟨hentry, hname.trans hid⟩)).1
      exact .inl (hnodes ▸ hold ▸ hnode)
    | @heard call other answering accepted before he hc =>
      obtain ⟨k, hk, hsame⟩ := List.mem_map.1 hj
      by_cases hother : k.id = other
      · rw [if_pos hother] at hsame
        subst hsame
        rw [Cancel.answer_id] at hid
        refine mem_answer (hkept hc hk hid) ?_
        rintro rfl rfl
        exact hconfirms node ⟨call, by rw [he, ← hother, hid]⟩
      · rw [if_neg hother] at hsame
        subst hsame
        exact hkept hc hk hid
    | @settled _ before k _ _ hc hk =>
      unfold Cancel.settled at hj
      split at hj
      · cases hj
      · exact hkept hc (List.mem_filter.1 hj).1 hid
    | broken => cases hj
  · intro c hmem hcanceled node hnode
    cases origin_of_mem e.1.1 hmem with
    | kept hc => exact hmono node (h.results c hc hcanceled node hnode)
    | begun => cases hcanceled
    | heard _ hc => exact hmono node (h.results _ hc hcanceled node hnode)
    | @settled _ before k jobs _ hc hk hwaiting hread =>
      unfold Cancel.settled at hcanceled
      split at hcanceled
      · exact hmono node (h.results before hc hcanceled node hnode)
      · rename_i job hjob
        by_cases hid : k.id = id
        · subst hid
          rw [SortedMap.get?_insert_self, Option.some.injEq] at hcanceled
          rw [Store.find?_eq_head?] at hjob
          have hentry := List.mem_of_mem_head? hjob
          refine hmono node ?_
          unfold cancelEnded at hcanceled
          split at hcanceled
          · split at hcanceled
            · rename_i hfailed
              exact h.of_settled hc hk rfl hwaiting (List.isEmpty_iff.1 hfailed) node hnode
            · cases hcanceled
          · exact (h.entries jobs hread job hentry).2 hcanceled node hnode
        · rw [SortedMap.get?_insert_of_ne _ _ (Ne.symm hid)] at hcanceled
          exact hmono node (h.results before hc hcanceled node hnode)
    | broken hc =>
      rcases hc with hc | rfl
      · exact hmono node (h.results _ hc hcanceled node hnode)
      · cases hcanceled

end Confirming

/-- Along every run, a job counts as cancelled only if every node of it has confirmed that. -/
theorem confirming_of_run {d : Dispatch} {job : Job} (hjob : d.Accepted job) (events : History) :
    Confirming job.id job.nodes (fun node => d.Happens events (Confirms job.id node)) (d.runAt events) := by
  induction events using List.reverseRecOn with
  | nil =>
    have hfresh := fresh_of_accepted hjob
    refine ⟨?_, ?_, ?_⟩
    · intro jobs hread entry hentry
      rw [(hfresh.listed jobs hread).2, List.mem_singleton] at hentry
      subst hentry
      refine ⟨rfl, fun hcanceled => ?_⟩
      rw [hfresh.state] at hcanceled
      cases hcanceled
    · intro c hc j hj hid
      exact absurd ⟨j, hj, hid⟩ (hfresh.calls c hc).1
    · intro c hc hcanceled
      rw [runAt_nil] at hc
      rw [(hfresh.calls c hc).2] at hcanceled
      cases hcanceled
  | append_singleton events e ih =>
    rw [runAt_concat]
    refine ih.step (fun node h => (happens_concat ..).2 (.inl h))
      (fun node h => (happens_concat ..).2 (.inr h)) ?_
    intro jobs hread
    obtain ⟨hknown, _, hd⟩ := delivery_of_run hjob hread
    exact ⟨hd.length_le, hknown⟩

/-! ### Calls of the nodes -/

/-- The nodes of the job are not called yet. -/
def Waits (id : Int) (d : Dispatch) : Prop := ∃ run, d.run? id = some run ∧ run.phase = .accepted

section

variable {id : Int} {d : Dispatch}

theorem Turn.accepted {p p' : Part} {now : Time} (h : Turn now p p') {run : Run} (hrun : p'.run = some run)
    (hphase : run.phase = .accepted) : ∃ before, p.run = some before ∧ before.phase = .accepted := by
  cases h with
  | stayed | left => exact ⟨run, hrun, hphase⟩
  | answered hr | relayed _ _ hr | exited hr =>
    rw [Option.some.injEq] at hrun
    subst hrun
    exact ⟨_, hr, hphase⟩
  | begun | launched =>
    rw [Option.some.injEq] at hrun
    subst hrun
    cases hphase
  | dropped | finished | lost => cases hrun

theorem launchRun_run? {run changed : Run} (h : d.run? run.id = some run)
    (hchanged : (d.launchRun run).run? run.id = some changed) : changed.phase = .running := by
  unfold launchRun at hchanged
  split at hchanged
  · rw [close_run?_self] at hchanged
    cases hchanged
  · rw [setRun_run?, store_run?, h, Option.map_some, if_pos rfl, Option.some.injEq] at hchanged
    rw [← hchanged]

theorem finishRun_run? (run : Run) (now : Time) : (d.finishRun run now).run? run.id = none := by
  unfold finishRun
  split
  · rw [close_run?_self]
  · rw [close_run?_self]

/-- A job does not come to wait again, whether the storage works or not. -/
theorem waits_of_step {now : Time} {e : Event} (h : Waits id (step now d e))
    (hknown : ∀ jobs, d.store.jobs = .ok jobs → id ≤ newestId jobs) : Waits id d := by
  obtain ⟨run, hrun, hphase⟩ := h
  have hturn (ht : Turn now (part id d []) (part id (step now d e) [])) : Waits id d := ht.accepted hrun hphase
  by_cases he : e.job? = some id
  · cases e <;> simp only [Event.job?, Option.some.injEq, reduceCtorEq] at he <;> subst he
    case answered node accepted => exact hturn (turn_answered now node accepted)
    case reply node r => exact hturn (turn_reply now node r)
    case ended node => exact hturn (turn_ended now node)
    case leave => exact hturn (turn_leave now)
    case begin =>
      simp only [step] at hrun
      split at hrun
      · rename_i before hbefore
        split at hrun
        · rename_i haccepted
          exact ⟨before, hbefore, haccepted⟩
        · exact ⟨run, hrun, hphase⟩
      · exact ⟨run, hrun, hphase⟩
    case launch =>
      simp only [step] at hrun
      split at hrun
      · rename_i before hbefore
        obtain rfl := run?_id hbefore
        split at hrun
        · rw [launchRun_run? hbefore hrun] at hphase
          cases hphase
        · exact ⟨run, hrun, hphase⟩
      · exact ⟨run, hrun, hphase⟩
    case finish =>
      simp only [step] at hrun
      split at hrun
      · rename_i before hbefore
        obtain rfl := run?_id hbefore
        split at hrun
        · rw [finishRun_run?] at hrun
          cases hrun
        · exact ⟨run, hrun, hphase⟩
      · exact ⟨run, hrun, hphase⟩
  · exact ⟨run, (way_step hknown now he).1 ▸ hrun, hphase⟩

end

/-- The jobs for which a cancellation starts are planned. -/
theorem plans_of_mem {d : Dispatch} {now : Moment} {ids : JobIds} {c : Cancel}
    (hc : (d.stepAt (now, .cancel ids)).cancels[d.cancels.length]? = some c) {j : CancelJob}
    (hj : j ∈ c.jobs) :
    Plans j.id d (now, .cancel ids) := by
  cases hread : d.store.jobs with
  | ok jobs =>
    rw [stepAt, cancels_cancel hread, List.getElem?_concat_length, Option.some.injEq] at hc
    subst hc
    refine ⟨ids, _, rfl, by rw [Store.planCancel_eq hread], ?_⟩
    exact (Cancel.awaits_ofPlan _ _).1 ⟨j, hj, rfl⟩
  | error fault =>
    simp only [stepAt, Dispatch.step, startCancel, Store.planCancel_of_error hread,
      List.getElem?_concat_length, Option.some.injEq] at hc
    subst hc
    cases hj

/-- A cancellation plans for an accepted job only once its nodes have been called. -/
theorem not_waits_of_plans {d : Dispatch} {job : Job} (hjob : d.Accepted job) {events : History}
    {e : Moment × Event} (h : Plans job.id (d.runAt events) e) : ¬ Waits job.id (d.runAt events) := by
  rintro ⟨run, hrun, hphase⟩
  obtain ⟨ids, plan, he, hplan, hid⟩ := h
  cases hread : (d.runAt events).store.jobs with
  | error fault =>
    rw [Store.planCancel_of_error hread] at hplan
    cases hplan
  | ok jobs =>
    obtain ⟨-, _, hd⟩ := delivery_of_run hjob hread
    obtain ⟨now, _⟩ := e
    subst he
    obtain ⟨entry, hentry, hmarks⟩ := (plans_iff hread now ids).1 ⟨ids, plan, rfl, hplan, hid⟩
    obtain ⟨_, _, listed, hcourse⟩ := hd.course (List.ne_nil_of_mem hentry)
    have hl : withId job.id jobs = [listed] := hcourse.listed
    rw [hl, List.mem_singleton] at hentry
    have hfits := hcourse.fits
    simp only [Dispatch.part, hrun, Option.map_some, hphase, fits, beq_iff_eq] at hfits
    simp only [marks, hentry, hfits, Bool.and_eq_true] at hmarks
    cases hmarks.2

/-- A job that has been called does not come to wait again. -/
theorem waits_of_run {d : Dispatch} {job : Job} (hjob : d.Accepted job) {s events : History} (hs : s <+: events)
    (h : Waits job.id (d.runAt events)) : Waits job.id (d.runAt s) := by
  induction events using List.reverseRecOn with
  | nil =>
    rw [List.prefix_nil.1 hs]
    exact h
  | append_singleton events e ih =>
    rcases List.prefix_concat_iff.1 hs with heq | hs
    · rw [heq]
      exact h
    · rw [runAt_concat] at h
      exact ih hs (waits_of_step h fun jobs hread => (delivery_of_run hjob hread).1)

end Muster.Dispatch
