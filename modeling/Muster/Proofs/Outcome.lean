import Muster.Proofs.Course

/-!
# The outcome of a job

A job comes to the same end in whatever order its nodes, its completion and any number of cancellations are
heard, as long as nothing is driven out of the list meanwhile.
-/

namespace Muster.Dispatch

open Store (withId newestId markCanceling changeFirst cancelEnded marks)

/-- The cancellations under way agree with the entry of a job. -/
structure Calls (id : Int) (d : Dispatch) (jobs : List Job) (entry : Job) : Prop where
  awaited : entry.state = .canceling → ∃ c ∈ d.cancels, c.Awaits id
  awaits : ∀ c ∈ d.cancels, c.Awaits id →
    entry.state.isMarked ∧ c.fault = none ∧ ∀ j ∈ c.jobs, Store.find? j.id jobs ≠ none
  results : ∀ c ∈ d.cancels, ∀ state, c.results.get? id = some state →
    entry.state = state ∧ state.isMarked ∧ state.isTerminal

theorem find?_ne_none {id : Int} {jobs : List Job} :
    Store.find? id jobs ≠ none ↔ ∃ job ∈ jobs, job.id = id := by
  rw [Store.find?_eq_head?, ne_eq, List.head?_eq_none_iff, Store.withId_eq_nil]
  simp

namespace Calls

variable {id : Int} {d : Dispatch} {jobs more : List Job} {entry after : Job}

/-- What leaves the cancellations alone, takes no job out of the list and does not change the state of a
job that is marked. -/
theorem kept {d' : Dispatch} (h : Calls id d jobs entry) (hcancels : d'.cancels = d.cancels)
    (hlisted : ∀ k, Store.find? k jobs ≠ none → Store.find? k more ≠ none)
    (hstate : entry.state.isMarked → after.state = entry.state)
    (hmark : after.state.isMarked → entry.state.isMarked) : Calls id d' more after := by
  refine ⟨?_, ?_, ?_⟩
  · intro hcanceling
    rw [hcancels]
    have hmarked := hmark (by rw [hcanceling]; rfl)
    exact h.awaited ((hstate hmarked).symm.trans hcanceling)
  · intro c hc hawaits
    rw [hcancels] at hc
    obtain ⟨hmarked, hopen, hjobs⟩ := h.awaits c hc hawaits
    refine ⟨?_, hopen, fun j hj => hlisted j.id (hjobs j hj)⟩
    rw [hstate hmarked]
    exact hmarked
  · intro c hc state hresult
    rw [hcancels] at hc
    obtain ⟨heq, hmarked, hterminal⟩ := h.results c hc state hresult
    have hentry : entry.state.isMarked := by
      rw [heq]
      exact hmarked
    exact ⟨(hstate hentry).trans heq, hmarked, hterminal⟩

theorem exists_awaits_set {l : List Cancel} {call : Nat} {before after : Cancel}
    (hbefore : l[call]? = some before) (hgoes : before.Awaits id → after.Awaits id)
    (h : ∃ c ∈ l, c.Awaits id) : ∃ c ∈ l.set call after, c.Awaits id := by
  obtain ⟨c, hc, hawaits⟩ := h
  obtain ⟨k, hk⟩ := List.getElem?_of_mem hc
  by_cases hkc : call = k
  · subst hkc
    rw [hbefore, Option.some.injEq] at hk
    subst hk
    refine ⟨after, ?_, hgoes hawaits⟩
    have hlt : call < l.length := (List.getElem?_eq_some_iff.1 hbefore).1
    exact List.mem_of_getElem? (List.getElem?_set_self hlt)
  · refine ⟨c, ?_, hawaits⟩
    exact List.mem_of_getElem? ((List.getElem?_set_ne hkc).trans hk)

/-- A cancellation that begins awaits the jobs that it marks. -/
theorem planned (h : Calls id d jobs entry) (hread : d.store.jobs = .ok jobs)
    (hlisted : withId id jobs = [entry]) (ids : JobIds) (now : Time) :
    Calls id (step now d (.cancel ids)) (markCanceling ids jobs).1 (Store.mark ids jobs entry) := by
  have hcancels := cancels_cancel hread now ids
  have hkeeps : ∀ k, Store.find? k jobs ≠ none → Store.find? k (markCanceling ids jobs).1 ≠ none := by
    intro k hk
    rw [find?_ne_none] at hk ⊢
    obtain ⟨job, hjob, hid⟩ := hk
    exact ⟨Store.mark ids jobs job, List.mem_map.2 ⟨job, hjob, rfl⟩, by simp [hid]⟩
  have hplan : (Cancel.ofPlan (markCanceling ids jobs).2).Awaits id ↔ marks ids jobs entry := by
    rw [Cancel.awaits_ofPlan, Store.contains_plan, hlisted]
    simp
  have hmarked : entry.state.isMarked → (Store.mark ids jobs entry).state = entry.state := by
    intro hmark
    unfold Store.mark
    split
    · rename_i hmarks
      simp only [marks, Bool.and_eq_true] at hmarks
      cases hs : entry.state <;> simp_all [JobState.isActive, JobState.isMarked]
    · rfl
  refine ⟨?_, ?_, ?_⟩
  · intro hcanceling
    rw [hcancels]
    by_cases hmarks : marks ids jobs entry
    · exact ⟨_, by simp, hplan.2 hmarks⟩
    · rw [Store.mark, if_neg hmarks] at hcanceling
      obtain ⟨c, hc, hawaits⟩ := h.awaited hcanceling
      exact ⟨c, List.mem_append_left _ hc, hawaits⟩
  · intro c hc hawaits
    rw [hcancels] at hc
    rcases List.mem_append.1 hc with hc | hc
    · obtain ⟨hmark, hopen, hjobs⟩ := h.awaits c hc hawaits
      rw [hmarked hmark]
      exact ⟨hmark, hopen, fun j hj => hkeeps j.id (hjobs j hj)⟩
    · rw [List.mem_singleton.1 hc] at hawaits ⊢
      rw [Store.mark, if_pos (hplan.1 hawaits)]
      refine ⟨rfl, rfl, ?_⟩
      intro j hj
      obtain ⟨⟨k, nodes⟩, hmem, rfl⟩ := List.mem_map.1 hj
      obtain ⟨job, hjob, hid, -, -⟩ := Store.mem_plan hmem
      exact hkeeps k (find?_ne_none.2 ⟨job, hjob, hid⟩)
  · intro c hc state hresult
    rw [hcancels] at hc
    rcases List.mem_append.1 hc with hc | hc
    · obtain ⟨rfl, hmark, hterminal⟩ := h.results c hc state hresult
      exact ⟨hmarked hmark, hmark, hterminal⟩
    · rw [List.mem_singleton.1 hc] at hresult
      cases hresult

/-- A cancellation that hears a node still awaits its jobs. -/
theorem heard (h : Calls id d jobs entry) (now : Time) (call : Nat) (other : Int) (node : String)
    (accepted : Bool) : Calls id (step now d (.cancelAnswered call other node accepted)) jobs entry := by
  simp only [step]
  split
  · rename_i before hbefore
    have hb := List.mem_of_getElem? hbefore
    refine ⟨?_, ?_, ?_⟩
    · intro hcanceling
      exact exists_awaits_set hbefore (Cancel.awaits_heard before other node accepted id).2
        (h.awaited hcanceling)
    · intro c hc hawaits
      rcases List.mem_or_eq_of_mem_set hc with hc | rfl
      · exact h.awaits c hc hawaits
      · obtain ⟨hmark, hopen, hjobs⟩ := h.awaits before hb
          ((Cancel.awaits_heard before other node accepted id).1 hawaits)
        refine ⟨hmark, hopen, ?_⟩
        intro j hj
        obtain ⟨k, hk, rfl⟩ := List.mem_map.1 hj
        split
        · rw [Cancel.answer_id]
          exact hjobs k hk
        · exact hjobs k hk
    · intro c hc state hresult
      rcases List.mem_or_eq_of_mem_set hc with hc | rfl
      · exact h.results c hc state hresult
      · exact h.results before hb state hresult
  · exact h

theorem find?_changeFirst_ne_none {f : Job → Job} (hf : ∀ job, (f job).id = job.id) {k : Int}
    (other : Int) (h : Store.find? k jobs ≠ none) : Store.find? k (changeFirst other f jobs) ≠ none := by
  rw [find?_ne_none] at h ⊢
  obtain ⟨job, hjob, hid⟩ := h
  have hmem : k ∈ jobs.map Job.id := List.mem_map.2 ⟨job, hjob, hid⟩
  rw [← map_id_changeFirst other hf jobs] at hmem
  obtain ⟨changed, hchanged, heq⟩ := List.mem_map.1 hmem
  exact ⟨changed, hchanged, heq⟩

/-- A cancellation that settles another job still awaits this one. -/
theorem settled_of_ne (h : Calls id d jobs entry) (hread : d.store.jobs = .ok jobs) {call : Nat}
    {before : Cancel} {j : CancelJob} (hbefore : d.cancels[call]? = some before) (hj : j ∈ before.jobs)
    (hne : j.id ≠ id) (now : Time) :
    Calls id (d.settle call before j now) (changeFirst j.id (cancelEnded j.failed now) jobs) entry := by
  have hb := List.mem_of_getElem? hbefore
  have hkeeps {k : Int} (hk : Store.find? k jobs ≠ none) :=
    find?_changeFirst_ne_none (Store.cancelEnded_id j.failed now) j.id hk
  refine ⟨?_, ?_, ?_⟩
  · intro hcanceling
    rw [cancels_settle hread]
    refine exists_awaits_set hbefore ?_ (h.awaited hcanceling)
    intro hawaits
    exact Cancel.awaits_settled ((h.awaits before hb hawaits).2.2 j hj) hawaits hne.symm
  · intro c hc hawaits
    rw [cancels_settle hread] at hc
    rcases List.mem_or_eq_of_mem_set hc with hc | rfl
    · obtain ⟨hmark, hopen, hjobs⟩ := h.awaits c hc hawaits
      exact ⟨hmark, hopen, fun k hk => hkeeps (hjobs k hk)⟩
    · obtain ⟨hmark, hopen, hjobs⟩ := h.awaits before hb (Cancel.awaits_of_settled hawaits).1
      refine ⟨hmark, ?_⟩
      unfold Cancel.settled at hawaits ⊢
      split at hawaits
      · obtain ⟨k, hk, -⟩ := hawaits
        cases hk
      · exact ⟨hopen, fun k hk => hkeeps (hjobs k (List.mem_filter.1 hk).1)⟩
  · intro c hc state hresult
    rw [cancels_settle hread] at hc
    rcases List.mem_or_eq_of_mem_set hc with hc | rfl
    · exact h.results c hc state hresult
    · refine h.results before hb state ?_
      unfold Cancel.settled at hresult
      split at hresult
      · exact hresult
      · rw [SortedMap.get?_insert_of_ne _ _ hne.symm] at hresult
        exact hresult

theorem cancelEnded_state {entry : Job} (hmark : entry.state.isMarked) (failed : List String) (now : Time) :
    (cancelEnded failed now entry).state.isMarked ∧ (cancelEnded failed now entry).state.isTerminal ∧
      (entry.state.isTerminal → (cancelEnded failed now entry).state = entry.state) := by
  unfold cancelEnded
  split
  · rename_i hstate
    split <;> simp [JobState.isMarked, JobState.isTerminal, hstate]
  · rename_i hne
    refine ⟨hmark, ?_, fun _ => rfl⟩
    cases hs : entry.state <;> simp_all [JobState.isMarked, JobState.isTerminal]

/-- A cancellation that settles this job tells the state in which the job stays. -/
theorem settled_self (h : Calls j.id d jobs entry) (hread : d.store.jobs = .ok jobs) {call : Nat}
    {before : Cancel} (hbefore : d.cancels[call]? = some before) (hj : j ∈ before.jobs)
    (hlisted : withId j.id jobs = [entry]) (now : Time) :
    Calls j.id (d.settle call before j now) (changeFirst j.id (cancelEnded j.failed now) jobs)
      (cancelEnded j.failed now entry) := by
  have hb := List.mem_of_getElem? hbefore
  have hkeeps {k : Int} (hk : Store.find? k jobs ≠ none) :=
    find?_changeFirst_ne_none (Store.cancelEnded_id j.failed now) j.id hk
  have hmark := (h.awaits before hb ⟨j, hj, rfl⟩).1
  obtain ⟨hafter, hterminal, hstays⟩ := cancelEnded_state hmark j.failed now
  refine ⟨?_, ?_, ?_⟩
  · intro hcanceling
    rw [hcanceling] at hterminal
    cases hterminal
  · intro c hc hawaits
    rw [cancels_settle hread] at hc
    rcases List.mem_or_eq_of_mem_set hc with hc | rfl
    · obtain ⟨-, hopen, hjobs⟩ := h.awaits c hc hawaits
      exact ⟨hafter, hopen, fun k hk => hkeeps (hjobs k hk)⟩
    · exact absurd rfl (Cancel.awaits_of_settled hawaits).2
  · intro c hc state hresult
    rw [cancels_settle hread] at hc
    rcases List.mem_or_eq_of_mem_set hc with hc | rfl
    · obtain ⟨rfl, hmarked, hend⟩ := h.results c hc state hresult
      exact ⟨hstays hend, hmarked, hend⟩
    · simp only [Cancel.settled, Store.find?_eq_some hlisted, SortedMap.get?_insert_self,
        Option.some.injEq] at hresult
      rw [← hresult]
      exact ⟨rfl, hafter, hterminal⟩

end Calls

/-! ### Whole runs -/

/-- A job of the list is not in the list after the event. -/
def Evicts (d : Dispatch) (e : Moment × Event) : Prop :=
  ∃ before after, d.store.jobs = .ok before ∧ (d.stepAt e).store.jobs = .ok after ∧
    ∃ job ∈ before, ∀ other ∈ after, other.id ≠ job.id

/-- Only a submission drives jobs out. -/
theorem submit_of_evicts {d : Dispatch} {e : Moment × Event} (h : Evicts d e) :
    ∃ spec nodes capacity keepsOutput, e.2 = .submit spec nodes capacity keepsOutput := by
  by_contra hno
  simp only [not_exists] at hno
  obtain ⟨before, after, hbefore, hafter, job, hjob, hgone⟩ := h
  have hjobs := jobs_stepAt hbefore e ⟨after, hafter⟩
  rw [hafter, Except.ok.injEq] at hjobs
  subst hjobs
  have hmem : job.id ∈ (d.relist e.1.1 before e.2).map Job.id := by
    rw [map_id_relist e.1.1 d before hno]
    exact List.mem_map.2 ⟨job, hjob, rfl⟩
  obtain ⟨other, hother, heq⟩ := List.mem_map.1 hmem
  exact hgone other hother heq

theorem not_happens_evicts {d : Dispatch} {events : History}
    (h : ∀ e ∈ events, ∀ spec nodes capacity keepsOutput, e.2 ≠ .submit spec nodes capacity keepsOutput) :
    ¬ d.Happens events Evicts := by
  rintro ⟨s, e, hs, hevicts⟩
  obtain ⟨spec, nodes, capacity, keepsOutput, he⟩ := submit_of_evicts hevicts
  exact h e (hs.subset (by simp)) spec nodes capacity keepsOutput he

/-- A node has ended its part of the job with a code. -/
def HasEnded (id : Int) (node : String) (code : Int) (d : Dispatch) : Prop :=
  ∃ run t, d.run? id = some run ∧ task? run node = some t ∧ t.exitCode? = some code

/-- All there is of a job agrees. -/
structure Sound (id : Int) (nodes : List String) (marked : Prop) (ended : String → Int → Prop)
    (d : Dispatch) (jobs : List Job) (entry : Job) : Prop where
  read : d.store.jobs = .ok jobs
  known : id ≤ newestId jobs
  course : Course nodes marked ended (part id d jobs) entry
  calls : Calls id d jobs entry

section

variable {id : Int} {nodes : List String} {marked : Prop} {ended : String → Int → Prop} {d : Dispatch}
  {jobs : List Job} {entry : Job}

/-- An event that takes no job out of the list leaves the cancellations in agreement with the entry. -/
theorem calls_step (h : Calls id d jobs entry) (hread : d.store.jobs = .ok jobs)
    (hcourse : Course nodes marked ended (part id d jobs) entry) (hknown : id ≤ newestId jobs)
    {now : Moment} {e : Event} {after : Job}
    (hkept : ∀ k, Store.find? k jobs ≠ none → Store.find? k (d.relist now.1 jobs e) ≠ none)
    (hafter : withId id (d.relist now.1 jobs e) = [after]) :
    Calls id (step now.1 d e) (d.relist now.1 jobs e) after := by
  have hentry : withId id jobs = [entry] := hcourse.listed
  have hsame {other : Job} (hlisted : withId id (d.relist now.1 jobs e) = [other]) : other = after := by
    rw [hafter] at hlisted
    exact (List.singleton_inj.1 hlisted).symm
  have hstays (hcancels : (step now.1 d e).cancels = d.cancels)
      (hlisted : withId id (d.relist now.1 jobs e) = withId id jobs) :
      Calls id (step now.1 d e) (d.relist now.1 jobs e) after := by
    rw [← hsame (hlisted.trans hentry)]
    exact h.kept hcancels hkept (fun _ => rfl) fun h => h
  cases he : e.job? with
  | some other =>
    have hcancels := cancels_step (d := d) now.1 he
    by_cases hne : other = id
    · rw [hne] at he
      have hone : (withId id jobs).length ≤ 1 := by simp [hentry]
      obtain ⟨turned, hnext, hstate⟩ := hcourse.turn (turn_step hread hone now.1 he)
      have heq := hsame hnext.listed
      subst heq
      refine h.kept hcancels hkept hstate fun hmark => ?_
      exact hcourse.marked.1 (hnext.marked.2 hmark)
    · exact hstays hcancels (congrArg Part.listed (part_step_of_ne now.1 he hne))
  | none =>
    cases e <;> simp only [Event.job?, reduceCtorEq] at he
    case submit spec names capacity keepsOutput =>
      rcases withId_enlist hknown spec names capacity now.1 with hlisted | ⟨-, hnil⟩
      · exact hstays (submit_eq hread now.1 spec names capacity keepsOutput).1 hlisted
      · rw [relist, hnil] at hafter
        cases hafter
    case cancel ids =>
      have hlisted : withId id (d.relist now.1 jobs (.cancel ids)) = [Store.mark ids jobs entry] := by
        rw [relist, Store.withId_markCanceling, hentry, List.map_singleton]
      rw [← hsame hlisted]
      exact h.planned hread hentry ids now.1
    case cancelAnswered call other node accepted =>
      rw [← hsame hentry]
      exact h.heard now.1 call other node accepted
    case cancelEnded call other =>
      rcases step_cancelEnded d jobs now.1 call other with
        ⟨hstep, hlist⟩ | ⟨c, j, hc, hj, -, -, hstep, hlist⟩
      · rw [hlist] at hsame
        rw [hstep, hlist, ← hsame hentry]
        exact h
      · rw [hlist] at hsame
        rw [hstep, hlist]
        by_cases hne : j.id = id
        · subst hne
          have hid : entry.id = j.id := (Store.mem_withId.1 (hentry ▸ List.mem_singleton_self entry)).2
          have hlisted := Store.withId_changeFirst j.id (Store.cancelEnded_id j.failed now.1) jobs
          rw [hentry, changeFirst, if_pos hid] at hlisted
          rw [← hsame hlisted]
          exact h.settled_self hread hc hj hentry now.1
        · have hlisted := Store.withId_changeFirst_of_ne hne (Store.cancelEnded_id j.failed now.1) jobs
          rw [← hsame (hlisted.trans hentry)]
          exact h.settled_of_ne hread hc hj hne now.1

/-- What an event makes of a job that it cannot drive out. -/
theorem sound_step (h : Sound id nodes marked ended d jobs entry) {e : Moment × Event}
    (hr : (d.stepAt e).store.Readable) (hkept : ¬ Evicts d e) :
    ∃ more after, Sound id nodes (marked ∨ Plans id d e)
      (fun node code => ended node code ∨ HasEnded id node code (d.stepAt e)) (d.stepAt e) more after := by
  have hjobs := jobs_stepAt h.read e hr
  have hentry : withId id jobs = [entry] := h.course.listed
  have hlisted : ∀ k, Store.find? k jobs ≠ none → Store.find? k (d.relist e.1.1 jobs e.2) ≠ none := by
    intro k hk
    rw [find?_ne_none] at hk ⊢
    obtain ⟨job, hjob, rfl⟩ := hk
    by_contra hgone
    simp only [not_exists, not_and] at hgone
    exact hkept ⟨jobs, _, h.read, hjobs, job, hjob, hgone⟩
  have hstays : withId id (d.relist e.1.1 jobs e.2) ≠ [] := fun hnil =>
    hlisted id (by simp [Store.find?_eq_some hentry]) (Store.find?_eq_none hnil)
  obtain ⟨after, hcourse⟩ := h.course.move (move_step h.read (by simp [hentry]) h.known e) hstays
  exact ⟨_, after, hjobs, Int.le_trans h.known (newestId_relist e.1.1 d jobs e.2), hcourse,
    calls_step h.calls h.read h.course h.known hlisted hcourse.listed⟩

end

/-- Along every run in which nothing is driven out, all there is of an accepted job agrees. -/
theorem sound_of_accepted {d : Dispatch} {job : Job} (hjob : d.Accepted job) {events : History}
    (hstorage : ∀ s, s <+: events → (d.runAt s).store.Readable) (hkept : ¬ d.Happens events Evicts) :
    ∃ jobs entry, Sound job.id job.nodes (d.Happens events (Plans job.id))
      (fun node code => d.Reaches events (HasEnded job.id node code)) (d.runAt events) jobs entry := by
  induction events using List.reverseRecOn with
  | nil =>
    obtain ⟨jobs, hread⟩ := hstorage [] List.prefix_rfl
    have hfresh := fresh_of_accepted hjob
    obtain ⟨keepsOutput, hrun, -⟩ := hfresh.way
    have hwaiting : ∀ t ∈ tasksOf job, t.exitCode? = none := by
      intro t ht
      simp [Task.exitCode?, tasksOf_phase job t ht]
    have hnone : ∀ node code, ¬ d.Reaches [] (HasEnded job.id node code) := by
      intro node code hreaches
      obtain ⟨run, t, hfound, ht, hcode⟩ := (reaches_nil d _).1 hreaches
      rw [hrun, Option.some.injEq] at hfound
      subst hfound
      rw [hwaiting t (mem_of_task? ht)] at hcode
      cases hcode
    refine ⟨jobs, job, hread, (hfresh.listed jobs hread).1, .accepted hjob hread (happens_nil d _) hnone, ?_⟩
    refine ⟨?_, ?_, ?_⟩
    · intro hcanceling
      rw [hfresh.state] at hcanceling
      cases hcanceling
    · intro c hc hawaits
      exact absurd hawaits (hfresh.calls c hc).1
    · intro c hc state hresult
      rw [(hfresh.calls c hc).2] at hresult
      cases hresult
  | append_singleton events e ih =>
    have hbefore : ∀ s, s <+: events → (d.runAt s).store.Readable := fun s hs =>
      hstorage s (hs.trans (List.prefix_append _ _))
    rw [happens_concat, not_or] at hkept
    obtain ⟨jobs, entry, hsound⟩ := ih hbefore hkept.1
    have hr : ((d.runAt events).stepAt e).store.Readable := by
      have hlast := hstorage (events ++ [e]) List.prefix_rfl
      rw [runAt_concat] at hlast
      exact hlast
    obtain ⟨more, after, hnext⟩ := sound_step hsound hr hkept.2
    refine ⟨more, after, ?_⟩
    have hmarked := happens_concat d events e (Plans job.id)
    have hended (node : String) (code : Int) := reaches_concat d events e (HasEnded job.id node code)
    rw [runAt_concat] at hended
    rw [propext hmarked, runAt_concat]
    simp only [hended]
    exact hnext

theorem isTerminal_of_fits {state : JobState} (h : fits none state) (hne : state ≠ .canceling) :
    state.isTerminal := by
  cases state <;> simp_all [fits, JobState.isMarked, JobState.isTerminal]

theorem isMarked_iff {state : JobState} (hne : state ≠ .canceling) :
    state.isMarked ↔ state = .canceled ∨ state = .cancelFailed := by
  cases state <;> simp_all [JobState.isMarked]

/-- How a job ends: `planned` says whether a cancellation has planned for it, and `ended` with which
codes its nodes have ended. -/
structure Outcome (job final : Job) (planned : Prop) (ended : String → Int → Prop) : Prop where
  terminal : final.state.isTerminal
  stamped : final.endTime.isSome
  cancelled : final.state = .canceled ∨ final.state = .cancelFailed ↔ planned
  completed : ¬ planned → final.state = if final.failedNodes.isEmpty then .finished else .failed
  heard : ∀ node ∈ job.nodes, ∃ code, ended node code
  unique : ∀ node code other, ended node code → ended node other → code = other
  failed : ∀ node code,
    final.failedNodes.get? node = some code ↔ node ∈ job.nodes ∧ code ≠ 0 ∧ ended node code

namespace Cancel

/-- The cancellation has planned for a job, whether the job is settled or not. -/
def Concerns (c : Cancel) (id : Int) : Prop := c.Awaits id ∨ c.results.contains id

end Cancel

/-- Once the run of an accepted job and all cancellations that concern it are over, the job has the one
outcome that its nodes and the cancellations determine, and all that report it report the same. -/
theorem outcome_of_accepted {d : Dispatch} {job : Job} (hjob : d.Accepted job) {events : History}
    (hstorage : ∀ s, s <+: events → (d.runAt s).store.Readable) (hkept : ¬ d.Happens events Evicts)
    (hrun : (d.runAt events).run? job.id = none)
    (hcalls : ∀ c ∈ (d.runAt events).cancels, c.Concerns job.id → c.outcome?.isSome) :
    ∃ jobs final, (d.runAt events).store.jobs = .ok jobs ∧ withId job.id jobs = [final] ∧
      Outcome job final (d.Happens events (Plans job.id))
        (fun node code => d.Reaches events (HasEnded job.id node code)) ∧
      ∀ c ∈ (d.runAt events).cancels, ∀ results state, c.outcome? = some (.ok results) →
        results.get? job.id = some state → state = final.state := by
  obtain ⟨jobs, final, hsound⟩ := sound_of_accepted hjob hstorage hkept
  have hcourse := hsound.course
  obtain ⟨hget, hheard, hcompleted⟩ := hcourse.codes hrun
  have hfits := hcourse.fits
  change Dispatch.fits (((d.runAt events).run? job.id).map Run.phase) final.state at hfits
  rw [hrun] at hfits
  -- A job that is still being cancelled is awaited by a call that has not returned.
  have hsettled : final.state ≠ .canceling := by
    intro hcanceling
    obtain ⟨c, hc, hawaits⟩ := hsound.calls.awaited hcanceling
    have hreturned := hcalls c hc (.inl hawaits)
    obtain ⟨-, hopen, -⟩ := hsound.calls.awaits c hc hawaits
    obtain ⟨j, hj, -⟩ := hawaits
    have hjobs : c.jobs ≠ [] := List.ne_nil_of_mem hj
    simp [Cancel.outcome?, hopen, hjobs] at hreturned
  have hterminal := isTerminal_of_fits hfits hsettled
  refine ⟨jobs, final, hsound.read, hcourse.listed, ⟨hterminal, ?_, ?_, ?_, hheard, hcourse.unique,
    hget⟩, ?_⟩
  · rw [hcourse.stamped]
    exact hterminal
  · exact (hcourse.marked.trans (isMarked_iff hsettled)).symm
  · intro hnot
    refine hcompleted ?_
    rw [hcourse.marked] at hnot
    simpa using hnot
  · intro c hc results state houtcome hresult
    rw [← Cancel.results_of_outcome houtcome] at hresult
    exact (hsound.calls.results c hc state hresult).1.symm

/-- A job on two nodes. -/
def pair : Dispatch := (idle.submit { command := "c", nodes := ["A", "B"] } ["A", "B"] 1 false epoch.1).1

/-- One node refuses the job, and the other ends while the job is being cancelled. -/
def race : History :=
  [.begin 1, .answered 1 "A" true, .answered 1 "B" false, .launch 1, .cancel (SortedSet.ofList [1]),
    .cancelAnswered 0 1 "B" true, .reply 1 "A" { exitCode := some 3 }, .ended 1 "A", .finish 1,
    .cancelAnswered 0 1 "A" true, .cancelEnded 0 1].map fun e => (epoch, e)

theorem outcome_of_race :
    ∃ jobs final, (pair.runAt race).store.jobs = .ok jobs ∧ withId 1 jobs = [final] ∧
      Outcome (Job.new 1 { command := "c", nodes := ["A", "B"] } ["A", "B"] epoch.1) final
        (pair.Happens race (Plans 1)) (fun node code => pair.Reaches race (HasEnded 1 node code)) ∧
      ∀ c ∈ (pair.runAt race).cancels, ∀ results state, c.outcome? = some (.ok results) →
        results.get? 1 = some state → state = final.state := by
  have hjob : pair.Accepted (Job.new 1 { command := "c", nodes := ["A", "B"] } ["A", "B"] epoch.1) :=
    ⟨idle, .plain, ["A", "B"], ∅, { command := "c", nodes := ["A", "B"] }, false, ["A", "B"], 1, false, epoch,
      ⟨_, [], rfl⟩, by decide +kernel, Prod.ext rfl (by decide +kernel)⟩
  have hread : (pair.runAt race).store.Readable := Store.readable_of_isSome (by decide +kernel)
  have hreturned : (pair.runAt race).cancels.all fun c => c.outcome?.isSome := by decide +kernel
  exact outcome_of_accepted hjob (fun s hs => readable_of_runAt hs hread)
    (not_happens_evicts (by simp [race])) (by decide +kernel)
    fun c hc _ => List.all_eq_true.1 hreturned c hc

end Muster.Dispatch
