import Muster.Proofs.Opening
import Muster.Proofs.Outcome

/-!
# Cancellations that nobody ends

A job that is being cancelled is attended by a call that has planned for it and has still to settle it. A call
settles its jobs one by one, and gives up where it comes to one that is not in the list any more, because
another call has settled it first and a submission has driven it out. The other jobs of the call then stay
as they are, unless another call attends them too.
-/

namespace Muster

namespace Dispatch

open Store (withId newestId enlist markCanceling changeFirst cancelEnded marks)

namespace Cancel

/-- The call is running, has planned to cancel a job, and has still to settle it. -/
def Attends (c : Cancel) (id : Int) : Prop := c.outcome? = none ∧ c.Awaits id

/-- The call has given up, or still has to settle a job that is not in the list. -/
def Lacks (c : Cancel) (jobs : List Job) : Prop :=
  c.fault.isSome ∨ ∃ id, c.Awaits id ∧ Store.find? id jobs = none

theorem outcome?_eq_none {c : Cancel} {id : Int} (hfault : c.fault = none) (h : c.Awaits id) :
    c.outcome? = none := by
  obtain ⟨j, hj, -⟩ := h
  have hjobs : c.jobs ≠ [] := List.ne_nil_of_mem hj
  simp [outcome?, hfault, hjobs]

end Cancel

/-- A job of the list is being cancelled. -/
def IsCanceling (id : Int) (d : Dispatch) : Prop :=
  ∃ jobs, d.store.jobs = .ok jobs ∧ ∃ job ∈ jobs, job.id = id ∧ job.state = .canceling

/-- A job is being cancelled, and was not left so when the store was opened, but no call attends it. -/
def Orphans (old : List Job) (id : Int) (d : Dispatch) : Prop :=
  IsCanceling id d ∧ ¬ IsLeft old id ∧ ∀ c ∈ d.cancels, ¬ c.Attends id

/-- A call gives up: it comes to settle a job that is not in the list any more. -/
def GivesUp (call : Nat) (d : Dispatch) (e : Moment × Event) : Prop :=
  ∃ c j jobs, e.2 = .cancelEnded call j.id ∧ d.cancels[call]? = some c ∧
    (c.jobs.find? fun k => k.id == j.id) = some j ∧ j.waiting = [] ∧ d.store.jobs = .ok jobs ∧
      Store.find? j.id jobs = none

/-- A call gives up that alone attended a job. -/
def Strands (old : List Job) (id : Int) (d : Dispatch) (e : Moment × Event) : Prop :=
  IsCanceling id d ∧ ¬ IsLeft old id ∧ ∃ call, GivesUp call d e ∧
    (∃ c, d.cancels[call]? = some c ∧ c.Attends id) ∧
      ∀ other c, other ≠ call → d.cancels[other]? = some c → ¬ c.Attends id

/-- A submission drives out a job that a call attends. -/
def Overtakes (call : Nat) (d : Dispatch) (e : Moment × Event) : Prop :=
  ∃ c id jobs spec nodes capacity keepsOutput kept evicted, d.cancels[call]? = some c ∧ c.Attends id ∧
    d.store.jobs = .ok jobs ∧ e.2 = .submit spec nodes capacity keepsOutput ∧
      Store.evict jobs capacity = .ok (kept, evicted) ∧ id ∈ evicted

/-- The calls go with the list: one that has jobs to settle has not given up, and its jobs were listed. -/
structure Attended (d : Dispatch) (jobs : List Job) : Prop where
  running : ∀ c ∈ d.cancels, ∀ id, c.Awaits id → c.fault = none
  known : ∀ c ∈ d.cancels, ∀ id, c.Awaits id → id ≤ newestId jobs

section

variable {d : Dispatch} {jobs old : List Job} {id : Int} {e : Moment × Event}

theorem Attended.attends_iff (h : Attended d jobs) {c : Cancel} (hc : c ∈ d.cancels) (id : Int) :
    c.Attends id ↔ c.Awaits id :=
  ⟨And.right, fun hawaits => ⟨Cancel.outcome?_eq_none (h.running c hc id hawaits) hawaits, hawaits⟩⟩

theorem Attended.step (h : Attended d jobs) (hread : d.store.jobs = .ok jobs) (e : Moment × Event) :
    Attended (d.stepAt e) (d.relist e.1.1 jobs e.2) := by
  have hnewest := newestId_relist e.1.1 d jobs e.2
  have hboth : ∀ c ∈ (d.stepAt e).cancels, ∀ id, c.Awaits id → c.fault = none ∧ id ≤ newestId jobs := by
    intro c hmem id hawaits
    cases origin_of_mem e.1.1 hmem with
    | kept hc => exact ⟨h.running c hc id hawaits, h.known c hc id hawaits⟩
    | begun _ hlisted =>
      rw [hread, Except.ok.injEq] at hlisted
      subst hlisted
      rw [Cancel.awaits_ofPlan, Store.contains_plan] at hawaits
      obtain ⟨job, hjob, -⟩ := hawaits
      obtain ⟨hlisted, hid⟩ := Store.mem_withId.1 hjob
      exact ⟨rfl, hid ▸ Store.le_newestId hlisted⟩
    | @heard _ _ _ _ before _ hc =>
      rw [Cancel.awaits_heard] at hawaits
      exact ⟨h.running before hc id hawaits, h.known before hc id hawaits⟩
    | @settled _ before j _ _ hc =>
      have hbefore := (Cancel.awaits_of_settled hawaits).1
      refine ⟨?_, h.known before hc id hbefore⟩
      unfold Cancel.settled at hawaits ⊢
      split at hawaits
      · obtain ⟨k, hk, -⟩ := hawaits
        cases hk
      · exact h.running before hc id hbefore
    | broken =>
      obtain ⟨k, hk, -⟩ := hawaits
      cases hk
  exact ⟨fun c hc id hawaits => (hboth c hc id hawaits).1,
    fun c hc id hawaits => Int.le_trans (hboth c hc id hawaits).2 hnewest⟩

/-! ### Jobs without a call -/

/-- The end of a cancellation of a job does nothing, or settles the job in its call. -/
theorem cases_cancelEnded (h : d.store.jobs = .ok jobs) (now : Time) (call : Nat) (other : Int) :
    step now d (.cancelEnded call other) = d ∧ d.relist now jobs (.cancelEnded call other) = jobs ∨
      ∃ c j, j.id = other ∧ d.cancels[call]? = some c ∧ (c.jobs.find? fun k => k.id == j.id) = some j ∧
        j.waiting = [] ∧
        (step now d (.cancelEnded call other)).cancels = d.cancels.set call (c.settled jobs now j) ∧
        d.relist now jobs (.cancelEnded call other) = changeFirst j.id (cancelEnded j.failed now) jobs := by
  cases hc : d.cancels[call]? with
  | none => exact .inl (by simp only [step, relist, hc, and_self])
  | some c =>
    cases hj : c.jobs.find? fun j => j.id == other with
    | none => exact .inl (by simp only [step, relist, hc, hj, and_self])
    | some j =>
      obtain rfl : j.id = other := by simpa using List.find?_some hj
      by_cases hw : j.waiting.isEmpty
      · refine .inr ⟨c, j, rfl, rfl, hj, by simpa using hw, ?_⟩
        simp only [step, relist, hc, hj, if_pos hw, cancels_settle h, and_self]
      · exact .inl (by simp only [step, relist, hc, hj, if_neg hw, and_self])

theorem changeFirst_of_find?_eq_none {f : Job → Job} (h : Store.find? id jobs = none) :
    changeFirst id f jobs = jobs := by
  induction jobs with
  | nil => rfl
  | cons job rest ih =>
    by_cases hid : job.id = id
    · simp [Store.find?, hid] at h
    · rw [changeFirst, if_neg hid, ih (by simpa [Store.find?, hid] using h)]

/-- What a call that gives up makes of the state. -/
theorem stepAt_of_givesUp {call : Nat} (h : GivesUp call d e) (hread : d.store.jobs = .ok jobs) :
    d.relist e.1.1 jobs e.2 = jobs ∧
      ∃ (c : Cancel) (fault : Fault),
        (d.stepAt e).cancels = d.cancels.set call { c with jobs := [], fault := some fault } := by
  obtain ⟨c, j, listed, he, hc, hj, hw, hlisted, hnone⟩ := h
  rw [hread, Except.ok.injEq] at hlisted
  subst hlisted
  have hwaiting : j.waiting.isEmpty := by simp [hw]
  refine ⟨?_, c, .unknownJob j.id, ?_⟩
  · rw [he]
    simp only [relist, hc, hj, if_pos hwaiting]
    exact changeFirst_of_find?_eq_none hnone
  · rw [stepAt, he]
    simp only [step, hc, hj, if_pos hwaiting]
    rw [cancels_settle hread, Cancel.settled, hnone]

/-- A job that is being cancelled stays so when a call gives up, and nobody attends it if no other call
does. -/
theorem orphans_of_strands (h : Inherits old d jobs) (hr : (d.stepAt e).store.Readable)
    (hstrands : Strands old id d e) : Orphans old id (d.stepAt e) := by
  obtain ⟨⟨listed, hlisted, job, hjob, hid, hstate⟩, hleft, call, hgives, -, hother⟩ := hstrands
  rw [h.read, Except.ok.injEq] at hlisted
  subst hlisted
  obtain ⟨hsame, c, fault, hcancels⟩ := stepAt_of_givesUp hgives h.read
  have hafter := jobs_stepAt h.read e hr
  rw [hsame] at hafter
  refine ⟨⟨jobs, hafter, job, hjob, hid, hstate⟩, hleft, ?_⟩
  intro c' hc' hattends
  rw [hcancels] at hc'
  obtain ⟨i, hi⟩ := List.getElem?_of_mem hc'
  by_cases hcall : call = i
  · subst hcall
    obtain ⟨_, rfl⟩ : _ ∧ { c with jobs := [], fault := some fault } = c' := by
      simpa [List.getElem?_set] using hi
    obtain ⟨k, hk, -⟩ := hattends.2
    cases hk
  · rw [List.getElem?_set_ne hcall] at hi
    exact hother i c' (Ne.symm hcall) hi hattends

/-- An active job that was not left when the store was opened is listed once. -/
theorem Inherits.listed_once (h : Inherits old d jobs) {job : Job} (hjob : job ∈ jobs)
    (hactive : job.state.isActive) (hleft : ¬ IsLeft old job.id) : withId job.id jobs = [job] := by
  refine singleton_of_mem (h.single job.id ?_) (Store.mem_withId.2 ⟨hjob, rfl⟩)
  by_contra hle
  exact hleft (h.active job hjob (by omega) hactive)

/-- A job that a call settles is not being cancelled any more. -/
theorem Inherits.not_canceling (h : Inherits old d jobs) (hleft : ¬ IsLeft old id) (failed : List String)
    (now : Time) {job : Job} (hjob : job ∈ changeFirst id (cancelEnded failed now) jobs) (hid : job.id = id) :
    job.state ≠ .canceling := by
  intro hstate
  have hkeeps := Store.cancelEnded_id failed now
  have hbefore : ∃ before ∈ jobs, before.id = id ∧ before.state = .canceling := by
    rcases Store.mem_changeFirst hjob with hjob | ⟨found, hfound, rfl⟩
    · exact ⟨job, hjob, hid, hstate⟩
    · obtain ⟨hmem, hname⟩ := Store.find?_mem hfound
      refine ⟨found, hmem, hname, ?_⟩
      rcases Store.cancelEnded_state failed now found with hsame | ⟨hwas, -⟩
      · exact hsame.symm.trans hstate
      · exact hwas
  obtain ⟨before, hmem, rfl, hwas⟩ := hbefore
  have hactive : before.state.isActive := by simp [hwas, JobState.isActive]
  have hlisted := Store.withId_changeFirst_self hkeeps (h.listed_once hmem hactive hleft)
  have hsame : job = cancelEnded failed now before := by
    have hin := Store.mem_withId.2 ⟨hjob, hid⟩
    rw [hlisted] at hin
    exact List.mem_singleton.1 hin
  rw [hsame, cancelEnded, if_pos hwas] at hstate
  split at hstate <;> cases hstate

/-- A call that awaits a job goes on to do so, unless it settles the job or gives up. -/
theorem givesUp_of_lost (h : Inherits old d jobs) {call : Nat} {c : Cancel} (hc : d.cancels[call]? = some c)
    (hawaits : c.Awaits id) (hleft : ¬ IsLeft old id)
    (hcanceling : ∃ job ∈ d.relist e.1.1 jobs e.2, job.id = id ∧ job.state = .canceling)
    (hlost : ∀ c ∈ (d.stepAt e).cancels, ¬ c.Awaits id) : GivesUp call d e := by
  have hmem := List.mem_of_getElem? hc
  have hstays {l : List Cancel} (hcancels : (d.stepAt e).cancels = l) (hin : ∃ c ∈ l, c.Awaits id) :
      GivesUp call d e := by
    obtain ⟨c', hc', hawaits'⟩ := hin
    exact absurd hawaits' (hlost c' (hcancels ▸ hc'))
  obtain ⟨now, e⟩ := e
  cases he : e.job? with
  | some other => exact hstays (cancels_step now.1 he) ⟨c, hmem, hawaits⟩
  | none =>
    cases e <;> simp only [Event.job?, reduceCtorEq] at he
    case submit spec nodes capacity keepsOutput =>
      exact hstays (submit_eq h.read now.1 spec nodes capacity keepsOutput).1 ⟨c, hmem, hawaits⟩
    case cancel ids =>
      exact hstays (cancels_cancel h.read now.1 ids) ⟨c, List.mem_append_left _ hmem, hawaits⟩
    case cancelAnswered other k node accepted =>
      cases hother : d.cancels[other]? with
      | none => exact hstays (by simp only [stepAt, step, hother]) ⟨c, hmem, hawaits⟩
      | some before =>
        have hcancels : (d.stepAt (now, .cancelAnswered other k node accepted)).cancels =
            d.cancels.set other (before.heard k node accepted) := by
          simp only [stepAt, step, hother]
          rfl
        refine hstays hcancels ?_
        have hgoes := (Cancel.awaits_heard before k node accepted id).2
        exact Calls.exists_awaits_set hother hgoes ⟨c, hmem, hawaits⟩
    case cancelEnded other k =>
      rcases cases_cancelEnded h.read now.1 other k with
        ⟨hsame, -⟩ | ⟨before, j, rfl, hbefore, hj, hw, hcancels, hlist⟩
      · exact hstays (congrArg Dispatch.cancels hsame) ⟨c, hmem, hawaits⟩
      · by_cases hcall : other = call
        · subst hcall
          rw [hc, Option.some.injEq] at hbefore
          subst hbefore
          by_cases hlisted : Store.find? j.id jobs = none
          · exact ⟨c, j, jobs, rfl, hc, hj, hw, h.read, hlisted⟩
          · -- The call has more to do, unless it has settled this job, which is over then.
            have hother : id ≠ j.id := by
              rintro rfl
              obtain ⟨job, hjob, hid, hstate⟩ := hcanceling
              rw [hlist] at hjob
              exact h.not_canceling hleft j.failed now.1 hjob hid hstate
            have hgoes : (c.settled jobs now.1 j).Awaits id := Cancel.awaits_settled hlisted hawaits hother
            exact hstays hcancels (Calls.exists_awaits_set hc (fun _ => hgoes) ⟨c, hmem, hawaits⟩)
        · refine hstays hcancels ⟨c, ?_, hawaits⟩
          exact List.mem_of_getElem? ((List.getElem?_set_ne hcall).trans hc)

/-- A job becomes an orphan only where a call gives up that alone attended it. -/
theorem orphans_or_strands (h : Inherits old d jobs) (hd : Attended d jobs)
    (hr : (d.stepAt e).store.Readable) (horphans : Orphans old id (d.stepAt e)) :
    Orphans old id d ∨ Strands old id d e := by
  obtain ⟨⟨after, hafter, job, hjob, rfl, hstate⟩, hleft, hnobody⟩ := horphans
  rw [jobs_stepAt h.read e hr, Except.ok.injEq] at hafter
  subst hafter
  have hlost : ∀ c ∈ (d.stepAt e).cancels, ¬ c.Awaits job.id := by
    intro c hc hawaits
    exact hnobody c hc (((hd.step h.read e).attends_iff hc job.id).2 hawaits)
  rcases canceling_of_relist hjob hstate with
    ⟨before, hbefore, hid, hwas⟩ | ⟨ids, he, before, hbefore, hid, hmarks⟩
  · have hcanceling : IsCanceling job.id d := ⟨jobs, h.read, before, hbefore, hid, hwas⟩
    have hgives {call : Nat} {c : Cancel} (hc : d.cancels[call]? = some c) (hattends : c.Attends job.id) :
        GivesUp call d e := givesUp_of_lost h hc hattends.2 hleft ⟨job, hjob, rfl, hstate⟩ hlost
    by_cases hattended : ∃ c ∈ d.cancels, c.Attends job.id
    · obtain ⟨c, hc, hattends⟩ := hattended
      obtain ⟨call, hcall⟩ := List.getElem?_of_mem hc
      refine .inr ⟨hcanceling, hleft, call, hgives hcall hattends, ⟨c, hcall, hattends⟩, ?_⟩
      -- One event belongs to one call, so no other call gives up with it.
      intro other c' hne hother hattends'
      obtain ⟨_, _, _, he, -⟩ := hgives hcall hattends
      obtain ⟨_, _, _, he', -⟩ := hgives hother hattends'
      rw [he', Event.cancelEnded.injEq] at he
      exact hne he.1
    · exact .inl ⟨hcanceling, hleft, fun c hc hattends => hattended ⟨c, hc, hattends⟩⟩
  · -- The call that marks the job attends it.
    refine absurd ?_ (hlost (.ofPlan (markCanceling ids jobs).2) ?_)
    · rw [Cancel.awaits_ofPlan, Store.contains_plan]
      exact ⟨before, Store.mem_withId.2 ⟨hbefore, hid⟩, hmarks⟩
    · rw [stepAt, he, cancels_cancel h.read]
      simp

/-! ### Calls that give up -/

theorem find?_eq_none_iff (id : Int) (jobs : List Job) :
    Store.find? id jobs = none ↔ id ∉ jobs.map Job.id := by
  simp [Store.find?]

/-- Only a submission changes which jobs a call lacks. -/
theorem find?_relist_eq_none_iff (now : Time) {e : Event}
    (he : ∀ spec nodes capacity keepsOutput, e ≠ .submit spec nodes capacity keepsOutput) (id : Int) :
    Store.find? id (d.relist now jobs e) = none ↔ Store.find? id jobs = none := by
  rw [find?_eq_none_iff, find?_eq_none_iff, map_id_relist now d jobs he]

theorem Cancel.lacks_congr {c c' : Cancel} {more : List Job} (hfault : c'.fault = c.fault)
    (hawaits : ∀ id, c'.Awaits id ↔ c.Awaits id)
    (hlisted : ∀ id, Store.find? id more = none ↔ Store.find? id jobs = none) :
    c'.Lacks more ↔ c.Lacks jobs := by
  simp only [Cancel.Lacks, hfault, hawaits, hlisted]

/-- A call that settles a job goes on to lack what it lacked, the job included. -/
theorem Cancel.lacks_settled {c : Cancel} {j : CancelJob} (hj : j ∈ c.jobs) {now : Time} {more : List Job}
    (hlisted : ∀ id, Store.find? id more = none ↔ Store.find? id jobs = none) :
    (c.settled jobs now j).Lacks more ↔ c.Lacks jobs := by
  cases hfind : Store.find? j.id jobs with
  | none =>
    have hafter : (c.settled jobs now j).Lacks more := by simp [Cancel.Lacks, Cancel.settled, hfind]
    exact iff_of_true hafter (.inr ⟨j.id, ⟨j, hj, rfl⟩, hfind⟩)
  | some entry =>
    have hfault : (c.settled jobs now j).fault = c.fault := by simp [Cancel.settled, hfind]
    simp only [Cancel.Lacks, hfault, hlisted]
    refine or_congr Iff.rfl ⟨?_, ?_⟩
    · rintro ⟨id, hawaits, hnone⟩
      exact ⟨id, (Cancel.awaits_of_settled hawaits).1, hnone⟩
    · rintro ⟨id, hawaits, hnone⟩
      have hne : id ≠ j.id := by
        rintro rfl
        rw [hfind] at hnone
        cases hnone
      exact ⟨id, Cancel.awaits_settled (by simp [hfind]) hawaits hne, hnone⟩

/-- A call that has just begun lacks none of its jobs. -/
theorem not_lacks_ofPlan (ids : JobIds) : ¬ (Cancel.ofPlan (markCanceling ids jobs).2).Lacks jobs := by
  rintro (hfault | ⟨id, hawaits, hnone⟩)
  · cases hfault
  · rw [Cancel.awaits_ofPlan, Store.contains_plan] at hawaits
    obtain ⟨job, hjob, -⟩ := hawaits
    obtain ⟨hmem, hid⟩ := Store.mem_withId.1 hjob
    exact find?_ne_none.2 ⟨job, hmem, hid⟩ hnone

/-- One of the calls has given up, or will. -/
def Lacking (call : Nat) (d : Dispatch) (jobs : List Job) : Prop :=
  ∃ c, d.cancels[call]? = some c ∧ c.Lacks jobs

theorem lacking_of_set {d' : Dispatch} {more : List Job} {call other : Nat} {before after : Cancel}
    (hbefore : d.cancels[other]? = some before) (hcancels : d'.cancels = d.cancels.set other after)
    (hafter : after.Lacks more ↔ before.Lacks jobs)
    (hlisted : ∀ id, Store.find? id more = none ↔ Store.find? id jobs = none) :
    Lacking call d' more ↔ Lacking call d jobs := by
  unfold Lacking
  rw [hcancels]
  by_cases hcall : other = call
  · subst hcall
    have hlt : other < d.cancels.length := (List.getElem?_eq_some_iff.1 hbefore).1
    rw [List.getElem?_set_self hlt, hbefore]
    simpa using hafter
  · rw [List.getElem?_set_ne hcall]
    simp only [Cancel.Lacks, hlisted]

theorem lacking_of_append (call : Nat) {d' : Dispatch} {more : List Job} {c : Cancel}
    (hcancels : d'.cancels = d.cancels ++ [c]) (hc : ¬ c.Lacks more) :
    Lacking call d' more ↔ Lacking call d more := by
  unfold Lacking
  rw [hcancels]
  constructor
  · rintro ⟨other, hother, hlacks⟩
    rw [List.getElem?_append] at hother
    split at hother
    · exact ⟨other, hother, hlacks⟩
    · rw [List.mem_singleton.1 (List.mem_of_getElem? hother)] at hlacks
      exact absurd hlacks hc
  · rintro ⟨other, hother, hlacks⟩
    exact ⟨other, by rw [List.getElem?_append_left (List.getElem?_eq_some_iff.1 hother).1, hother], hlacks⟩

/-- A call comes to lack a job exactly where a submission drives the job out. -/
theorem lacking_submit (h : Inherits old d jobs) (hd : Attended d jobs) (call : Nat) {spec : JobSpec}
    {nodes : List String} {capacity : Nat} {keepsOutput : Bool}
    (he : e.2 = .submit spec nodes capacity keepsOutput) :
    Lacking call (d.stepAt e) (d.relist e.1.1 jobs e.2) ↔ Lacking call d jobs ∨ Overtakes call d e := by
  have hcancels : (d.stepAt e).cancels = d.cancels := by
    rw [stepAt, he]
    exact (submit_eq h.read e.1.1 spec nodes capacity keepsOutput).1
  have hgone {id : Int} (hid : id ≤ newestId jobs) : Store.find? id (d.relist e.1.1 jobs e.2) = none ↔
      Store.find? id jobs = none ∨
        ∃ kept evicted, Store.evict jobs capacity = .ok (kept, evicted) ∧ id ∈ evicted := by
    rw [he, relist]
    cases hev : Store.evict jobs capacity with
    | error fault => simp [Store.enlist, hev]
    | ok r =>
      obtain ⟨kept, evicted⟩ := r
      rw [Store.find?_eq_head?, withId_enlist_of_evict hid hev, Store.find?_eq_head?]
      split <;> simp_all
  constructor
  · rintro ⟨c, hc, hlacks⟩
    rw [hcancels] at hc
    have hmem := List.mem_of_getElem? hc
    rcases hlacks with hfault | ⟨id, hawaits, hnone⟩
    · exact .inl ⟨c, hc, .inl hfault⟩
    · rcases (hgone (hd.known c hmem id hawaits)).1 hnone with hnone | ⟨kept, evicted, hev, hid⟩
      · exact .inl ⟨c, hc, .inr ⟨id, hawaits, hnone⟩⟩
      · exact .inr ⟨c, id, jobs, spec, nodes, capacity, keepsOutput, kept, evicted, hc,
          (hd.attends_iff hmem id).2 hawaits, h.read, he, hev, hid⟩
  · rintro (⟨c, hc, hfault | ⟨id, hawaits, hnone⟩⟩ | hover)
    · exact ⟨c, hcancels ▸ hc, .inl hfault⟩
    · have hknown := hd.known c (List.mem_of_getElem? hc) id hawaits
      exact ⟨c, hcancels ▸ hc, .inr ⟨id, hawaits, (hgone hknown).2 (.inl hnone)⟩⟩
    · obtain ⟨c, id, listed, spec', nodes', capacity', keepsOutput', kept, evicted, hc, hattends, hread, he',
        hev, hid⟩ := hover
      rw [h.read, Except.ok.injEq] at hread
      subst hread
      rw [he, Event.submit.injEq] at he'
      obtain ⟨-, -, rfl, -⟩ := he'
      have hknown := hd.known c (List.mem_of_getElem? hc) id hattends.2
      exact ⟨c, hcancels ▸ hc, .inr ⟨id, hattends.2, (hgone hknown).2 (.inr ⟨kept, evicted, hev, hid⟩)⟩⟩

theorem lacking_stepAt (h : Inherits old d jobs) (hd : Attended d jobs) (call : Nat) (e : Moment × Event) :
    Lacking call (d.stepAt e) (d.relist e.1.1 jobs e.2) ↔ Lacking call d jobs ∨ Overtakes call d e := by
  by_cases hsubmit : ∃ spec nodes capacity keepsOutput, e.2 = .submit spec nodes capacity keepsOutput
  · obtain ⟨spec, nodes, capacity, keepsOutput, he⟩ := hsubmit
    exact lacking_submit h hd call he
  · simp only [not_exists] at hsubmit
    have hno : ¬ Overtakes call d e := by
      rintro ⟨_, _, _, spec, nodes, capacity, keepsOutput, _, _, _, _, _, he, -⟩
      exact hsubmit spec nodes capacity keepsOutput he
    have hlisted : ∀ id, Store.find? id (d.relist e.1.1 jobs e.2) = none ↔ Store.find? id jobs = none :=
      find?_relist_eq_none_iff e.1.1 hsubmit
    rw [or_iff_left hno]
    have hstays (hcancels : (d.stepAt e).cancels = d.cancels) :
        Lacking call (d.stepAt e) (d.relist e.1.1 jobs e.2) ↔ Lacking call d jobs := by
      simp only [Lacking, hcancels, Cancel.Lacks, hlisted]
    obtain ⟨now, e⟩ := e
    cases he : e.job? with
    | some other => exact hstays (cancels_step now.1 he)
    | none =>
      cases e <;> simp only [Event.job?, reduceCtorEq] at he
      case submit spec nodes capacity keepsOutput => exact absurd rfl (hsubmit spec nodes capacity keepsOutput)
      case cancel ids =>
        have hnew :
            ¬ (Cancel.ofPlan (markCanceling ids jobs).2).Lacks (d.relist now.1 jobs (.cancel ids)) := by
          rw [Cancel.lacks_congr rfl (fun _ => Iff.rfl) hlisted]
          exact not_lacks_ofPlan ids
        have hsame := lacking_of_append call (cancels_cancel h.read now.1 ids) hnew
        exact hsame.trans (by simp only [Lacking, Cancel.Lacks, hlisted])
      case cancelAnswered other k node accepted =>
        cases hother : d.cancels[other]? with
        | none => exact hstays (by simp only [stepAt, step, hother])
        | some before =>
          have hcancels : (d.stepAt (now, .cancelAnswered other k node accepted)).cancels =
              d.cancels.set other (before.heard k node accepted) := by
            simp only [stepAt, step, hother]
            rfl
          have hafter : (before.heard k node accepted).Lacks jobs ↔ before.Lacks jobs :=
            Cancel.lacks_congr rfl (Cancel.awaits_heard before k node accepted) fun _ => Iff.rfl
          exact lacking_of_set hother hcancels hafter hlisted
      case cancelEnded other k =>
        rcases cases_cancelEnded h.read now.1 other k with
          ⟨hsame, -⟩ | ⟨before, j, rfl, hbefore, hj, -, hcancels, -⟩
        · exact hstays (congrArg Dispatch.cancels hsame)
        · exact lacking_of_set hbefore hcancels
            (Cancel.lacks_settled (List.mem_of_find?_eq_some hj) hlisted) hlisted

end

/-! ### Whole runs -/

/-- What holds at every time of a run since the store was opened. -/
theorem attended_of_opened {store opened : Store} {old : List Job} (hopen : store.recover = (opened, .ok ()))
    (hold : opened.jobs = .ok old) {events : History}
    (hstorage : ∀ s, s <+: events → (runAt { store := opened } s).store.Readable) :
    ∃ jobs, Inherits old (runAt { store := opened } events) jobs ∧
      Attended (runAt { store := opened } events) jobs ∧
      ∀ call, Lacking call (runAt { store := opened } events) jobs ↔
        Happens { store := opened } events (Overtakes call) := by
  induction events using List.reverseRecOn with
  | nil =>
    refine ⟨old, inherits_of_opened hopen hold, ⟨?_, ?_⟩, ?_⟩
    · simp
    · simp
    · intro call
      simp [Lacking]
  | append_singleton events e ih =>
    have hbefore : ∀ s, s <+: events → (runAt { store := opened } s).store.Readable := fun s hs =>
      hstorage s (hs.trans (List.prefix_append _ _))
    obtain ⟨jobs, hinherits, hattended, hlacking⟩ := ih hbefore
    have hr := hstorage (events ++ [e]) List.prefix_rfl
    rw [runAt_concat] at hr ⊢
    refine ⟨_, hinherits.step hr, hattended.step hinherits.read e, ?_⟩
    intro call
    rw [lacking_stepAt hinherits hattended, hlacking, happens_concat]

section

variable {store opened : Store} {old : List Job} {events : History}

/-- A job is an orphan at some time exactly if a call gave up that alone attended it. -/
theorem reaches_orphans_iff (hopen : store.recover = (opened, .ok ())) (hold : opened.jobs = .ok old)
    (hstorage : ∀ s, s <+: events → (runAt { store := opened } s).store.Readable) (id : Int) :
    Reaches { store := opened } events (Orphans old id) ↔
      Happens { store := opened } events (Strands old id) := by
  induction events using List.reverseRecOn with
  | nil =>
    have hnone : ¬ Orphans old id { store := opened } := by
      rintro ⟨⟨jobs, hjobs, job, hjob, hid, hstate⟩, hleft, -⟩
      rw [hold, Except.ok.injEq] at hjobs
      subst hjobs
      exact hleft ⟨job, hjob, hid, hstate⟩
    rw [reaches_nil]
    exact iff_of_false hnone (happens_nil _ _)
  | append_singleton events e ih =>
    have hbefore : ∀ s, s <+: events → (runAt { store := opened } s).store.Readable := fun s hs =>
      hstorage s (hs.trans (List.prefix_append _ _))
    obtain ⟨jobs, hinherits, hattended, -⟩ := attended_of_opened hopen hold hbefore
    have hr := hstorage (events ++ [e]) List.prefix_rfl
    rw [reaches_concat, happens_concat, ih hbefore]
    rw [runAt_concat] at hr ⊢
    constructor
    · rintro (h | horphans)
      · exact .inl h
      · rcases orphans_or_strands hinherits hattended hr horphans with horphans | hstrands
        · exact .inl ((ih hbefore).1 ⟨events, List.prefix_rfl, horphans⟩)
        · exact .inr hstrands
    · rintro (h | hstrands)
      · exact .inl h
      · exact .inr (orphans_of_strands hinherits hr hstrands)

/-- A call gives up only after a submission has driven out one of its jobs. -/
theorem overtaken_of_givesUp (hopen : store.recover = (opened, .ok ())) (hold : opened.jobs = .ok old)
    (hstorage : ∀ s, s <+: events → (runAt { store := opened } s).store.Readable) {call : Nat}
    (h : Happens { store := opened } events (GivesUp call)) :
    Happens { store := opened } events (Overtakes call) := by
  obtain ⟨s, e, hs, c, j, listed, -, hc, hj, -, hlisted, hnone⟩ := h
  have hprefix : s <+: events := (List.prefix_append _ _).trans hs
  have hread : ∀ t, t <+: s → (runAt { store := opened } t).store.Readable := fun t ht =>
    hstorage t (ht.trans hprefix)
  obtain ⟨jobs, hinherits, -, hlacking⟩ := attended_of_opened hopen hold hread
  rw [hinherits.read, Except.ok.injEq] at hlisted
  subst hlisted
  have hawaits : c.Awaits j.id := ⟨j, List.mem_of_find?_eq_some hj, rfl⟩
  obtain ⟨t, e', ht, hover⟩ := (hlacking call).1 ⟨c, hc, .inr ⟨j.id, hawaits, hnone⟩⟩
  exact ⟨t, e', ht.trans hprefix, hover⟩

/-- A call that has returned tells a fault exactly if a submission has driven out one of its jobs. -/
theorem fault_iff_overtaken (hopen : store.recover = (opened, .ok ())) (hold : opened.jobs = .ok old)
    (hstorage : ∀ s, s <+: events → (runAt { store := opened } s).store.Readable) {call : Nat} {c : Cancel}
    (hc : (runAt { store := opened } events).cancels[call]? = some c) (hreturned : c.outcome?.isSome) :
    (∃ fault, c.outcome? = some (.error fault)) ↔ Happens { store := opened } events (Overtakes call) := by
  obtain ⟨jobs, -, -, hlacking⟩ := attended_of_opened hopen hold hstorage
  rw [← hlacking call]
  cases hfault : c.fault with
  | some fault =>
    have houtcome : c.outcome? = some (.error fault) := by simp [Cancel.outcome?, hfault]
    exact iff_of_true ⟨fault, houtcome⟩ ⟨c, hc, .inl (by simp [hfault])⟩
  | none =>
    have hjobs : c.jobs = [] := by
      by_contra hne
      simp [Cancel.outcome?, hfault, hne] at hreturned
    have houtcome : c.outcome? = some (.ok c.results) := by simp [Cancel.outcome?, hfault, hjobs]
    refine iff_of_false (by simp [houtcome]) ?_
    rintro ⟨other, hother, hlacks⟩
    rw [hc, Option.some.injEq] at hother
    subst hother
    rcases hlacks with h | ⟨id, ⟨j, hj, -⟩, -⟩
    · simp [hfault] at h
    · simp [hjobs] at hj

/-- Since a store was opened, a job that is being cancelled is without a call exactly from where a call gives up
that alone attended it. Calls give up, and tell a fault, exactly where a submission has driven out one of their
jobs. So unless that happens, all calls tell the states of their jobs, and once all have returned no job is being
cancelled any more but those that were left so. -/
theorem orphans_iff_of_opened (hopen : store.recover = (opened, .ok ())) (hold : opened.jobs = .ok old)
    (hstorage : ∀ s, s <+: events → (runAt { store := opened } s).store.Readable) :
    (∀ id, Reaches { store := opened } events (Orphans old id) ↔
        Happens { store := opened } events (Strands old id)) ∧
      (∀ call, Happens { store := opened } events (GivesUp call) →
        Happens { store := opened } events (Overtakes call)) ∧
      (∀ call c, (runAt { store := opened } events).cancels[call]? = some c → c.outcome?.isSome →
        ((∃ fault, c.outcome? = some (.error fault)) ↔
          Happens { store := opened } events (Overtakes call))) ∧
      ((∀ call, ¬ Happens { store := opened } events (Overtakes call)) →
        (∀ c ∈ (runAt { store := opened } events).cancels, c.outcome?.isSome) →
        ∀ id, IsCanceling id (runAt { store := opened } events) → IsLeft old id) := by
  have horphans := reaches_orphans_iff hopen hold hstorage
  have hover {call : Nat} (h : Happens { store := opened } events (GivesUp call)) :=
    overtaken_of_givesUp hopen hold hstorage h
  refine ⟨horphans, fun call => hover, fun call c hc => fault_iff_overtaken hopen hold hstorage hc, ?_⟩
  intro hkept hreturned id hcanceling
  by_contra hleft
  have hnobody : ∀ c ∈ (runAt { store := opened } events).cancels, ¬ c.Attends id := by
    intro c hc hattends
    have hsome := hreturned c hc
    rw [hattends.1] at hsome
    cases hsome
  obtain ⟨s, e, hs, -, -, call, hgives, -⟩ :=
    (horphans id).1 ⟨events, List.prefix_rfl, hcanceling, hleft, hnobody⟩
  exact hkept call (hover ⟨s, e, hs, hgives⟩)

/-- A store in which a job was running when the process before ended. -/
def abandoned : Store :=
  { file := JobDocument.save [{ Job.new 1 { command := "a", nodes := ["A"] } ["A"] epoch.1 with state := .running }]
    output := ∅ }

/-- Two calls cancel a job, and one of them another job too. The first settles the job, which is then driven
out. -/
def overtaken : History :=
  [.submit { command := "b", nodes := ["A"] } ["A"] 3 false, .begin 2,
    .submit { command := "c", nodes := ["B"] } ["B"] 3 false, .begin 3,
    .cancel (SortedSet.ofList [2]), .cancel (SortedSet.ofList [2, 3]),
    .cancelAnswered 0 2 "A" true, .cancelEnded 0 2, .submit { command := "d", nodes := ["A"] } ["A"] 3 false,
    .cancelAnswered 1 2 "A" true, .cancelEnded 1 2].map fun e => (epoch, e)

theorem recover_abandoned : abandoned.recover = (abandoned.recover.1, .ok ()) :=
  Prod.ext rfl (by decide +kernel)

theorem jobs_abandoned : abandoned.recover.1.jobs = .ok
    [{ Job.new 1 { command := "a", nodes := ["A"] } ["A"] epoch.1 with state := .canceling }] := by
  decide +kernel

/-- The jobs and the calls in the end. -/
theorem runAt_overtaken :
    let d := runAt { store := abandoned.recover.1 } overtaken
    d.store.jobs.toOption.map (fun jobs => jobs.map fun job => (job.id, job.state)) =
        some [(1, .canceling), (3, .canceling), (4, .created)] ∧
      d.cancels = [{ jobs := [], results := SortedMap.ofList [(2, .canceled)] },
        { jobs := [], fault := some (.unknownJob 2) }] := by
  decide +kernel

theorem readable_overtaken :
    ∀ s, s <+: overtaken → (runAt { store := abandoned.recover.1 } s).store.Readable := by
  intro s hs
  have hsome := congrArg Option.isSome runAt_overtaken.1
  rw [Option.isSome_map] at hsome
  exact readable_of_runAt hs (Store.readable_of_isSome hsome)

/-- One job stays as it is, although both calls have returned, and the second call tells a fault. -/
theorem overtaken_orphans :
    abandoned.recover = (abandoned.recover.1, .ok ()) ∧
      (∀ s, s <+: overtaken → (runAt { store := abandoned.recover.1 } s).store.Readable) ∧
      (∃ old, abandoned.recover.1.jobs = .ok old ∧
        Orphans old 3 (runAt { store := abandoned.recover.1 } overtaken)) ∧
      (∀ c ∈ (runAt { store := abandoned.recover.1 } overtaken).cancels, c.outcome?.isSome) ∧
      ∃ c, (runAt { store := abandoned.recover.1 } overtaken).cancels[1]? = some c ∧
        c.outcome? = some (.error (.unknownJob 2)) := by
  obtain ⟨hstates, hcancels⟩ := runAt_overtaken
  have hreturned : ∀ c ∈ (runAt { store := abandoned.recover.1 } overtaken).cancels, c.outcome?.isSome := by
    rw [hcancels]
    decide
  refine ⟨recover_abandoned, readable_overtaken, ⟨_, jobs_abandoned, ?_, ?_, ?_⟩, hreturned, ?_⟩
  · obtain ⟨jobs, hjobs⟩ := readable_overtaken overtaken List.prefix_rfl
    rw [hjobs] at hstates
    have hlist : (jobs.map fun job => (job.id, job.state)) = [(1, .canceling), (3, .canceling), (4, .created)] :=
      Option.some.inj hstates
    have hmem : (3, JobState.canceling) ∈ jobs.map fun job => (job.id, job.state) := by simp [hlist]
    obtain ⟨job, hjob, heq⟩ := List.mem_map.1 hmem
    exact ⟨jobs, hjobs, job, hjob, congrArg Prod.fst heq, congrArg Prod.snd heq⟩
  · rintro ⟨job, hjob, hid, -⟩
    rw [List.mem_singleton.1 hjob] at hid
    cases hid
  · intro c hc hattends
    have hsome := hreturned c hc
    rw [hattends.1] at hsome
    cases hsome
  · rw [hcancels]
    exact ⟨_, rfl, rfl⟩

theorem orphans_of_overtaken :
    abandoned.recover = (abandoned.recover.1, .ok ()) ∧ ∃ old, abandoned.recover.1.jobs = .ok old ∧
      (∀ id, Reaches { store := abandoned.recover.1 } overtaken (Orphans old id) ↔
          Happens { store := abandoned.recover.1 } overtaken (Strands old id)) ∧
        (∀ call, Happens { store := abandoned.recover.1 } overtaken (GivesUp call) →
          Happens { store := abandoned.recover.1 } overtaken (Overtakes call)) ∧
        (∀ call c, (runAt { store := abandoned.recover.1 } overtaken).cancels[call]? = some c →
          c.outcome?.isSome → ((∃ fault, c.outcome? = some (.error fault)) ↔
            Happens { store := abandoned.recover.1 } overtaken (Overtakes call))) ∧
        ((∀ call, ¬ Happens { store := abandoned.recover.1 } overtaken (Overtakes call)) →
          (∀ c ∈ (runAt { store := abandoned.recover.1 } overtaken).cancels, c.outcome?.isSome) →
          ∀ id, IsCanceling id (runAt { store := abandoned.recover.1 } overtaken) → IsLeft old id) :=
  ⟨recover_abandoned, _, jobs_abandoned,
    orphans_iff_of_opened recover_abandoned jobs_abandoned readable_overtaken⟩

end

end Dispatch

end Muster
