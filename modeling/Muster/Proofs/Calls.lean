import Muster.Proofs.Turns

/-!
# Calls to cancel, and new jobs

What an event makes of the cancellations under way, and why nothing is under way of a job that was just
accepted.
-/

namespace Muster.Dispatch

open Store (withId newestId updateState markCanceling changeFirst cancelEnded)

namespace Cancel

/-- The nodes of a job have not all been heard, or the answer is not noted yet. -/
def Awaits (c : Cancel) (id : Int) : Prop := ∃ j ∈ c.jobs, j.id = id

/-- A cancellation as it starts. -/
def ofPlan (plan : CancelPlan) : Cancel := { jobs := plan.toList.map fun (id, nodes) => ⟨id, nodes, []⟩ }

def heard (id : Int) (node : String) (accepted : Bool) (c : Cancel) : Cancel :=
  { c with jobs := c.jobs.map fun j => if j.id = id then j.answer node accepted else j }

/-- A cancellation after one of its jobs is settled in a list; a job that is not there ends it. -/
def settled (jobs : List Job) (now : Time) (j : CancelJob) (c : Cancel) : Cancel :=
  match Store.find? j.id jobs with
  | none => { c with jobs := [], fault := some (.unknownJob j.id) }
  | some job =>
    { c with
      jobs := c.jobs.filter fun k => k.id != j.id
      results := c.results.insert j.id (cancelEnded j.failed now job).state }

theorem awaits_ofPlan (plan : CancelPlan) (id : Int) : (ofPlan plan).Awaits id ↔ plan.contains id := by
  rw [← SortedMap.mem_keys]
  simp only [Awaits, ofPlan, SortedMap.keys, List.mem_map]
  constructor
  · rintro ⟨j, ⟨e, he, rfl⟩, rfl⟩
    exact ⟨e, he, rfl⟩
  · rintro ⟨e, he, rfl⟩
    exact ⟨_, ⟨e, he, rfl⟩, rfl⟩

theorem answer_id (j : CancelJob) (node : String) (accepted : Bool) : (j.answer node accepted).id = j.id := by
  unfold CancelJob.answer
  split <;> rfl

theorem awaits_heard (c : Cancel) (other : Int) (node : String) (accepted : Bool) (id : Int) :
    (c.heard other node accepted).Awaits id ↔ c.Awaits id := by
  have hid : ∀ j : CancelJob, (if j.id = other then j.answer node accepted else j).id = j.id := by
    intro j
    split
    · exact answer_id j node accepted
    · rfl
  simp [Awaits, heard, hid]

theorem awaits_of_settled {jobs : List Job} {now : Time} {j : CancelJob} {c : Cancel} {id : Int}
    (h : (c.settled jobs now j).Awaits id) : c.Awaits id ∧ id ≠ j.id := by
  unfold settled at h
  split at h
  · obtain ⟨k, hk, -⟩ := h
    cases hk
  · obtain ⟨k, hk, rfl⟩ := h
    simp only [List.mem_filter, bne_iff_ne] at hk
    exact ⟨⟨k, hk.1, rfl⟩, hk.2⟩

/-- As long as its jobs are listed, a cancellation goes on with the others. -/
theorem awaits_settled {jobs : List Job} {now : Time} {j : CancelJob} {c : Cancel} {id : Int}
    (hlisted : Store.find? j.id jobs ≠ none) (h : c.Awaits id) (hne : id ≠ j.id) :
    (c.settled jobs now j).Awaits id := by
  obtain ⟨k, hk, rfl⟩ := h
  cases hfind : Store.find? j.id jobs with
  | none => exact absurd hfind hlisted
  | some job => exact ⟨k, by simp [settled, hfind, hk, hne], rfl⟩

theorem results_of_outcome {c : Cancel} {results : SortedMap Int JobState}
    (h : c.outcome? = some (.ok results)) : c.results = results := by
  unfold outcome? at h
  split at h
  · cases h
  · split at h
    · cases h
      rfl
    · cases h

end Cancel

section steps

variable {d : Dispatch} {jobs : List Job} {id : Int}

theorem cancels_cancel (h : d.store.jobs = .ok jobs) (now : Time) (ids : JobIds) :
    (step now d (.cancel ids)).cancels = d.cancels ++ [Cancel.ofPlan (markCanceling ids jobs).2] := by
  simp only [step, startCancel, Store.planCancel_eq h]
  rfl

theorem cancels_settle (h : d.store.jobs = .ok jobs) (call : Nat) (c : Cancel) (j : CancelJob)
    (now : Time) : (d.settle call c j now).cancels = d.cancels.set call (c.settled jobs now j) := by
  simp only [settle, Store.finishCancel, Store.withJob_eq h, Cancel.settled]
  cases Store.find? j.id jobs <;> rfl

/-- Where a cancellation comes from that is there after an event. -/
inductive Origin (d : Dispatch) (now : Time) (e : Event) : Cancel → Prop
  | kept {c : Cancel} (hc : c ∈ d.cancels) : Origin d now e c
  | begun {ids : JobIds} {jobs : List Job} (he : e = .cancel ids) (h : d.store.jobs = .ok jobs) :
      Origin d now e (.ofPlan (markCanceling ids jobs).2)
  | heard {call : Nat} {other : Int} {node : String} {accepted : Bool} {c : Cancel}
      (he : e = .cancelAnswered call other node accepted) (hc : c ∈ d.cancels) :
      Origin d now e (c.heard other node accepted)
  | settled {call : Nat} {c : Cancel} {j : CancelJob} {jobs : List Job} (he : e = .cancelEnded call j.id)
      (hc : c ∈ d.cancels) (hj : j ∈ c.jobs) (hwaiting : j.waiting = []) (h : d.store.jobs = .ok jobs) :
      Origin d now e (c.settled jobs now j)
  | broken {c : Cancel} {fault : Fault} (hc : c ∈ d.cancels ∨ c = { jobs := [] }) :
      Origin d now e { c with jobs := [], fault := some fault }

theorem origin_of_mem (now : Time) {e : Event} {c : Cancel} (hc : c ∈ (step now d e).cancels) :
    Origin d now e c := by
  cases he : e.job? with
  | some other =>
    rw [cancels_step now he] at hc
    exact .kept hc
  | none =>
    cases e <;> simp only [Event.job?, reduceCtorEq] at he
    case submit spec nodes capacity keepsOutput =>
      simp only [step, submit] at hc
      split at hc <;> exact .kept hc
    case cancel ids =>
      cases h : d.store.jobs with
      | ok jobs =>
        rw [cancels_cancel h] at hc
        rcases List.mem_append.1 hc with hc | hc
        · exact .kept hc
        · rw [List.mem_singleton.1 hc]
          exact .begun rfl h
      | error fault =>
        simp only [step, startCancel, Store.planCancel_of_error h] at hc
        rcases List.mem_append.1 hc with hc | hc
        · exact .kept hc
        · rw [List.mem_singleton.1 hc]
          exact .broken (c := { jobs := [] }) (.inr rfl)
    case cancelAnswered call other node accepted =>
      simp only [step] at hc
      split at hc
      · rename_i before hbefore
        rcases List.mem_or_eq_of_mem_set hc with hc | rfl
        · exact .kept hc
        · exact .heard rfl (List.mem_of_getElem? hbefore)
      · exact .kept hc
    case cancelEnded call other =>
      rcases step_cancelEnded d [] now call other with ⟨hstep, -⟩ | ⟨before, j, hb, hj, rfl, hw, hstep, -⟩
      · rw [hstep] at hc
        exact .kept hc
      · rw [hstep] at hc
        have hbefore := List.mem_of_getElem? hb
        cases h : d.store.jobs with
        | ok jobs =>
          rw [cancels_settle h] at hc
          rcases List.mem_or_eq_of_mem_set hc with hc | rfl
          · exact .kept hc
          · exact .settled rfl hbefore hj hw h
        | error fault =>
          simp only [settle, Store.finishCancel, Store.withJob_of_error h, setCancel_cancels] at hc
          rcases List.mem_or_eq_of_mem_set hc with hc | rfl
          · exact .kept hc
          · exact .broken (.inl hbefore)

/-! ### New ids -/

theorem map_id_changeFirst (other : Int) {f : Job → Job} (hf : ∀ job, (f job).id = job.id)
    (jobs : List Job) : (changeFirst other f jobs).map Job.id = jobs.map Job.id := by
  induction jobs with
  | nil => rfl
  | cons job rest ih =>
    unfold changeFirst
    split
    · simp [hf]
    · simp [ih]

theorem map_id_updateState (other : Int) (before after : JobState) (jobs : List Job) :
    (updateState other before after jobs).1.map Job.id = jobs.map Job.id := by
  unfold updateState
  split
  · split
    · exact map_id_changeFirst other (f := fun job => { job with state := after }) (fun _ => rfl) jobs
    · rfl
  · rfl

/-- Only a submission changes which ids are listed. -/
theorem map_id_relist (now : Time) (d : Dispatch) (jobs : List Job) {e : Event}
    (he : ∀ spec nodes capacity keepsOutput, e ≠ .submit spec nodes capacity keepsOutput) :
    (d.relist now jobs e).map Job.id = jobs.map Job.id := by
  cases e with
  | submit spec nodes capacity keepsOutput => exact absurd rfl (he spec nodes capacity keepsOutput)
  | cancel ids =>
    simp only [relist, Store.markCanceling_eq, List.map_map]
    exact List.map_congr_left fun job _ => Store.mark_id ids jobs job
  | begin id =>
    simp only [relist]
    repeat' split
    all_goals first | rfl | exact map_id_updateState _ _ _ jobs
  | launch id =>
    simp only [relist]
    repeat' split
    all_goals first | rfl | exact map_id_updateState _ _ _ jobs
  | finish id =>
    simp only [relist]
    repeat' split
    all_goals first | rfl | exact map_id_changeFirst _ (Store.finished_id _ now) jobs
  | cancelEnded call id =>
    simp only [relist]
    repeat' split
    all_goals first | rfl | exact map_id_changeFirst _ (Store.cancelEnded_id _ now) jobs
  | answered id node accepted => rfl
  | reply id node r => rfl
  | ended id node => rfl
  | leave id => rfl
  | cancelAnswered call id node accepted => rfl

theorem newestId_relist (now : Time) (d : Dispatch) (jobs : List Job) (e : Event) :
    newestId jobs ≤ newestId (d.relist now jobs e) := by
  cases e with
  | submit spec nodes capacity keepsOutput => exact Store.newestId_enlist spec nodes capacity now jobs
  | _ =>
    apply Int.le_of_eq
    unfold newestId
    rw [map_id_relist now d jobs (by simp)]

/-- Nothing is under way of a job with this id. -/
structure Unheard (id : Int) (d : Dispatch) : Prop where
  run : d.run? id = none
  stream : d.stream? id = none
  calls : ∀ c ∈ d.cancels, ¬ c.Awaits id ∧ c.results.get? id = none

/-- The states that a head node comes to which starts with some store. -/
def Reached (d : Dispatch) : Prop := ∃ (store : Store) (events : History), d = runAt { store } events

theorem turn_of_none {now : Time} {p p' : Part} (h : Turn now p p') (hrun : p.run = none)
    (hstream : p.stream = none) : p' = p := by
  cases h with
  | stayed => rfl
  | left => rw [hstream]; cases p; simp_all
  | begun hr | dropped hr | answered hr | relayed _ _ hr | exited hr | launched hr | finished hr
  | lost hr =>
    rw [hrun] at hr
    cases hr

theorem withId_of_newestId_lt (hid : newestId jobs < id) : withId id jobs = [] := by
  rw [Store.withId_eq_nil]
  intro job hjob heq
  have := Store.le_newestId hjob
  omega

theorem way_of_unheard (h : d.store.jobs = .ok jobs) {now : Time} {e : Event}
    (hid : newestId (d.relist now jobs e) < id) (hd : d.Unheard id) :
    (step now d e).run? id = none ∧ (step now d e).stream? id = none := by
  have hway {p : Part} (hrun : p.run = d.run? id) (hstream : p.stream = d.stream? id)
      (hpart : part id (step now d e) (d.relist now jobs e) = p) :
      (step now d e).run? id = none ∧ (step now d e).stream? id = none :=
    ⟨(congrArg Part.run hpart).trans (hrun.trans hd.run),
      (congrArg Part.stream hpart).trans (hstream.trans hd.stream)⟩
  cases he : e.job? with
  | some other =>
    by_cases hne : other = id
    · rw [hne] at he
      have hold : newestId jobs < id := by
        have := newestId_relist now d jobs e
        omega
      have hone : (withId id jobs).length ≤ 1 := by simp [withId_of_newestId_lt hold]
      exact hway rfl rfl (turn_of_none (turn_step h hone now he) hd.run hd.stream)
    · exact hway rfl rfl (part_step_of_ne now he hne)
  | none =>
    cases e <;> simp only [Event.job?, reduceCtorEq] at he
    case submit spec nodes capacity keepsOutput =>
      have hrun := hd.run
      have hstream := hd.stream
      unfold run? at hrun
      unfold stream? at hstream
      obtain ⟨-, ⟨hruns, hstreams⟩ | ⟨job, hjob, -, hruns, hstreams⟩⟩ :=
        submit_eq h now spec nodes capacity keepsOutput
      · exact ⟨by rw [run?, hruns, hrun], by rw [stream?, hstreams, hstream]⟩
      · have hne : job.id ≠ id := by
          have := Store.le_newestId hjob
          simp only [relist] at hid
          omega
        refine ⟨?_, ?_⟩
        · rw [run?, hruns, List.find?_append, hrun]
          simp [hne]
        · rw [stream?, hstreams, List.find?_append, hstream]
          simp [hne]
    case cancel ids => exact hway rfl rfl (part_cancel h now ids)
    case cancelAnswered call other node accepted =>
      exact hway rfl rfl (part_cancelAnswered d jobs now call other node accepted)
    case cancelEnded call other =>
      rcases step_cancelEnded d jobs now call other with ⟨hstep, -⟩ | ⟨c, j, -, -, -, -, hstep, -⟩
      · rw [hstep]
        exact ⟨hd.run, hd.stream⟩
      · rw [hstep]
        exact ⟨(congrArg Part.run (part_settle d jobs call c j now)).trans hd.run,
          (congrArg Part.stream (part_settle d jobs call c j now)).trans hd.stream⟩

/-- What is not listed yet is not under way. -/
theorem unheard_step (h : d.store.jobs = .ok jobs) {now : Time} {e : Event}
    (hid : newestId (d.relist now jobs e) < id) (hd : d.Unheard id) : (step now d e).Unheard id := by
  obtain ⟨hrun, hstream⟩ := way_of_unheard h hid hd
  refine ⟨hrun, hstream, ?_⟩
  intro c hmem
  cases origin_of_mem now hmem with
  | kept hc => exact hd.calls c hc
  | begun _ hlisted =>
    have hold : newestId jobs < id := by
      have := newestId_relist now d jobs e
      omega
    rw [h, Except.ok.injEq] at hlisted
    subst hlisted
    refine ⟨?_, rfl⟩
    rw [Cancel.awaits_ofPlan, Store.contains_plan, withId_of_newestId_lt hold]
    simp
  | heard _ hc =>
    rw [Cancel.awaits_heard]
    exact hd.calls _ hc
  | @settled _ before j _ _ hc hj =>
    refine ⟨fun haw => (hd.calls before hc).1 (Cancel.awaits_of_settled haw).1, ?_⟩
    have hne : id ≠ j.id := fun heq => (hd.calls before hc).1 ⟨j, hj, heq.symm⟩
    unfold Cancel.settled
    split
    · exact (hd.calls before hc).2
    · rw [SortedMap.get?_insert_of_ne _ _ hne]
      exact (hd.calls before hc).2
  | broken hc =>
    refine ⟨by simp [Cancel.Awaits], ?_⟩
    rcases hc with hc | rfl
    · exact (hd.calls _ hc).2
    · rfl

/-- Along a run, the newest id never becomes less. -/
theorem newestId_of_runAt {events : History} (h : (d.runAt events).store.jobs = .ok jobs) :
    ∃ before, d.store.jobs = .ok before ∧ newestId before ≤ newestId jobs := by
  induction events using List.reverseRecOn generalizing jobs with
  | nil => exact ⟨jobs, h, Int.le_refl _⟩
  | append_singleton events e ih =>
    rw [runAt_concat] at h
    obtain ⟨last, hlast, rfl⟩ := jobs_of_stepAt h
    obtain ⟨before, hbefore, hle⟩ := ih hlast
    exact ⟨before, hbefore, Int.le_trans hle (newestId_relist e.1.1 _ last e.2)⟩

theorem unheard_of_reached (hd : d.Reached) (h : d.store.jobs = .ok jobs) (hid : newestId jobs < id) :
    d.Unheard id := by
  obtain ⟨store, events, rfl⟩ := hd
  induction events using List.reverseRecOn generalizing jobs with
  | nil => exact ⟨rfl, rfl, by simp⟩
  | append_singleton events e ih =>
    rw [runAt_concat] at h ⊢
    obtain ⟨before, hbefore, rfl⟩ := jobs_of_stepAt h
    have hless := newestId_relist e.1.1 (runAt { store } events) before e.2
    exact unheard_step hbefore hid (ih (by omega) hbefore)

/-! ### Accepted jobs -/

/-- A request that was checked is accepted as a job, which brings the head node to a state. -/
def Accepted (d : Dispatch) (job : Job) : Prop :=
  ∃ (before : Dispatch) (engine : Pattern.Engine) (ready : List String) (groups : Groups) (spec : JobSpec)
    (intersect : Bool) (nodes : List String) (capacity : Nat) (keepsOutput : Bool) (now : Moment),
    before.Reached ∧ check engine ready groups spec intersect = .ok nodes ∧
      before.submit spec nodes capacity keepsOutput now.1 = (d, .ok job)

theorem ne_nil_of_bind {x : Except Fault (List String)} {nodes : List String}
    (h : (x >>= fun nodes => if nodes.isEmpty then .error .noNodes else .ok nodes) = .ok nodes) :
    nodes ≠ [] := by
  cases x with
  | error fault => cases h
  | ok found =>
    simp only [bind, Except.bind] at h
    split at h
    · cases h
    · rename_i hne
      cases h
      simpa using hne

/-- A request is accepted for the nodes it resolves to, if it has a command and its sweep has a place in it. -/
theorem check_eq_ok_iff {engine : Pattern.Engine} {ready : List String} {groups : Groups} {spec : JobSpec} {intersect : Bool}
    {nodes : List String} :
    check engine ready groups spec intersect = .ok nodes ↔
      Text.trim spec.command ≠ "" ∧ resolve engine ready groups spec intersect = .ok nodes ∧
        ∀ sweep, sweepOf spec nodes.length = some sweep →
          Text.occurs sweep.placeholder.toList spec.command.toList := by
  unfold check
  by_cases hcommand : Text.trim spec.command = ""
  · simp [hcommand, bind, Except.bind]
  · cases hfound : resolve engine ready groups spec intersect with
    | error fault => simp [hcommand, bind, Except.bind]
    | ok found =>
      simp only [hcommand, bind, Except.bind, if_false, ne_eq, not_false_eq_true, true_and,
        Except.ok.injEq]
      cases hsweep : sweepOf spec found.length with
      | none =>
        rw [Except.ok.injEq]
        constructor
        · rintro rfl
          simp [hsweep]
        · exact And.left
      | some sweep =>
        simp only
        split
        · rename_i hoccurs
          rw [Except.ok.injEq]
          constructor
          · rintro rfl
            simp [hsweep, hoccurs]
          · exact And.left
        · rename_i hoccurs
          simp only [reduceCtorEq, false_iff, not_and]
          rintro rfl h
          exact hoccurs (h sweep hsweep)

theorem ne_nil_of_check {engine : Pattern.Engine} {ready : List String} {groups : Groups} {spec : JobSpec}
    {intersect : Bool} {nodes : List String} (h : check engine ready groups spec intersect = .ok nodes) : nodes ≠ [] := by
  have hfound := (check_eq_ok_iff.1 h).2.1
  unfold resolve at hfound
  split at hfound
  · exact ne_nil_of_bind hfound
  · exact ne_nil_of_bind hfound

/-- The start of 1970. -/
def epoch : Moment := ⟨⟨0, 0⟩, by decide, by decide, by decide⟩

/-- A head node that has no job. -/
def idle : Dispatch := { store := { file := JobDocument.save [], output := ∅ } }

/-- The calls of a job that nobody has begun. -/
def tasksOf (job : Job) : List Task := (orders job).map fun o => { order := o }

theorem tasksOf_node (job : Job) : (tasksOf job).map Task.node = job.nodes := by
  simp [tasksOf, orders, Task.node, orderOf, Function.comp_def]

theorem tasksOf_phase (job : Job) : ∀ t ∈ tasksOf job, t.phase = .waiting := by
  simp [tasksOf]

/-- What there is of a job that was just accepted. -/
structure Fresh (job : Job) (d : Dispatch) : Prop where
  state : job.state = .created
  endTime : job.endTime = none
  failedNodes : job.failedNodes = ∅
  nodes : job.nodes ≠ []
  way : ∃ keepsOutput, d.run? job.id = some { id := job.id, tasks := tasksOf job, keepsOutput } ∧
    d.stream? job.id = some { id := job.id, nodes := job.nodes }
  calls : ∀ c ∈ d.cancels, ¬ c.Awaits job.id ∧ c.results.get? job.id = none
  listed : ∀ jobs, d.store.jobs = .ok jobs → job.id ≤ newestId jobs ∧ withId job.id jobs = [job]

theorem Fresh.part {job : Job} (h : Fresh job d) (hread : d.store.jobs = .ok jobs) :
    ∃ keepsOutput, part job.id d jobs = ⟨[job],
      some { id := job.id, tasks := tasksOf job, keepsOutput }, some { id := job.id, nodes := job.nodes }⟩ := by
  obtain ⟨keepsOutput, hrun, hstream⟩ := h.way
  exact ⟨keepsOutput, by simp only [Dispatch.part, hrun, hstream, (h.listed jobs hread).2]⟩

/-- What is under way after a job is accepted. -/
theorem submit_ok {spec : JobSpec} {nodes : List String} {capacity : Nat} {keepsOutput : Bool} {now : Time}
    {d' : Dispatch} {job : Job} (h : d.submit spec nodes capacity keepsOutput now = (d', .ok job)) :
    ∃ jobs kept evicted, d.store.jobs = .ok jobs ∧ Store.evict jobs capacity = .ok (kept, evicted) ∧
      job = Job.new (Store.nextId kept evicted) spec nodes now ∧
      d'.runs = d.runs ++ [{ id := job.id, tasks := tasksOf job, keepsOutput }] ∧
      d'.streams = d.streams ++ [{ id := job.id, nodes := job.nodes }] ∧ d'.cancels = d.cancels := by
  unfold submit at h
  split at h
  · cases h
  · rename_i store created hcreate
    cases h
    have hok : (d.store.createJob spec nodes capacity now).2 = .ok job := by rw [hcreate]
    cases hread : d.store.jobs with
    | error fault =>
      rw [Store.createJob_of_error hread] at hok
      cases hok
    | ok jobs =>
      obtain ⟨kept, evicted, hev, hjob⟩ := Store.createJob_ok hread hok
      exact ⟨jobs, kept, evicted, rfl, hev, hjob, rfl, rfl, rfl⟩

theorem newestId_lt_of_submit {spec : JobSpec} {nodes : List String} {capacity : Nat} {keepsOutput : Bool}
    {now : Time} {job : Job} (h : (d.submit spec nodes capacity keepsOutput now).2 = .ok job) :
    ∃ jobs, d.store.jobs = .ok jobs ∧ newestId jobs < job.id := by
  obtain ⟨jobs, kept, evicted, hread, hev, rfl, -⟩ := submit_ok (Prod.ext rfl h)
  exact ⟨jobs, hread, Store.newestId_lt_nextId hev⟩

theorem fresh_of_accepted {job : Job} (hd : d.Accepted job) : Fresh job d := by
  obtain ⟨before, _, _, _, spec, _, nodes, capacity, keepsOutput, now, hreached, hcheck, hsubmit⟩ := hd
  have hstep : before.stepAt (now, .submit spec nodes capacity keepsOutput) = d :=
    congrArg Prod.fst hsubmit
  obtain ⟨listed, kept, evicted, hlisted, hev, hjob, hruns, hstreams, hcancels⟩ := submit_ok hsubmit
  subst hjob
  have hlt := Store.newestId_lt_nextId hev
  have hnew := unheard_of_reached hreached hlisted hlt
  have hrun := hnew.run
  have hstream := hnew.stream
  unfold run? at hrun
  unfold stream? at hstream
  refine ⟨rfl, rfl, rfl, ne_nil_of_check hcheck, ⟨keepsOutput, ?_, ?_⟩, hcancels ▸ hnew.calls, ?_⟩
  · simp [run?, hruns, Job.new, List.find?_append, hrun]
  · simp [stream?, hstreams, Job.new, List.find?_append, hstream]
  · intro jobs h
    have hjobs := jobs_stepAt hlisted (now, .submit spec nodes capacity keepsOutput) ⟨jobs, hstep ▸ h⟩
    rw [hstep, h, Except.ok.injEq] at hjobs
    simp only [relist, Store.enlist_eq hev] at hjobs
    subst hjobs
    have hkept : withId (Store.nextId kept evicted) kept = [] := by
      rw [Store.withId_evict hev, withId_of_newestId_lt hlt]
      split <;> rfl
    refine ⟨Store.le_newestId (by simp), ?_⟩
    simp only [Job.new, Store.withId_append, hkept]
    simp [withId]

end steps

end Muster.Dispatch
