import Muster.Proofs.Calls

/-!
# Jobs of the process before

A store that is opened lists the jobs of the process before. Those that were active are marked as being
cancelled; nothing runs of any of them, so none of the others becomes active again. Only jobs that are
accepted since then have an id above theirs, and such an id is listed once at most.
-/

namespace Muster

namespace Store

variable {store opened : Store} {refusals : Refusals} {jobs old : List Job}

/-! ### Opening a store -/

theorem isAbsent_of_jobs (h : store.jobs = .ok jobs) : store.file.isAbsent = false := by
  cases hfile : store.file with
  | absent =>
    rw [Store.jobs, hfile] at h
    cases h
  | damaged | malformed | document => rfl

theorem recover_eq (h : store.jobs = .ok jobs) :
    store.recover = ({
      file := JobDocument.save (jobs.map interrupted)
      output := removeOrphans store.output (jobs.map (·.id)) }, .ok ()) := by
  rw [recover, if_neg (by simp), if_neg (by simp [isAbsent_of_jobs h]), withJobs_eq h]
  rfl

theorem recover_of_error {fault : Fault} (h : store.jobs = .error fault)
    (hfile : store.file.isAbsent = false) : store.recover = (store, .error fault) := by
  rw [recover, if_neg (by simp), if_neg (by simp [hfile]), withJobs_of_error h]

@[simp] theorem interrupted_id (job : Job) : (interrupted job).id = job.id := by
  unfold interrupted
  split <;> rfl

theorem timed_interrupted {job : Job} (h : job.Timed) : (interrupted job).Timed := by
  unfold interrupted
  split
  · exact timed_setState h .canceling
  · exact h

theorem timed_map_interrupted (h : ∀ job ∈ jobs, job.Timed) : ∀ job ∈ jobs.map interrupted, job.Timed := by
  intro job hjob
  obtain ⟨before, hbefore, rfl⟩ := List.mem_map.1 hjob
  exact timed_interrupted (h before hbefore)

theorem storable_interrupted {job : Job} (h : job.Storable) : (interrupted job).Storable := by
  unfold interrupted
  split
  · exact storable_setState h .canceling
  · exact h

theorem load_interrupted (hread : store.jobs = .ok jobs) :
    JobDocument.load (JobDocument.save (jobs.map interrupted)) = .ok (jobs.map interrupted) := by
  refine JobDocument.load_save ?_
  intro job hjob
  obtain ⟨before, hbefore, rfl⟩ := List.mem_map.1 hjob
  exact storable_interrupted (JobDocument.storable_of_load hread before hbefore)

/-- A store that was opened had no list, or it has the list that it had, with the interrupted jobs marked. -/
theorem recover_cases (hopen : store.recover refusals = (opened, .ok ())) :
    (store.file.isAbsent ∧ opened.jobs = .ok [] ∧ opened.output = store.output) ∨
      ∃ jobs, store.jobs = .ok jobs ∧ opened.jobs = .ok (jobs.map interrupted) ∧
        opened.output = removeOrphans store.output (jobs.map (·.id)) refusals.removing := by
  unfold recover at hopen
  split at hopen
  · cases hopen
  split at hopen
  · rename_i habsent
    split at hopen
    · cases hopen
    · cases hopen
      exact .inl ⟨habsent, JobDocument.load_save (by simp), rfl⟩
  cases hread : store.jobs with
  | error fault =>
    simp only [withJobs, hread] at hopen
    cases hopen
  | ok jobs =>
    simp only [withJobs, hread] at hopen
    split at hopen
    · cases hopen
    · rename_i hwritten
      split at hwritten
      · cases hwritten
      · cases hwritten
        split at hopen
        · cases hopen
        · cases hopen
          exact .inr ⟨jobs, rfl, load_interrupted hread, rfl⟩

/-- The list of a store that was just opened. -/
theorem jobs_of_recover (hopen : store.recover refusals = (opened, .ok ())) (hold : opened.jobs = .ok old) :
    old = [] ∨ ∃ jobs : List Job, old = jobs.map interrupted := by
  rcases recover_cases hopen with ⟨-, hempty, -⟩ | ⟨jobs, -, hmarked, -⟩
  · rw [hold, Except.ok.injEq] at hempty
    exact .inl hempty
  · rw [hold, Except.ok.injEq] at hmarked
    exact .inr ⟨jobs, hmarked⟩

/-- No other job is active in a store that was just opened than those that are marked. -/
theorem canceling_of_recover (hopen : store.recover refusals = (opened, .ok ())) (hold : opened.jobs = .ok old) :
    ∀ job ∈ old, job.state.isActive → job.state = .canceling := by
  rcases jobs_of_recover hopen hold with rfl | ⟨jobs, rfl⟩
  · simp
  · intro job hjob hactive
    obtain ⟨before, -, rfl⟩ := List.mem_map.1 hjob
    by_cases hbefore : before.state.isActive
    · simp [interrupted, hbefore]
    · simp [interrupted, hbefore] at hactive

/-! ### Members of a changed list -/

theorem find?_mem {id : Int} {job : Job} (h : find? id jobs = some job) : job ∈ jobs ∧ job.id = id :=
  ⟨List.mem_of_find?_eq_some h, by simpa using List.find?_some h⟩

/-- Only the first job with the id changes, which is the one that is found. -/
theorem mem_changeFirst {id : Int} {f : Job → Job} {job : Job} (h : job ∈ changeFirst id f jobs) :
    job ∈ jobs ∨ ∃ found, find? id jobs = some found ∧ job = f found := by
  induction jobs with
  | nil => cases h
  | cons first rest ih =>
    unfold changeFirst at h
    split at h
    · rename_i hid
      rcases List.mem_cons.1 h with rfl | h
      · exact .inr ⟨first, by simp [find?, hid], rfl⟩
      · exact .inl (List.mem_cons_of_mem _ h)
    · rename_i hid
      rcases List.mem_cons.1 h with rfl | h
      · exact .inl (by simp)
      · rcases ih h with h | ⟨found, hfound, heq⟩
        · exact .inl (List.mem_cons_of_mem _ h)
        · exact .inr ⟨found, by simpa [find?, hid] using hfound, heq⟩

/-- A change of state goes along an edge. -/
theorem mem_updateState {id : Int} {before after : JobState} {job : Job}
    (h : job ∈ (updateState id before after jobs).1) :
    job ∈ jobs ∨ ∃ found, find? id jobs = some found ∧ found.state = before ∧ before.canBecome after ∧
      job = { found with state := after } := by
  unfold updateState at h
  split at h
  · rename_i found hfind
    split at h
    · rename_i hedge
      rcases mem_changeFirst h with h | ⟨other, hother, rfl⟩
      · exact .inl h
      · rw [hfind, Option.some.injEq] at hother
        subst hother
        exact .inr ⟨found, hfind, hedge.1, hedge.2, rfl⟩
    · exact .inl h
  · exact .inl h

theorem length_withId (id : Int) (jobs : List Job) :
    (withId id jobs).length = (jobs.map Job.id).count id := by
  rw [withId, List.count, List.countP_map, List.countP_eq_length_filter]
  rfl

/-- The next id is given to no job that is listed, and the others are listed as often as before at most. -/
theorem length_withId_enlist {spec : JobSpec} {nodes : List String} {capacity : Nat} {now : Time} {id : Int}
    (h : (withId id jobs).length ≤ 1) : (withId id (enlist spec nodes capacity now jobs)).length ≤ 1 := by
  cases hev : evict jobs capacity with
  | error fault =>
    rw [enlist, hev]
    exact h
  | ok r =>
    obtain ⟨kept, evicted⟩ := r
    have hkept : (withId id kept).length ≤ (withId id jobs).length := by
      rw [withId_evict hev]
      split <;> simp
    rw [enlist_eq hev, withId_append, List.length_append]
    by_cases hid : nextId kept evicted = id
    · have hnone : withId id kept = [] := by
        rw [withId_eq_nil]
        intro job hjob
        have hlisted : job ∈ jobs := by
          rw [(evict_eq_ok hev).2] at hjob
          exact (List.mem_filter.1 hjob).1
        have := lt_nextId hev hlisted
        omega
      rw [hnone, List.length_nil, Nat.zero_add]
      exact List.length_filter_le _ _
    · have hnew : withId id [Job.new (nextId kept evicted) spec nodes now] = [] := by
        simp [withId, Job.new, hid]
      simp only [hnew, List.length_nil]
      omega

/-- A job of a longer list was there before, or is the new one. -/
theorem mem_enlist {spec : JobSpec} {nodes : List String} {capacity : Nat} {now : Time} {job : Job}
    (h : job ∈ enlist spec nodes capacity now jobs) :
    job ∈ jobs ∨ ∃ id, newestId jobs < id ∧ job = Job.new id spec nodes now := by
  cases hev : evict jobs capacity with
  | error fault =>
    rw [enlist, hev] at h
    exact .inl h
  | ok r =>
    rw [enlist_eq hev] at h
    rcases List.mem_append.1 h with h | h
    · rw [(evict_eq_ok hev).2] at h
      exact .inl (List.mem_filter.1 h).1
    · exact .inr ⟨_, newestId_lt_nextId hev, List.mem_singleton.1 h⟩

/-! ### States after an end -/

theorem finished_state (failed : SortedMap String Int) (now : Time) (job : Job) :
    (finished failed now job).state = job.state ∨ job.state = .running ∧
      ((finished failed now job).state = .finished ∨ (finished failed now job).state = .failed) := by
  unfold finished
  simp only
  split
  · rename_i hstate
    refine .inr ⟨hstate, ?_⟩
    split <;> simp
  · exact .inl rfl

theorem cancelEnded_state (failed : List String) (now : Time) (job : Job) :
    (cancelEnded failed now job).state = job.state ∨ job.state = .canceling ∧
      ((cancelEnded failed now job).state = .canceled ∨ (cancelEnded failed now job).state = .cancelFailed) := by
  unfold cancelEnded
  split
  · rename_i hstate
    refine .inr ⟨hstate, ?_⟩
    split <;> simp
  · exact .inl rfl

end Store

namespace Dispatch

open Store (withId newestId enlist updateState markCanceling changeFirst finished cancelEnded marks)

/-- The opening of the store left the job with an id as being cancelled. -/
def IsLeft (old : List Job) (id : Int) : Prop := ∃ job ∈ old, job.id = id ∧ job.state = .canceling

/-- What there is since the store was opened with a list of jobs. -/
structure Inherits (old : List Job) (d : Dispatch) (jobs : List Job) : Prop where
  read : d.store.jobs = .ok jobs
  newest : newestId old ≤ newestId jobs
  runs : ∀ id ≤ newestId old, d.run? id = none
  active : ∀ job ∈ jobs, job.id ≤ newestId old → job.state.isActive → IsLeft old job.id
  single : ∀ id, newestId old < id → (withId id jobs).length ≤ 1

section

variable {d : Dispatch} {jobs old : List Job} {now : Time} {e : Event}

/-- Where a job comes from that is listed after an event. -/
inductive Descends (d : Dispatch) (now : Time) (e : Event) (jobs : List Job) : Job → Prop
  | kept {job : Job} (hjob : job ∈ jobs) : Descends d now e jobs job
  | created {id : Int} (spec : JobSpec) (nodes : List String) (hid : newestId jobs < id) :
      Descends d now e jobs (.new id spec nodes now)
  | stepped {job : Job} {state : JobState} (hjob : job ∈ jobs) (hrun : d.run? job.id ≠ none)
      (hstate : state = .dispatching ∨ state = .running) : Descends d now e jobs { job with state }
  | ended {job : Job} (hjob : job ∈ jobs) (failed : SortedMap String Int) :
      Descends d now e jobs (finished failed now job)
  | marked {job : Job} {ids : JobIds} (hjob : job ∈ jobs) (he : e = .cancel ids)
      (hmarks : marks ids jobs job) : Descends d now e jobs { job with state := .canceling }
  | settled {job : Job} (hjob : job ∈ jobs) (failed : List String) :
      Descends d now e jobs (cancelEnded failed now job)

theorem descends_of_mem_relist {job : Job} (h : job ∈ d.relist now jobs e) : Descends d now e jobs job := by
  have hstep {id : Int} {before after : JobState} (hrun : d.run? id ≠ none)
      (hafter : after = .dispatching ∨ after = .running)
      (hjob : job ∈ (updateState id before after jobs).1) : Descends d now e jobs job := by
    rcases Store.mem_updateState hjob with hjob | ⟨found, hfound, -, -, rfl⟩
    · exact .kept hjob
    · obtain ⟨hmem, rfl⟩ := Store.find?_mem hfound
      exact .stepped hmem hrun hafter
  cases e with
  | submit spec nodes capacity keepsOutput =>
    rcases Store.mem_enlist h with hjob | ⟨id, hid, rfl⟩
    · exact .kept hjob
    · exact .created spec nodes hid
  | begin id =>
    simp only [relist] at h
    repeat' split at h
    · rename_i run hfound _
      exact hstep (by simp [run?_id hfound, hfound]) (.inl rfl) h
    all_goals exact .kept h
  | launch id =>
    simp only [relist] at h
    repeat' split at h
    · rename_i run hfound _
      exact hstep (by simp [run?_id hfound, hfound]) (.inr rfl) h
    all_goals exact .kept h
  | finish id =>
    simp only [relist] at h
    repeat' split at h
    · rcases Store.mem_changeFirst h with hjob | ⟨found, hfound, rfl⟩
      · exact .kept hjob
      · exact .ended (Store.find?_mem hfound).1 _
    all_goals exact .kept h
  | cancel ids =>
    rw [relist, Store.markCanceling_eq] at h
    obtain ⟨before, hbefore, rfl⟩ := List.mem_map.1 h
    unfold Store.mark
    split
    · rename_i hmarks
      exact .marked hbefore rfl hmarks
    · exact .kept hbefore
  | cancelEnded call id =>
    simp only [relist] at h
    repeat' split at h
    · rcases Store.mem_changeFirst h with hjob | ⟨found, hfound, rfl⟩
      · exact .kept hjob
      · exact .settled (Store.find?_mem hfound).1 _
    all_goals exact .kept h
  | answered | reply | ended | leave | cancelAnswered => exact .kept h

/-- A job of which nothing runs becomes active by no event. -/
theorem active_of_relist {job : Job} (h : job ∈ d.relist now jobs e) (hactive : job.state.isActive)
    (hrun : d.run? job.id = none) : ∃ before ∈ jobs, before.id = job.id ∧ before.state.isActive := by
  cases descends_of_mem_relist h with
  | kept hjob => exact ⟨job, hjob, rfl, hactive⟩
  | created => cases hactive
  | stepped _ hsome => exact absurd hrun hsome
  | @ended before hjob failed =>
    refine ⟨before, hjob, (Store.finished_id failed now before).symm, ?_⟩
    rcases Store.finished_state failed now before with hstate | ⟨-, hstate | hstate⟩
    · rwa [hstate] at hactive
    · rw [hstate] at hactive
      cases hactive
    · rw [hstate] at hactive
      cases hactive
  | @marked before ids hjob he hmarks =>
    simp only [marks, Bool.and_eq_true] at hmarks
    exact ⟨before, hjob, rfl, hmarks.2⟩
  | @settled before hjob failed =>
    refine ⟨before, hjob, (Store.cancelEnded_id failed now before).symm, ?_⟩
    rcases Store.cancelEnded_state failed now before with hstate | ⟨-, hstate | hstate⟩
    · rwa [hstate] at hactive
    · rw [hstate] at hactive
      cases hactive
    · rw [hstate] at hactive
      cases hactive

/-- A job that is being cancelled was so before, or has just been marked. -/
theorem canceling_of_relist {job : Job} (h : job ∈ d.relist now jobs e) (hstate : job.state = .canceling) :
    (∃ before ∈ jobs, before.id = job.id ∧ before.state = .canceling) ∨
      ∃ ids, e = .cancel ids ∧ ∃ before ∈ jobs, before.id = job.id ∧ marks ids jobs before := by
  cases descends_of_mem_relist h with
  | kept hjob => exact .inl ⟨job, hjob, rfl, hstate⟩
  | created => cases hstate
  | stepped _ _ hafter => rcases hafter with rfl | rfl <;> cases hstate
  | @ended before hjob failed =>
    refine .inl ⟨before, hjob, (Store.finished_id failed now before).symm, ?_⟩
    rcases Store.finished_state failed now before with hsame | ⟨-, hsame | hsame⟩
    · exact hsame.symm.trans hstate
    · simp [hsame] at hstate
    · simp [hsame] at hstate
  | @marked before ids hjob he hmarks => exact .inr ⟨ids, he, before, hjob, rfl, hmarks⟩
  | @settled before hjob failed =>
    refine .inl ⟨before, hjob, (Store.cancelEnded_id failed now before).symm, ?_⟩
    rcases Store.cancelEnded_state failed now before with hsame | ⟨-, hsame | hsame⟩
    · exact hsame.symm.trans hstate
    · simp [hsame] at hstate
    · simp [hsame] at hstate

/-- Nothing runs of an id that was given before and of which nothing ran. -/
theorem run?_eq_none_step {id : Int} (h : d.store.jobs = .ok jobs) (hid : id ≤ newestId jobs)
    (hrun : d.run? id = none) : (step now d e).run? id = none := by
  cases he : e.job? with
  | some other =>
    by_cases hne : other = id
    · subst hne
      cases e <;> simp only [Event.job?, Option.some.injEq, reduceCtorEq] at he <;> subst he
      case leave => exact hrun
      all_goals simp only [step, hrun]
    · have hpart : part id (step now d e) (d.relist now jobs e) = part id d jobs := part_step_of_ne now he hne
      exact (congrArg Part.run hpart).trans hrun
  | none =>
    cases e <;> simp only [Event.job?, reduceCtorEq] at he
    case submit spec nodes capacity keepsOutput =>
      unfold run? at hrun
      obtain ⟨-, ⟨hruns, -⟩ | ⟨job, -, hlt, hruns, -⟩⟩ := submit_eq h now spec nodes capacity keepsOutput
      · rw [run?, hruns, hrun]
      · have hne : job.id ≠ id := by omega
        rw [run?, hruns, List.find?_append, hrun]
        simp [hne]
    case cancel ids => exact (congrArg Part.run (part_cancel h now ids)).trans hrun
    case cancelAnswered call other node accepted =>
      exact (congrArg Part.run (part_cancelAnswered d jobs now call other node accepted)).trans hrun
    case cancelEnded call other =>
      rcases step_cancelEnded d jobs now call other with ⟨hstep, -⟩ | ⟨c, j, -, -, -, -, hstep, -⟩
      · rwa [hstep]
      · rw [hstep]
        exact (congrArg Part.run (part_settle d jobs call c j now)).trans hrun

theorem length_withId_relist {id : Int} (h : (withId id jobs).length ≤ 1) :
    (withId id (d.relist now jobs e)).length ≤ 1 := by
  by_cases he : ∃ spec nodes capacity keepsOutput, e = .submit spec nodes capacity keepsOutput
  · obtain ⟨spec, nodes, capacity, keepsOutput, rfl⟩ := he
    exact Store.length_withId_enlist h
  · simp only [not_exists] at he
    rw [Store.length_withId, map_id_relist now d jobs he, ← Store.length_withId]
    exact h

/-- What there is since the store was opened stays so. -/
theorem Inherits.step (h : Inherits old d jobs) {e : Moment × Event} (hr : (d.stepAt e).store.Readable) :
    Inherits old (d.stepAt e) (d.relist e.1.1 jobs e.2) := by
  refine ⟨jobs_stepAt h.read e hr, Int.le_trans h.newest (newestId_relist e.1.1 d jobs e.2), ?_, ?_, ?_⟩
  · intro id hid
    exact run?_eq_none_step h.read (Int.le_trans hid h.newest) (h.runs id hid)
  · intro job hjob hid hactive
    obtain ⟨before, hbefore, heq, hwas⟩ := active_of_relist hjob hactive (h.runs job.id hid)
    rw [← heq] at hid ⊢
    exact h.active before hbefore hid hwas
  · intro id hid
    exact length_withId_relist (h.single id hid)

theorem inherits_of_opened {store opened : Store} (hopen : store.recover = (opened, .ok ()))
    (hold : opened.jobs = .ok old) : Inherits old { store := opened } old := by
  refine ⟨hold, Int.le_refl _, fun _ _ => rfl, ?_, ?_⟩
  · intro job hjob _ hactive
    exact ⟨job, hjob, rfl, Store.canceling_of_recover hopen hold job hjob hactive⟩
  · intro id hid
    simp [withId_of_newestId_lt hid]

end

end Dispatch

end Muster
