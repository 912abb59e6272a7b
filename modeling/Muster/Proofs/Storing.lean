import Muster.Proofs.Document
import Muster.Proofs.JobList

/-!
# Operations on a store that can be read

As long as its file can be read, a store is its list of jobs, and each operation is the change of that list.
A file that cannot be read is left as it is.
-/

namespace Muster

/-- A moment that has a text. -/
abbrev Moment := { t : Time // t.IsValid }

namespace Store

variable {α : Type}

/-- The file of the store can be read. -/
def Readable (store : Store) : Prop := ∃ jobs, store.jobs = .ok jobs

theorem readable_of_isSome {store : Store} (h : store.jobs.toOption.isSome) : store.Readable := by
  cases hjobs : store.jobs with
  | ok jobs => exact ⟨jobs, hjobs⟩
  | error fault =>
    rw [hjobs] at h
    cases h

theorem timed_of_jobs {store : Store} {jobs : List Job} (h : store.jobs = .ok jobs) :
    ∀ job ∈ jobs, job.Timed := fun job hjob =>
  (JobDocument.storable_of_load h job hjob).toTimed

theorem withJobs_eq {store : Store} {jobs : List Job} (h : store.jobs = .ok jobs)
    (f : List Job → List Job × α) :
    store.withJobs f = ({ store with file := JobDocument.save (f jobs).1 }, .ok (f jobs).2) := by
  simp only [withJobs, h]
  rfl

theorem withJobs_of_error {store : Store} {fault : Fault} (h : store.jobs = .error fault)
    (f : List Job → List Job × α) : store.withJobs f = (store, .error fault) := by
  simp only [withJobs, h]

/-! ### Times of changed jobs -/

theorem timed_changeFirst {id : Int} {f : Job → Job} (hf : ∀ job : Job, job.Timed → (f job).Timed)
    {jobs : List Job} (h : ∀ job ∈ jobs, job.Timed) : ∀ job ∈ changeFirst id f jobs, job.Timed := by
  induction jobs with
  | nil => simp [changeFirst]
  | cons job rest ih =>
    simp only [List.mem_cons, forall_eq_or_imp] at h
    unfold changeFirst
    split
    · simp only [List.mem_cons, forall_eq_or_imp]
      exact ⟨hf job h.1, h.2⟩
    · simp only [List.mem_cons, forall_eq_or_imp]
      exact ⟨h.1, ih h.2⟩

theorem timed_setState {job : Job} (h : job.Timed) (state : JobState) :
    Job.Timed { job with state } := ⟨h.created, h.ended⟩

theorem storable_setState {job : Job} (h : job.Storable) (state : JobState) : Job.Storable { job with state } :=
  ⟨timed_setState h.toTimed state, h.id, h.codes⟩

theorem timed_updateState {id : Int} {before after : JobState} {jobs : List Job}
    (h : ∀ job ∈ jobs, job.Timed) : ∀ job ∈ (updateState id before after jobs).1, job.Timed := by
  unfold updateState
  split
  · split
    · exact timed_changeFirst (fun job hjob => timed_setState hjob after) h
    · exact h
  · exact h

theorem timed_finished {now : Time} (hnow : now.IsValid) (failed : SortedMap String Int) {job : Job}
    (h : job.Timed) : (finished failed now job).Timed := by
  unfold finished
  simp only
  split
  · refine ⟨h.created, ?_⟩
    rintro _ ⟨⟩
    exact hnow
  · exact ⟨h.created, h.ended⟩

theorem timed_cancelEnded {now : Time} (hnow : now.IsValid) (failed : List String) {job : Job}
    (h : job.Timed) : (cancelEnded failed now job).Timed := by
  have hend : ∀ t ∈ some now, t.IsValid := by
    rintro _ ⟨⟩
    exact hnow
  unfold cancelEnded
  split
  · split
    · exact ⟨h.created, hend⟩
    · exact ⟨h.created, hend⟩
  · exact h

theorem timed_mark {ids : JobIds} {jobs : List Job} (h : ∀ job ∈ jobs, job.Timed) :
    ∀ job ∈ (markCanceling ids jobs).1, job.Timed := by
  intro job hjob
  rw [markCanceling_eq] at hjob
  obtain ⟨before, hbefore, rfl⟩ := List.mem_map.1 hjob
  unfold mark
  split
  · exact timed_setState (h before hbefore) .canceling
  · exact h before hbefore

theorem timed_new {now : Time} (hnow : now.IsValid) (id : Int) (spec : JobSpec) (nodes : List String) :
    (Job.new id spec nodes now).Timed := by
  refine ⟨hnow, ?_⟩
  rintro _ ⟨⟩

/-! ### Operations -/

theorem jobs_of_file {store : Store} {jobs : List Job} (hfile : store.file = JobDocument.save jobs)
    (ht : ∀ job ∈ jobs, job.Timed) (hr : store.Readable) : store.jobs = .ok jobs := by
  obtain ⟨found, hfound⟩ := hr
  rw [Store.jobs, hfile] at hfound ⊢
  exact JobDocument.load_save (JobDocument.storable_of_load_save ht hfound)

/-- The list with a new job, or the list as it is where there is no room for it. -/
def enlist (spec : JobSpec) (nodes : List String) (capacity : Nat) (now : Time) (jobs : List Job) :
    List Job :=
  match evict jobs capacity with
  | .error _ => jobs
  | .ok (kept, evicted) => kept ++ [Job.new (nextId kept evicted) spec nodes now]

theorem enlist_eq {jobs kept : List Job} {capacity : Nat} {evicted : List Int}
    (h : evict jobs capacity = .ok (kept, evicted)) (spec : JobSpec) (nodes : List String) (now : Time) :
    enlist spec nodes capacity now jobs = kept ++ [Job.new (nextId kept evicted) spec nodes now] := by
  rw [enlist, h]

theorem timed_enlist {now : Time} (hnow : now.IsValid) (spec : JobSpec) (nodes : List String)
    (capacity : Nat) {jobs : List Job} (h : ∀ job ∈ jobs, job.Timed) :
    ∀ job ∈ enlist spec nodes capacity now jobs, job.Timed := by
  unfold enlist
  split
  · exact h
  · rename_i kept evicted hev
    obtain ⟨-, rfl⟩ := evict_eq_ok hev
    intro job hjob
    rcases List.mem_append.1 hjob with hjob | hjob
    · exact h job (List.mem_filter.1 hjob).1
    · rw [List.mem_singleton.1 hjob]
      exact timed_new hnow _ spec nodes

/-- The newest id never becomes less. -/
theorem newestId_enlist (spec : JobSpec) (nodes : List String) (capacity : Nat) (now : Time)
    (jobs : List Job) : newestId jobs ≤ newestId (enlist spec nodes capacity now jobs) := by
  unfold enlist
  split
  · exact Int.le_refl _
  · rename_i kept evicted hev
    have hkept : ∀ job ∈ kept, job.id ≤ (Job.new (nextId kept evicted) spec nodes now).id := by
      intro job hjob
      obtain ⟨-, rfl⟩ := evict_eq_ok hev
      exact Int.le_of_lt (lt_nextId hev (List.mem_filter.1 hjob).1)
    rw [newestId_concat hkept]
    exact Int.le_of_lt (newestId_lt_nextId hev)

section readable

variable {store : Store} {jobs : List Job}

theorem createJob_file (h : store.jobs = .ok jobs) (spec : JobSpec) (nodes : List String)
    (capacity : Nat) (now : Time) :
    (store.createJob spec nodes capacity now).1.file =
      JobDocument.save (enlist spec nodes capacity now jobs) := by
  unfold createJob enlist
  simp only [withJobs_eq h]
  cases hev : evict jobs capacity with
  | error fault => rfl
  | ok r =>
    simp only
    split <;> rfl

/-- A job that is created has the next id and is listed. -/
theorem createJob_ok (h : store.jobs = .ok jobs) {spec : JobSpec} {nodes : List String}
    {capacity : Nat} {now : Time} {job : Job}
    (hok : (store.createJob spec nodes capacity now).2 = .ok job) :
    ∃ kept evicted, evict jobs capacity = .ok (kept, evicted) ∧
      job = Job.new (nextId kept evicted) spec nodes now := by
  unfold createJob at hok
  simp only [withJobs_eq h] at hok
  cases hev : evict jobs capacity with
  | error fault =>
    simp only [hev] at hok
    cases hok
  | ok r =>
    simp only [hev] at hok
    split at hok
    · cases hok
      exact ⟨r.1, r.2, rfl, rfl⟩
    · cases hok

theorem changeState_eq (h : store.jobs = .ok jobs) (id : Int) (before after : JobState) :
    store.changeState id before after =
      ({ store with file := JobDocument.save (updateState id before after jobs).1 },
        .ok (updateState id before after jobs).2) := withJobs_eq h _

theorem planCancel_eq (h : store.jobs = .ok jobs) (ids : JobIds) :
    store.planCancel ids = ({ store with file := JobDocument.save (markCanceling ids jobs).1 },
      .ok (markCanceling ids jobs).2) := withJobs_eq h _

theorem withJob_eq (h : store.jobs = .ok jobs) (id : Int) (f : Job → Job) :
    store.withJob id f = ({ store with file := JobDocument.save (changeFirst id f jobs) },
      match find? id jobs with
      | none => .error (.unknownJob id)
      | some job => .ok (f job).state) := by
  unfold withJob
  rw [withJobs_eq h]
  cases find? id jobs <;> rfl

end readable

section unreadable

variable {store : Store} {fault : Fault}

theorem createJob_of_error (h : store.jobs = .error fault) (spec : JobSpec) (nodes : List String)
    (capacity : Nat) (now : Time) :
    store.createJob spec nodes capacity now = (store, .error fault) := by
  unfold createJob
  simp only [withJobs_of_error h]

theorem changeState_of_error (h : store.jobs = .error fault) (id : Int) (before after : JobState) :
    store.changeState id before after = (store, .error fault) := withJobs_of_error h _

theorem planCancel_of_error (h : store.jobs = .error fault) (ids : JobIds) :
    store.planCancel ids = (store, .error fault) := withJobs_of_error h _

theorem withJob_of_error (h : store.jobs = .error fault) (id : Int) (f : Job → Job) :
    store.withJob id f = (store, .error fault) := by
  unfold withJob
  rw [withJobs_of_error h]

end unreadable

end Store

end Muster
