import Muster.Proofs.Opening

/-!
# Operations on a store, one after the other

A store is opened in an empty directory, and then any operations follow, each at a moment of its own. What an
operation makes of the list of jobs is a function of the list. As long as the codes of failed nodes and the
number of operations fit 32 bits, the list can always be read.
-/

namespace Muster

namespace SortedMap

variable {κ α : Type} [Ord κ] [Std.TransOrd κ] [Std.LawfulEqOrd κ]

variable {m : SortedMap κ α} {k j : κ} {v w : α}

theorem get?_insertNew_of_some (h : m.get? k = some v) : (m.insertNew j w).get? k = some v := by
  by_cases hk : k = j
  · subst hk
    have hcontains : m.contains k := by simp [contains, h]
    rw [insertNew, if_pos hcontains, h]
  · rw [get?_insertNew_of_ne _ _ hk, h]

/-- An entry was there, or is the new one. -/
theorem entered_of_insertNew (h : (m.insertNew j w).get? k = some v) : m.get? k = some v ∨ (k, v) = (j, w) := by
  by_cases hk : k = j
  · subst hk
    cases hm : m.get? k with
    | some old =>
      rw [get?_insertNew_of_some hm] at h
      exact .inl h
    | none =>
      rw [get?_insertNew_self _ _ hm, Option.some.injEq] at h
      exact .inr (by rw [h])
  · rw [get?_insertNew_of_ne _ _ hk] at h
    exact .inl h

/-- What is entered only where nothing is yet replaces nothing. -/
theorem get?_foldl_insertNew_of_some {l : List (κ × α)} (h : m.get? k = some v) :
    (l.foldl (fun m e => m.insertNew e.1 e.2) m).get? k = some v := by
  induction l generalizing m with
  | nil => exact h
  | cons e rest ih => exact ih (get?_insertNew_of_some h)

theorem entered_of_foldl_insertNew {l : List (κ × α)}
    (h : (l.foldl (fun m e => m.insertNew e.1 e.2) m).get? k = some v) : m.get? k = some v ∨ (k, v) ∈ l := by
  induction l generalizing m with
  | nil => exact .inl h
  | cons e rest ih =>
    rcases ih h with hfirst | hrest
    · rcases entered_of_insertNew hfirst with hold | hnew
      · exact .inl hold
      · exact .inr (by simp [hnew])
    · exact .inr (List.mem_cons_of_mem _ hrest)

end SortedMap

namespace Store

/-- What is asked of a store. -/
inductive Operation
  /-- The store is opened again. -/
  | reopen
  | create (spec : JobSpec) (nodes : List String) (capacity : Nat)
  | change (id : Int) (before after : JobState)
  | finish (id : Int) (failed : SortedMap String Int)
  | plan (ids : JobIds)
  | settle (id : Int) (failed : List String)
  /-- The storage refuses, and nothing is written, or others write to the output directory. -/
  | refused (output : Files)

/-- What an operation makes of a store. -/
def apply (now : Time) (store : Store) : Operation → Store
  | .reopen => store.recover.1
  | .create spec nodes capacity => (store.createJob spec nodes capacity now).1
  | .change id before after => (store.changeState id before after).1
  | .finish id failed => (store.finishJob id failed now).1
  | .plan ids => (store.planCancel ids).1
  | .settle id failed => (store.finishCancel id failed now).1
  | .refused output => { store with output }

/-- What an operation makes of the list of jobs. -/
def relist (now : Time) (jobs : List Job) : Operation → List Job
  | .reopen => jobs.map interrupted
  | .create spec nodes capacity => enlist spec nodes capacity now jobs
  | .change id before after => (updateState id before after jobs).1
  | .finish id failed => changeFirst id (finished failed now) jobs
  | .plan ids => (markCanceling ids jobs).1
  | .settle id failed => changeFirst id (cancelEnded failed now) jobs
  | .refused _ => jobs

/-- Operations with their moments. -/
abbrev History := List (Moment × Operation)

def applyAt (store : Store) (e : Moment × Operation) : Store := store.apply e.1.1 e.2

/-- A store that was opened in an empty directory. -/
def fresh : Store := (recover { file := .absent, output := ∅ }).1

/-- The store after some operations. -/
def after (history : History) : Store := history.foldl applyAt fresh

@[simp] theorem after_nil : after [] = fresh := rfl

@[simp] theorem after_concat (history : History) (e : Moment × Operation) :
    after (history ++ [e]) = (after history).applyAt e := by
  simp [after]

section

variable {store : Store} {jobs : List Job}

theorem timed_relist {now : Time} (hnow : now.IsValid) (h : ∀ job ∈ jobs, job.Timed) (op : Operation) :
    ∀ job ∈ relist now jobs op, job.Timed := by
  cases op with
  | reopen => exact timed_map_interrupted h
  | create spec nodes capacity => exact timed_enlist hnow spec nodes capacity h
  | change id before after => exact timed_updateState h
  | finish id failed => exact timed_changeFirst (fun _ hjob => timed_finished hnow failed hjob) h
  | plan ids => exact timed_mark h
  | settle id failed => exact timed_changeFirst (fun _ hjob => timed_cancelEnded hnow failed hjob) h
  | refused output => exact h

/-- An operation leaves the file as it is, or writes the list that it makes. -/
theorem apply_file (h : store.jobs = .ok jobs) (now : Time) (op : Operation) :
    (store.apply now op).file = store.file ∧ relist now jobs op = jobs ∨
      (store.apply now op).file = JobDocument.save (relist now jobs op) := by
  cases op with
  | reopen => exact .inr (by rw [apply, recover_eq h, relist])
  | create spec nodes capacity => exact .inr (createJob_file h spec nodes capacity now)
  | change id before after => exact .inr (by rw [apply, changeState_eq h, relist])
  | finish id failed => exact .inr (by rw [apply, finishJob, withJob_eq h, relist])
  | plan ids => exact .inr (by rw [apply, planCancel_eq h, relist])
  | settle id failed => exact .inr (by rw [apply, finishCancel, withJob_eq h, relist])
  | refused output => exact .inl ⟨rfl, rfl⟩

/-- The list after an operation, where it can be read. -/
theorem jobs_applyAt (h : store.jobs = .ok jobs) (e : Moment × Operation) (hr : (store.applyAt e).Readable) :
    (store.applyAt e).jobs = .ok (relist e.1.1 jobs e.2) := by
  rcases apply_file h e.1.1 e.2 with ⟨hfile, hlist⟩ | hfile
  · rw [hlist, ← h]
    exact congrArg JobDocument.load hfile
  · exact jobs_of_file hfile (timed_relist e.1.2 (timed_of_jobs h) e.2) hr

/-- A list that cannot be read stays so. -/
theorem apply_file_of_error {fault : Fault} (h : store.jobs = .error fault) (hfile : store.file.isAbsent = false)
    (now : Time) (op : Operation) : (store.apply now op).file = store.file := by
  cases op with
  | reopen => rw [apply, recover_of_error h hfile]
  | create spec nodes capacity => rw [apply, createJob_of_error h]
  | change id before after => rw [apply, changeState_of_error h]
  | finish id failed => rw [apply, finishJob, withJob_of_error h]
  | plan ids => rw [apply, planCancel_of_error h]
  | settle id failed => rw [apply, finishCancel, withJob_of_error h]
  | refused output => rfl

theorem isAbsent_applyAt (hfile : store.file.isAbsent = false) (e : Moment × Operation) :
    (store.applyAt e).file.isAbsent = false := by
  rw [applyAt]
  cases h : store.jobs with
  | ok jobs =>
    rcases apply_file h e.1.1 e.2 with ⟨hsame, -⟩ | hsaved
    · rw [hsame, hfile]
    · rw [hsaved]
      rfl
  | error fault => rw [apply_file_of_error h hfile, hfile]

/-- A list that is read after an operation is what the operation makes of the list before. -/
theorem jobs_of_applyAt {e : Moment × Operation} (hfile : store.file.isAbsent = false)
    (h : (store.applyAt e).jobs = .ok jobs) : ∃ before, store.jobs = .ok before ∧ jobs = relist e.1.1 before e.2 := by
  cases hbefore : store.jobs with
  | ok before =>
    have hjobs := jobs_applyAt hbefore e ⟨jobs, h⟩
    rw [h, Except.ok.injEq] at hjobs
    exact ⟨before, rfl, hjobs⟩
  | error fault =>
    have hsame : (store.applyAt e).jobs = store.jobs :=
      congrArg JobDocument.load (apply_file_of_error hbefore hfile e.1.1 e.2)
    rw [h, hbefore] at hsame
    cases hsame

end

/-- Where a job comes from that is listed after an operation. -/
inductive Stems (now : Time) (op : Operation) (jobs : List Job) : Job → Prop
  | kept {job : Job} (hjob : job ∈ jobs) : Stems now op jobs job
  | created {spec : JobSpec} {nodes : List String} {capacity : Nat} {kept : List Job} {evicted : List Int}
      (hop : op = .create spec nodes capacity) (hev : evict jobs capacity = .ok (kept, evicted)) :
      Stems now op jobs (.new (nextId kept evicted) spec nodes now)
  | moved {job : Job} {state : JobState} (hjob : job ∈ jobs)
      (hedge : state = job.state ∨ job.state.canBecome state) : Stems now op jobs { job with state }
  | ended {job : Job} {id : Int} {failed : SortedMap String Int} (hjob : job ∈ jobs)
      (hop : op = .finish id failed) : Stems now op jobs (finished failed now job)
  | settled {job : Job} (hjob : job ∈ jobs) (failed : List String) :
      Stems now op jobs (cancelEnded failed now job)

/-- An active job can be taken as being cancelled. -/
theorem canceling_of_isActive {state : JobState} (h : state.isActive) :
    .canceling = state ∨ state.canBecome .canceling := by
  cases state with
  | dispatching | running => exact .inr rfl
  | canceling => exact .inl rfl
  | created | finished | failed | canceled | cancelFailed => cases h

theorem stems_of_mem_relist {jobs : List Job} {now : Time} {op : Operation} {job : Job}
    (h : job ∈ relist now jobs op) : Stems now op jobs job := by
  cases op with
  | reopen =>
    obtain ⟨before, hbefore, rfl⟩ := List.mem_map.1 h
    unfold interrupted
    split
    · rename_i hactive
      exact .moved hbefore (canceling_of_isActive hactive)
    · exact .kept hbefore
  | create spec nodes capacity =>
    cases hev : evict jobs capacity with
    | error fault =>
      rw [relist, enlist, hev] at h
      exact .kept h
    | ok r =>
      obtain ⟨kept, evicted⟩ := r
      rw [relist, enlist_eq hev] at h
      rcases List.mem_append.1 h with h | h
      · rw [(evict_eq_ok hev).2] at h
        exact .kept (List.mem_filter.1 h).1
      · rw [List.mem_singleton.1 h]
        exact .created rfl hev
  | change id before after =>
    rcases mem_updateState h with h | ⟨found, hfound, rfl, hedge, rfl⟩
    · exact .kept h
    · exact .moved (find?_mem hfound).1 (.inr hedge)
  | finish id failed =>
    rcases mem_changeFirst h with h | ⟨found, hfound, rfl⟩
    · exact .kept h
    · exact .ended (find?_mem hfound).1 rfl
  | plan ids =>
    rw [relist, markCanceling_eq] at h
    obtain ⟨before, hbefore, rfl⟩ := List.mem_map.1 h
    unfold mark
    split
    · rename_i hmarks
      simp only [marks, Bool.and_eq_true] at hmarks
      exact .moved hbefore (canceling_of_isActive hmarks.2)
    · exact .kept hbefore
  | settle id failed =>
    rcases mem_changeFirst h with h | ⟨found, hfound, rfl⟩
    · exact .kept h
    · exact .settled (find?_mem hfound).1 failed
  | refused output => exact .kept h

/-! ### Whole runs -/

theorem jobs_fresh : fresh.jobs = .ok [] := JobDocument.load_save (by simp)

theorem isAbsent_after (history : History) : (after history).file.isAbsent = false := by
  induction history using List.reverseRecOn with
  | nil => rfl
  | append_singleton history e ih =>
    rw [after_concat]
    exact isAbsent_applyAt ih e

theorem jobs_of_concat {history : History} {e : Moment × Operation} {jobs : List Job}
    (h : (after (history ++ [e])).jobs = .ok jobs) :
    ∃ before, (after history).jobs = .ok before ∧ jobs = relist e.1.1 before e.2 := by
  rw [after_concat] at h
  exact jobs_of_applyAt (isAbsent_after history) h

/-! ### Lists that can be read -/

/-- The codes that an operation notes fit 32 bits. -/
def Operation.Fits : Operation → Prop
  | .finish _ failed => ∀ e ∈ failed.toList, Fits32 e.2
  | _ => True

def Operation.isCreate : Operation → Bool
  | .create .. => true
  | _ => false

/-- How many jobs were asked for. -/
def requests (history : History) : Nat := history.countP fun e => e.2.isCreate

/-- A list of jobs that its document keeps, with ids from 1 on. -/
structure Kept (n : Nat) (jobs : List Job) : Prop where
  storable : ∀ job ∈ jobs, job.Storable
  ids : ∀ job ∈ jobs, 1 ≤ job.id ∧ job.id ≤ n

theorem storable_finished {now : Time} (hnow : now.IsValid) {failed : SortedMap String Int}
    (hfits : ∀ e ∈ failed.toList, Fits32 e.2) {job : Job} (h : job.Storable) :
    (finished failed now job).Storable := by
  refine ⟨timed_finished hnow failed h.toTimed, by rw [finished_id]; exact h.id, ?_⟩
  rintro ⟨node, code⟩ hmem
  rw [finished_failedNodes, ← SortedMap.get?_eq_some_iff] at hmem
  rcases SortedMap.entered_of_foldl_insertNew hmem with hold | hnew
  · exact h.codes _ ((SortedMap.get?_eq_some_iff _ _ _).1 hold)
  · exact hfits _ hnew

theorem storable_cancelEnded {now : Time} (hnow : now.IsValid) (failed : List String) {job : Job}
    (h : job.Storable) : (cancelEnded failed now job).Storable :=
  ⟨timed_cancelEnded hnow failed h.toTimed, by rw [cancelEnded_id]; exact h.id,
    by rw [cancelEnded_failedNodes]; exact h.codes⟩

section

variable {jobs : List Job} {n : Nat}

/-- The next id is the number of jobs so far at most. -/
theorem nextId_le (h : Kept n jobs) {capacity : Nat} {kept : List Job} {evicted : List Int}
    (hev : evict jobs capacity = .ok (kept, evicted)) : nextId kept evicted ≤ n + 1 := by
  have hgreatest {l : List Int} (hl : ∀ id ∈ l, id ≤ n) : greatest l ≤ n := by
    cases l with
    | nil => exact Int.natCast_nonneg n
    | cons id rest => exact hl _ (greatest_mem (by simp))
  obtain ⟨rfl, rfl⟩ := evict_eq_ok hev
  have hkept : newestId (jobs.filter fun job => !(evictable jobs capacity).contains job.id) ≤ n := by
    refine hgreatest ?_
    intro id hid
    obtain ⟨job, hjob, rfl⟩ := List.mem_map.1 hid
    exact (h.ids job (List.mem_filter.1 hjob).1).2
  have hevicted : greatest (evictable jobs capacity) ≤ n := by
    refine hgreatest ?_
    intro id hid
    obtain ⟨job, hjob, rfl, -⟩ := mem_evictable hid
    exact (h.ids job hjob).2
  unfold nextId
  omega

theorem nextId_pos (h : Kept n jobs) {capacity : Nat} {kept : List Job} {evicted : List Int}
    (hev : evict jobs capacity = .ok (kept, evicted)) : 1 ≤ nextId kept evicted := by
  have hlt := newestId_lt_nextId hev
  have hnonneg : 0 ≤ newestId jobs := by
    cases jobs with
    | nil => exact Int.le_refl 0
    | cons first rest =>
      have hle : first.id ≤ newestId (first :: rest) := le_newestId (by simp)
      have hpos := (h.ids first (by simp)).1
      omega
  omega

theorem least32_le_newestId (h : ∀ job ∈ jobs, job.Storable) : Width.least32 ≤ newestId jobs := by
  cases jobs with
  | nil => decide
  | cons first rest => exact Int.le_trans (h first (by simp)).id.1 (le_newestId (by simp))

/-- An operation that fits makes a list that its document keeps, where the next id fits too. -/
theorem storable_relist (h : ∀ job ∈ jobs, job.Storable) {now : Time} (hnow : now.IsValid) {op : Operation}
    (hop : op.Fits)
    (hnext : ∀ spec nodes capacity kept evicted, op = .create spec nodes capacity →
      evict jobs capacity = .ok (kept, evicted) → nextId kept evicted ≤ Width.greatest32) :
    ∀ job ∈ relist now jobs op, job.Storable := by
  intro job hjob
  cases stems_of_mem_relist hjob with
  | kept hbefore => exact h job hbefore
  | @created spec nodes capacity kept evicted hcreate hev =>
    have hleast : Width.least32 ≤ nextId kept evicted :=
      Int.le_trans (least32_le_newestId h) (Int.le_of_lt (newestId_lt_nextId hev))
    exact ⟨timed_new hnow _ spec nodes, ⟨hleast, hnext _ _ _ _ _ hcreate hev⟩, by simp [Job.new]⟩
  | moved hbefore => exact storable_setState (h _ hbefore) _
  | @ended before id failed hbefore hfinish =>
    subst hfinish
    exact storable_finished hnow hop (h before hbefore)
  | settled hbefore failed => exact storable_cancelEnded hnow failed (h _ hbefore)

/-- An operation that fits keeps the list such, where one more job may have come. -/
theorem kept_relist (h : Kept n jobs) {now : Time} (hnow : now.IsValid) {op : Operation} (hop : op.Fits)
    (hn : ((n + op.isCreate.toNat : Nat) : Int) ≤ Width.greatest32) :
    Kept (n + op.isCreate.toNat) (relist now jobs op) := by
  have hold {job : Job} (hjob : job ∈ jobs) : 1 ≤ job.id ∧ job.id ≤ (n + op.isCreate.toNat : Nat) := by
    have := h.ids job hjob
    omega
  refine ⟨storable_relist h.storable hnow hop ?_, ?_⟩
  · intro spec nodes capacity kept evicted hcreate hev
    subst hcreate
    exact Int.le_trans (nextId_le h hev) hn
  · intro job hjob
    cases stems_of_mem_relist hjob with
    | kept hbefore => exact hold hbefore
    | created hcreate hev =>
      subst hcreate
      exact ⟨nextId_pos h hev, nextId_le h hev⟩
    | moved hbefore =>
      have hids := hold hbefore
      exact hids
    | ended hbefore =>
      rw [finished_id]
      exact hold hbefore
    | settled hbefore failed =>
      rw [cancelEnded_id]
      exact hold hbefore

end

/-- As long as the codes and the number of jobs fit 32 bits, the list can be read. -/
theorem readable_after {history : History} (hfits : ∀ e ∈ history, e.2.Fits)
    (hn : (requests history : Int) ≤ Width.greatest32) :
    ∃ jobs, (after history).jobs = .ok jobs ∧ Kept (requests history) jobs := by
  induction history using List.reverseRecOn with
  | nil => exact ⟨[], jobs_fresh, by simp, by simp⟩
  | append_singleton history e ih =>
    have hcount : requests (history ++ [e]) = requests history + e.2.isCreate.toNat := by
      cases he : e.2.isCreate <;> simp [requests, he]
    rw [hcount] at hn ⊢
    obtain ⟨jobs, hjobs, hkept⟩ := ih (fun e he => hfits e (List.mem_append_left _ he)) (by omega)
    have hnext := kept_relist hkept e.1.2 (hfits e (by simp)) hn
    refine ⟨relist e.1.1 jobs e.2, ?_, hnext⟩
    rw [after_concat]
    rcases apply_file hjobs e.1.1 e.2 with ⟨hfile, hlist⟩ | hfile
    · rw [hlist, ← hjobs]
      exact congrArg JobDocument.load hfile
    · exact (congrArg JobDocument.load hfile).trans (JobDocument.load_save hnext.storable)

end Store

end Muster
