import Muster.Proofs.Sorted
import Muster.Store

/-!
# Lists of jobs

What each operation of the store does to the jobs with one id. A new id is above all that are listed, so no
id is given twice.
-/

namespace Muster.Store

/-- The jobs with an id. -/
def withId (id : Int) (jobs : List Job) : List Job := jobs.filter fun job => job.id == id

@[simp] theorem withId_nil (id : Int) : withId id [] = [] := rfl

theorem withId_cons (id : Int) (job : Job) (rest : List Job) :
    withId id (job :: rest) = if job.id = id then job :: withId id rest else withId id rest := by
  by_cases h : job.id = id <;> simp [withId, h]

@[simp] theorem withId_append (id : Int) (jobs more : List Job) :
    withId id (jobs ++ more) = withId id jobs ++ withId id more := by
  simp [withId]

theorem mem_withId {id : Int} {jobs : List Job} {job : Job} :
    job ∈ withId id jobs ↔ job ∈ jobs ∧ job.id = id := by
  simp [withId]

theorem withId_eq_nil {id : Int} {jobs : List Job} : withId id jobs = [] ↔ ∀ job ∈ jobs, job.id ≠ id := by
  simp [withId]

theorem withId_map (id : Int) {f : Job → Job} (hf : ∀ job, (f job).id = job.id) (jobs : List Job) :
    withId id (jobs.map f) = (withId id jobs).map f := by
  simp [withId, List.filter_map, Function.comp_def, hf]

theorem withId_filter (id : Int) (p : Job → Bool) (jobs : List Job) :
    withId id (jobs.filter p) = (withId id jobs).filter p := by
  simp [withId, List.filter_filter, Bool.and_comm]

theorem withId_changeFirst (id : Int) {f : Job → Job} (hf : ∀ job, (f job).id = job.id)
    (jobs : List Job) : withId id (changeFirst id f jobs) = changeFirst id f (withId id jobs) := by
  induction jobs with
  | nil => rfl
  | cons job rest ih =>
    by_cases h : job.id = id
    · simp [changeFirst, withId_cons, hf, h]
    · simp [changeFirst, withId_cons, h, ih]

theorem withId_changeFirst_of_ne {id other : Int} (hne : other ≠ id) {f : Job → Job}
    (hf : ∀ job, (f job).id = job.id) (jobs : List Job) :
    withId id (changeFirst other f jobs) = withId id jobs := by
  induction jobs with
  | nil => rfl
  | cons job rest ih =>
    by_cases h : job.id = other
    · simp [changeFirst, withId_cons, hf, h, hne]
    · simp [changeFirst, withId_cons, h, ih]

theorem withId_changeFirst_self {id : Int} {f : Job → Job} (hf : ∀ job, (f job).id = job.id)
    {jobs : List Job} {job : Job} (h : withId id jobs = [job]) :
    withId id (changeFirst id f jobs) = [f job] := by
  have hid : job.id = id := (mem_withId.1 (h ▸ List.mem_singleton_self job)).2
  rw [withId_changeFirst id hf, h, changeFirst, if_pos hid]

theorem find?_eq_head? (id : Int) (jobs : List Job) : find? id jobs = (withId id jobs).head? := by
  rw [find?, withId, List.head?_filter]

theorem find?_eq_some {id : Int} {jobs : List Job} {job : Job} (h : withId id jobs = [job]) :
    find? id jobs = some job := by
  rw [find?_eq_head?, h, List.head?_cons]

theorem find?_eq_none {id : Int} {jobs : List Job} (h : withId id jobs = []) : find? id jobs = none := by
  rw [find?_eq_head?, h, List.head?_nil]

/-! ### Ids -/

theorem le_foldl_max (l : List Int) (n : Int) : n ≤ l.foldl max n ∧ ∀ i ∈ l, i ≤ l.foldl max n := by
  induction l generalizing n with
  | nil => simp
  | cons i rest ih =>
    obtain ⟨hn, hrest⟩ := ih (max n i)
    rw [List.foldl_cons]
    refine ⟨by omega, ?_⟩
    intro j hj
    rcases List.mem_cons.1 hj with rfl | hj
    · omega
    · exact hrest j hj

theorem le_greatest {l : List Int} {i : Int} (h : i ∈ l) : i ≤ greatest l := by
  cases l with
  | nil => cases h
  | cons j rest =>
    obtain ⟨hj, hrest⟩ := le_foldl_max rest j
    rcases List.mem_cons.1 h with rfl | h
    · exact hj
    · exact hrest i h

theorem foldl_max_mem (l : List Int) (n : Int) : l.foldl max n = n ∨ l.foldl max n ∈ l := by
  induction l generalizing n with
  | nil => simp
  | cons i rest ih =>
    rw [List.foldl_cons]
    rcases ih (max n i) with h | h
    · rw [h]
      by_cases hmax : n ≤ i
      · exact .inr (by simp [Int.max_eq_right hmax])
      · exact .inl (Int.max_eq_left (by omega))
    · exact .inr (List.mem_cons_of_mem _ h)

theorem greatest_mem {l : List Int} (h : l ≠ []) : greatest l ∈ l := by
  cases l with
  | nil => exact absurd rfl h
  | cons i rest =>
    rcases foldl_max_mem rest i with hi | hi
    · rw [greatest, hi]
      exact List.mem_cons_self
    · exact List.mem_cons_of_mem _ hi

theorem le_newestId {jobs : List Job} {job : Job} (h : job ∈ jobs) : job.id ≤ newestId jobs :=
  le_greatest (List.mem_map.2 ⟨job, h, rfl⟩)

theorem newestId_concat {jobs : List Job} {job : Job} (h : ∀ j ∈ jobs, j.id ≤ job.id) :
    newestId (jobs ++ [job]) = job.id := by
  have hle : job.id ≤ newestId (jobs ++ [job]) := le_newestId (by simp)
  have hmem : newestId (jobs ++ [job]) ∈ (jobs ++ [job]).map (·.id) := greatest_mem (by simp)
  obtain ⟨j, hj, heq⟩ := List.mem_map.1 hmem
  rcases List.mem_append.1 hj with hj | hj
  · have := h j hj
    omega
  · have : j = job := by simpa using hj
    rw [← heq, this]

/-! ### Room for one more -/

theorem mem_evictable {jobs : List Job} {capacity : Nat} {id : Int} (h : id ∈ evictable jobs capacity) :
    ∃ job ∈ jobs, job.id = id ∧ job.state.isActive = false := by
  obtain ⟨job, hjob, hid⟩ := List.mem_map.1 h
  have hmem := List.mem_of_mem_take hjob
  rw [List.mem_filter] at hmem
  exact ⟨job, hmem.1, hid, by simpa using hmem.2⟩

theorem evict_eq_ok {jobs kept : List Job} {capacity : Nat} {evicted : List Int}
    (h : evict jobs capacity = .ok (kept, evicted)) :
    evicted = evictable jobs capacity ∧ kept = jobs.filter fun job => !evicted.contains job.id := by
  unfold evict at h
  simp only at h
  split at h
  · cases h
  · cases h
    exact ⟨rfl, rfl⟩

/-- The next id is above that of every job that was listed, those that went included. -/
theorem lt_nextId {jobs kept : List Job} {capacity : Nat} {evicted : List Int}
    (h : evict jobs capacity = .ok (kept, evicted)) {job : Job} (hjob : job ∈ jobs) :
    job.id < nextId kept evicted := by
  obtain ⟨-, hkept⟩ := evict_eq_ok h
  unfold nextId
  by_cases hev : job.id ∈ evicted
  · have := le_greatest hev
    omega
  · have hmem : job ∈ kept := by
      rw [hkept]
      simp [hjob, hev]
    have := le_newestId hmem
    omega

theorem newestId_lt_nextId {jobs kept : List Job} {capacity : Nat} {evicted : List Int}
    (h : evict jobs capacity = .ok (kept, evicted)) : newestId jobs < nextId kept evicted := by
  cases jobs with
  | nil =>
    have hpos : (0 : Int) ≤ max (newestId kept) (greatest evicted) := by
      obtain ⟨rfl, rfl⟩ := evict_eq_ok h
      simp [newestId, greatest, evictable]
    change 0 < nextId kept evicted
    unfold nextId
    omega
  | cons job rest =>
    obtain ⟨j, hj, heq⟩ := List.mem_map.1 (greatest_mem (l := (job :: rest).map (·.id)) (by simp))
    rw [newestId, ← heq]
    exact lt_nextId h hj

theorem withId_evict {jobs kept : List Job} {capacity : Nat} {evicted : List Int}
    (h : evict jobs capacity = .ok (kept, evicted)) (id : Int) :
    withId id kept = if id ∈ evicted then [] else withId id jobs := by
  obtain ⟨-, rfl⟩ := evict_eq_ok h
  rw [withId_filter]
  split
  · rename_i hid
    rw [List.filter_eq_nil_iff]
    intro job hjob
    simp [(mem_withId.1 hjob).2, hid]
  · rename_i hid
    rw [List.filter_eq_self]
    intro job hjob
    simp [(mem_withId.1 hjob).2, hid]

/-! ### Changes of state -/

theorem withId_updateState_of_ne {id other : Int} (hne : other ≠ id) (before after : JobState)
    (jobs : List Job) : withId id (updateState other before after jobs).1 = withId id jobs := by
  unfold updateState
  split
  · split
    · exact withId_changeFirst_of_ne hne (f := fun job => { job with state := after }) (fun _ => rfl) jobs
    · rfl
  · rfl

theorem updateState_self {id : Int} {before : JobState} (after : JobState) {jobs : List Job} {job : Job}
    (h : withId id jobs = [job]) (hstate : job.state = before) (hedge : before.canBecome after) :
    withId id (updateState id before after jobs).1 = [{ job with state := after }] ∧
      (updateState id before after jobs).2 = true := by
  have hcond : job.state = before ∧ before.canBecome after := ⟨hstate, hedge⟩
  simp only [updateState, find?_eq_some h, hcond, and_self, if_true]
  exact ⟨withId_changeFirst_self (f := fun job => { job with state := after }) (fun _ => rfl) h, trivial⟩

theorem updateState_other {id : Int} {before after : JobState} {jobs : List Job}
    (h : ∀ job ∈ withId id jobs, job.state ≠ before) :
    updateState id before after jobs = (jobs, false) := by
  unfold updateState
  split
  · rename_i job hfind
    rw [find?_eq_head?] at hfind
    have hne := h job (List.mem_of_mem_head? hfind)
    simp [hne]
  · rfl

/-! ### Cancellation -/

/-- Whether a cancellation of a selection marks a job of a list. -/
def marks (ids : JobIds) (jobs : List Job) (job : Job) : Bool :=
  selects ids (newestId jobs) job && job.state.isActive

def mark (ids : JobIds) (jobs : List Job) (job : Job) : Job :=
  if marks ids jobs job then { job with state := .canceling } else job

@[simp] theorem mark_id (ids : JobIds) (jobs : List Job) (job : Job) :
    (mark ids jobs job).id = job.id := by
  unfold mark
  split <;> rfl

theorem markCanceling_eq (ids : JobIds) (jobs : List Job) :
    markCanceling ids jobs = (jobs.map (mark ids jobs),
      SortedMap.ofList ((jobs.filter (marks ids jobs)).map fun job => (job.id, job.nodes))) := rfl

theorem withId_markCanceling (id : Int) (ids : JobIds) (jobs : List Job) :
    withId id (markCanceling ids jobs).1 = (withId id jobs).map (mark ids jobs) :=
  withId_map id (mark_id ids jobs) jobs

/-- The plan has the jobs that are marked. -/
theorem contains_plan (ids : JobIds) (jobs : List Job) (id : Int) :
    (markCanceling ids jobs).2.contains id ↔ ∃ job ∈ withId id jobs, marks ids jobs job := by
  rw [markCanceling_eq, SortedMap.contains_ofList]
  simp only [List.map_map, List.mem_map, List.mem_filter, mem_withId, Function.comp_apply]
  constructor
  · rintro ⟨job, ⟨hjob, hmarks⟩, rfl⟩
    exact ⟨job, ⟨hjob, rfl⟩, hmarks⟩
  · rintro ⟨job, ⟨hjob, rfl⟩, hmarks⟩
    exact ⟨job, ⟨hjob, hmarks⟩, rfl⟩

/-- The plan has the nodes of the jobs that are marked. -/
theorem mem_plan {ids : JobIds} {jobs : List Job} {id : Int} {nodes : List String}
    (h : (id, nodes) ∈ (markCanceling ids jobs).2.toList) :
    ∃ job ∈ jobs, job.id = id ∧ job.nodes = nodes ∧ marks ids jobs job := by
  rw [markCanceling_eq] at h
  obtain ⟨job, hjob, heq⟩ := List.mem_map.1 (SortedMap.mem_of_mem_ofList h)
  simp only [Prod.mk.injEq] at heq
  rw [List.mem_filter] at hjob
  exact ⟨job, hjob.1, heq.1, heq.2, hjob.2⟩

/-! ### Ends -/

@[simp] theorem finished_id (failed : SortedMap String Int) (now : Time) (job : Job) :
    (finished failed now job).id = job.id := by
  unfold finished
  simp only
  split <;> rfl

@[simp] theorem finished_nodes (failed : SortedMap String Int) (now : Time) (job : Job) :
    (finished failed now job).nodes = job.nodes := by
  unfold finished
  simp only
  split <;> rfl

theorem finished_failedNodes (failed : SortedMap String Int) (now : Time) (job : Job) :
    (finished failed now job).failedNodes =
      failed.toList.foldl (fun m (node, code) => m.insertNew node code) job.failedNodes := by
  unfold finished
  simp only
  split <;> rfl

@[simp] theorem cancelEnded_id (failed : List String) (now : Time) (job : Job) :
    (cancelEnded failed now job).id = job.id := by
  unfold cancelEnded
  split
  · split <;> rfl
  · rfl

@[simp] theorem cancelEnded_nodes (failed : List String) (now : Time) (job : Job) :
    (cancelEnded failed now job).nodes = job.nodes := by
  unfold cancelEnded
  split
  · split <;> rfl
  · rfl

@[simp] theorem cancelEnded_failedNodes (failed : List String) (now : Time) (job : Job) :
    (cancelEnded failed now job).failedNodes = job.failedNodes := by
  unfold cancelEnded
  split
  · split <;> rfl
  · rfl

end Muster.Store
