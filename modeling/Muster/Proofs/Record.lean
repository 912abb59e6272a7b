import Mathlib.Data.List.Nodup
import Mathlib.Logic.Relation
import Muster.Proofs.Operations

/-!
# The records of jobs

Whatever is asked of a store, and however it goes, a record of a job only ever grows. Its state moves along the
edges between states, the end is noted once, and what was noted before stays. A record that is gone was driven
out by a new job while the job was not active, and its id is not given again.
-/

namespace Muster

namespace JobState

/-- The edges between states. -/
def Edge (a b : JobState) : Prop := a.canBecome b

theorem not_edge_of_isTerminal {a b : JobState} (h : a.isTerminal) : ¬ a.Edge b := by
  cases a <;> cases b <;> simp_all [isTerminal, Edge, canBecome]

/-- No way leads on from a state in which nothing more happens. -/
theorem eq_of_isTerminal {a b : JobState} (h : a.isTerminal) (hpath : Relation.ReflTransGen Edge a b) :
    b = a := by
  rcases Relation.ReflTransGen.cases_head hpath with heq | ⟨c, hedge, -⟩
  · exact heq.symm
  · exact absurd hedge (not_edge_of_isTerminal h)

end JobState

namespace Job

/-- What stays in the record of a job. -/
structure Keeps (job later : Job) : Prop where
  id : later.id = job.id
  spec : later.spec = job.spec
  nodes : later.nodes = job.nodes
  createTime : later.createTime = job.createTime
  endTime : ∀ t, job.endTime = some t → later.endTime = some t
  failedNodes : ∀ node code, job.failedNodes.get? node = some code → later.failedNodes.get? node = some code

/-- The end of a job, and the nodes that did not let it be cancelled, go with its state. -/
structure Coherent (job : Job) : Prop where
  ended : job.endTime.isSome → job.state.isTerminal
  refused : job.cancelFailedNodes ≠ [] → job.state = .cancelFailed

/-- What becomes of a job in the course of time. -/
structure Becomes (job later : Job) : Prop extends Keeps job later where
  path : Relation.ReflTransGen JobState.Edge job.state later.state
  final : job.state.isTerminal → later.state = job.state

variable {job later last : Job}

theorem Keeps.refl (job : Job) : job.Keeps job := ⟨rfl, rfl, rfl, rfl, fun _ h => h, fun _ _ h => h⟩

theorem Keeps.trans (h : job.Keeps later) (h' : later.Keeps last) : job.Keeps last :=
  ⟨h'.id.trans h.id, h'.spec.trans h.spec, h'.nodes.trans h.nodes, h'.createTime.trans h.createTime,
    fun t ht => h'.endTime t (h.endTime t ht),
    fun node code hcode => h'.failedNodes node code (h.failedNodes node code hcode)⟩

theorem becomes_of_path (h : job.Keeps later)
    (hpath : Relation.ReflTransGen JobState.Edge job.state later.state) : job.Becomes later :=
  ⟨h, hpath, fun hterminal => JobState.eq_of_isTerminal hterminal hpath⟩

theorem Becomes.refl (job : Job) : job.Becomes job := becomes_of_path (.refl job) .refl

theorem Becomes.step (h : job.Becomes later) (hkeeps : later.Keeps last)
    (hedge : last.state = later.state ∨ later.state.canBecome last.state) : job.Becomes last := by
  refine becomes_of_path (h.toKeeps.trans hkeeps) ?_
  rcases hedge with hsame | hedge
  · rw [hsame]
    exact h.path
  · exact h.path.tail hedge

theorem Coherent.endTime_eq_none (h : job.Coherent) (hstate : job.state.isTerminal = false) :
    job.endTime = none := by
  by_contra hsome
  rw [h.ended (Option.isSome_iff_ne_none.2 hsome)] at hstate
  cases hstate

end Job

namespace Store

open Job (Keeps Coherent Becomes)

/-! ### What an operation does to a record -/

section

variable {job later : Job} {now : Time}

theorem keeps_finished (h : job.Coherent) (failed : SortedMap String Int) :
    job.Keeps (finished failed now job) := by
  have hfailed : ∀ node code, job.failedNodes.get? node = some code →
      (finished failed now job).failedNodes.get? node = some code := by
    intro node code hcode
    rw [finished_failedNodes]
    exact SortedMap.get?_foldl_insertNew_of_some hcode
  unfold finished at hfailed ⊢
  simp only at hfailed ⊢
  split
  · rename_i hrunning
    rw [if_pos hrunning] at hfailed
    refine ⟨rfl, rfl, rfl, rfl, ?_, hfailed⟩
    intro t ht
    rw [h.endTime_eq_none (by rw [hrunning]; rfl)] at ht
    cases ht
  · rename_i hother
    rw [if_neg hother] at hfailed
    exact ⟨rfl, rfl, rfl, rfl, fun _ ht => ht, hfailed⟩

theorem keeps_cancelEnded (h : job.Coherent) (failed : List String) :
    job.Keeps (cancelEnded failed now job) := by
  unfold cancelEnded
  split
  · rename_i hcanceling
    have hnone : job.endTime = none := h.endTime_eq_none (by rw [hcanceling]; rfl)
    split
    all_goals exact ⟨rfl, rfl, rfl, rfl, by simp [hnone], fun _ _ hcode => hcode⟩
  · exact .refl job

theorem edge_finished (failed : SortedMap String Int) :
    (finished failed now job).state = job.state ∨ job.state.canBecome (finished failed now job).state := by
  rcases finished_state failed now job with hsame | ⟨hrunning, hstate | hstate⟩
  · exact .inl hsame
  · rw [hrunning, hstate]
    exact .inr rfl
  · rw [hrunning, hstate]
    exact .inr rfl

theorem edge_cancelEnded (failed : List String) :
    (cancelEnded failed now job).state = job.state ∨
      job.state.canBecome (cancelEnded failed now job).state := by
  rcases cancelEnded_state failed now job with hsame | ⟨hcanceling, hstate | hstate⟩
  · exact .inl hsame
  · rw [hcanceling, hstate]
    exact .inr rfl
  · rw [hcanceling, hstate]
    exact .inr rfl

theorem coherent_new (id : Int) (spec : JobSpec) (nodes : List String) : (Job.new id spec nodes now).Coherent :=
  ⟨by simp [Job.new], by simp [Job.new]⟩

theorem coherent_setState (h : job.Coherent) {state : JobState}
    (hedge : state = job.state ∨ job.state.canBecome state) : Coherent { job with state } := by
  rcases hedge with rfl | hedge
  · exact h
  · have hopen : ¬ job.state.isTerminal := fun hterminal => JobState.not_edge_of_isTerminal hterminal hedge
    refine ⟨fun hended => absurd (h.ended hended) hopen, ?_⟩
    intro hrefused
    have hstate := h.refused hrefused
    exact absurd (by rw [hstate]; rfl) hopen

theorem coherent_finished (h : job.Coherent) (failed : SortedMap String Int) :
    (finished failed now job).Coherent := by
  unfold finished
  simp only
  split
  · rename_i hrunning
    refine ⟨?_, ?_⟩
    · intro
      split <;> rfl
    · intro hrefused
      have hstate := h.refused hrefused
      rw [hrunning] at hstate
      cases hstate
  · exact ⟨h.ended, h.refused⟩

theorem coherent_cancelEnded (h : job.Coherent) (failed : List String) :
    (cancelEnded failed now job).Coherent := by
  unfold cancelEnded
  split
  · rename_i hcanceling
    split
    · refine ⟨fun _ => rfl, ?_⟩
      intro hrefused
      have hstate := h.refused hrefused
      rw [hcanceling] at hstate
      cases hstate
    · exact ⟨fun _ => rfl, fun _ => rfl⟩
  · exact h

end

section

variable {jobs : List Job} {now : Time} {op : Operation} {later : Job}

/-- A record has a new id, or comes from one that it keeps. -/
theorem Stems.keeps (h : Stems now op jobs later) (hjobs : ∀ job ∈ jobs, job.Coherent) :
    newestId jobs < later.id ∨
      ∃ job ∈ jobs, job.Keeps later ∧ (later.state = job.state ∨ job.state.canBecome later.state) := by
  cases h with
  | kept hjob => exact .inr ⟨later, hjob, .refl later, .inl rfl⟩
  | created _ hev => exact .inl (newestId_lt_nextId hev)
  | @moved job _ hjob hedge =>
    exact .inr ⟨job, hjob, ⟨rfl, rfl, rfl, rfl, fun _ h => h, fun _ _ h => h⟩, hedge⟩
  | @ended job id failed hjob =>
    exact .inr ⟨job, hjob, keeps_finished (hjobs job hjob) failed, edge_finished failed⟩
  | @settled job hjob failed =>
    exact .inr ⟨job, hjob, keeps_cancelEnded (hjobs job hjob) failed, edge_cancelEnded failed⟩

theorem Stems.coherent (h : Stems now op jobs later) (hjobs : ∀ job ∈ jobs, job.Coherent) :
    later.Coherent := by
  cases h with
  | kept hjob => exact hjobs later hjob
  | created => exact coherent_new _ _ _
  | moved hjob hedge => exact coherent_setState (hjobs _ hjob) hedge
  | ended hjob => exact coherent_finished (hjobs _ hjob) _
  | settled hjob failed => exact coherent_cancelEnded (hjobs _ hjob) failed

theorem Operation.eq_create (h : op.isCreate) : ∃ spec nodes capacity, op = .create spec nodes capacity := by
  cases op with
  | create spec nodes capacity => exact ⟨spec, nodes, capacity, rfl⟩
  | reopen | change | finish | plan | settle | refused => cases h

/-- Only a new job changes which ids are listed. -/
theorem map_id_relist (hop : op.isCreate = false) : (relist now jobs op).map Job.id = jobs.map Job.id := by
  cases op with
  | reopen => simp [relist]
  | create => cases hop
  | change id before after => exact Dispatch.map_id_updateState id before after jobs
  | finish id failed => exact Dispatch.map_id_changeFirst id (finished_id failed now) jobs
  | plan ids =>
    rw [relist, markCanceling_eq, List.map_map]
    exact List.map_congr_left fun job _ => mark_id ids jobs job
  | settle id failed => exact Dispatch.map_id_changeFirst id (cancelEnded_id failed now) jobs
  | refused output => rfl

theorem newestId_relist (jobs : List Job) (now : Time) (op : Operation) :
    newestId jobs ≤ newestId (relist now jobs op) := by
  cases hop : op.isCreate with
  | true =>
    obtain ⟨spec, nodes, capacity, rfl⟩ := Operation.eq_create hop
    exact newestId_enlist spec nodes capacity now jobs
  | false =>
    apply Int.le_of_eq
    unfold newestId
    rw [map_id_relist hop]

theorem nodup_relist (h : (jobs.map Job.id).Nodup) : ((relist now jobs op).map Job.id).Nodup := by
  cases hop : op.isCreate with
  | true =>
    obtain ⟨spec, nodes, capacity, rfl⟩ := Operation.eq_create hop
    rw [List.nodup_iff_count_le_one] at h ⊢
    intro id
    rw [← length_withId]
    exact length_withId_enlist (by rw [length_withId]; exact h id)
  | false =>
    rw [map_id_relist hop]
    exact h

/-- The records of a list go with their states, and each id is there once. -/
structure Sound (jobs : List Job) : Prop where
  coherent : ∀ job ∈ jobs, job.Coherent
  nodup : (jobs.map Job.id).Nodup

theorem Sound.eq_of_id (h : Sound jobs) {job other : Job} (hjob : job ∈ jobs) (hother : other ∈ jobs)
    (heq : job.id = other.id) : job = other := List.inj_on_of_nodup_map h.nodup hjob hother heq

theorem Sound.relist (h : Sound jobs) (now : Time) (op : Operation) : Sound (relist now jobs op) :=
  ⟨fun _ hjob => (stems_of_mem_relist hjob).coherent h.coherent, nodup_relist h.nodup⟩

/-- What an operation makes of the records of a list. -/
structure Succeeds (now : Time) (op : Operation) (before after : List Job) : Prop where
  follows : ∀ job ∈ before, ∀ later ∈ after, later.id = job.id →
    job.Keeps later ∧ (later.state = job.state ∨ job.state.canBecome later.state)
  gone : ∀ job ∈ before, (∀ later ∈ after, later.id ≠ job.id) → job.state.isActive = false ∧
    ∃ spec nodes capacity kept evicted, op = .create spec nodes capacity ∧
      evict before capacity = .ok (kept, evicted) ∧ job.id ∈ evicted
  new : ∀ later ∈ after, (∀ job ∈ before, job.id ≠ later.id) →
    ∃ spec nodes capacity kept evicted, op = .create spec nodes capacity ∧
      evict before capacity = .ok (kept, evicted) ∧ later = .new (nextId kept evicted) spec nodes now

/-- Only a new job drives records out, and none of an active job. -/
theorem evicted_of_gone (h : Sound jobs) {job : Job} (hjob : job ∈ jobs)
    (hgone : ∀ later ∈ relist now jobs op, later.id ≠ job.id) : job.state.isActive = false ∧
      ∃ spec nodes capacity kept evicted, op = .create spec nodes capacity ∧
        evict jobs capacity = .ok (kept, evicted) ∧ job.id ∈ evicted := by
  cases hop : op.isCreate with
  | false =>
    have hmem : job.id ∈ (relist now jobs op).map Job.id := by
      rw [map_id_relist hop]
      exact List.mem_map.2 ⟨job, hjob, rfl⟩
    obtain ⟨later, hlater, heq⟩ := List.mem_map.1 hmem
    exact absurd heq (hgone later hlater)
  | true =>
    obtain ⟨spec, nodes, capacity, rfl⟩ := Operation.eq_create hop
    cases hev : evict jobs capacity with
    | error fault =>
      rw [relist, enlist, hev] at hgone
      exact absurd rfl (hgone job hjob)
    | ok r =>
      obtain ⟨kept, evicted⟩ := r
      rw [relist, enlist_eq hev] at hgone
      have hid : job.id ∈ evicted := by
        by_contra hno
        have hkept : job ∈ kept := by simp [(evict_eq_ok hev).2, hjob, hno]
        exact hgone job (List.mem_append_left _ hkept) rfl
      refine ⟨?_, spec, nodes, capacity, kept, evicted, rfl, hev, hid⟩
      rw [(evict_eq_ok hev).1] at hid
      obtain ⟨other, hother, heq, hidle⟩ := mem_evictable hid
      rwa [h.eq_of_id hjob hother heq.symm]

theorem succeeds_relist (h : Sound jobs) (now : Time) (op : Operation) :
    Succeeds now op jobs (relist now jobs op) := by
  refine ⟨?_, fun job hjob => evicted_of_gone h hjob, ?_⟩
  · intro job hjob later hlater heq
    rcases (stems_of_mem_relist hlater).keeps h.coherent with hnew | ⟨other, hother, hkeeps, hedge⟩
    · have hle := le_newestId hjob
      omega
    · obtain rfl := h.eq_of_id hjob hother (heq.symm.trans hkeeps.id)
      exact ⟨hkeeps, hedge⟩
  · intro later hlater hnew
    cases stems_of_mem_relist hlater with
    | kept hjob => exact absurd rfl (hnew later hjob)
    | created hop hev => exact ⟨_, _, _, _, _, hop, hev, rfl⟩
    | @moved job _ hjob => exact absurd rfl (hnew job hjob)
    | ended hjob => exact absurd (finished_id _ now _).symm (hnew _ hjob)
    | settled hjob failed => exact absurd (cancelEnded_id failed now _).symm (hnew _ hjob)

end

/-! ### Whole runs -/

theorem sound_after {history : History} {jobs : List Job} (h : (after history).jobs = .ok jobs) : Sound jobs := by
  induction history using List.reverseRecOn generalizing jobs with
  | nil =>
    rw [after_nil, jobs_fresh, Except.ok.injEq] at h
    subst h
    exact ⟨by simp, by simp⟩
  | append_singleton history e ih =>
    obtain ⟨before, hbefore, rfl⟩ := jobs_of_concat h
    exact (ih hbefore).relist e.1.1 e.2

/-- In the course of time every record has a new id, or comes from one that was there. -/
theorem becomes_of_append {history rest : History} {before jobs : List Job}
    (hbefore : (after history).jobs = .ok before) (h : (after (history ++ rest)).jobs = .ok jobs) :
    newestId before ≤ newestId jobs ∧
      ∀ later ∈ jobs, newestId before < later.id ∨ ∃ job ∈ before, job.Becomes later := by
  induction rest using List.reverseRecOn generalizing jobs with
  | nil =>
    rw [List.append_nil, hbefore, Except.ok.injEq] at h
    subst h
    exact ⟨Int.le_refl _, fun job hjob => .inr ⟨job, hjob, .refl job⟩⟩
  | append_singleton rest e ih =>
    rw [← List.append_assoc] at h
    obtain ⟨last, hlast, rfl⟩ := jobs_of_concat h
    obtain ⟨hnewest, hbecomes⟩ := ih hlast
    refine ⟨Int.le_trans hnewest (newestId_relist last e.1.1 e.2), ?_⟩
    intro later hlater
    rcases (stems_of_mem_relist hlater).keeps (sound_after hlast).coherent with
      hnew | ⟨middle, hmiddle, hkeeps, hedge⟩
    · exact .inl (Int.lt_of_le_of_lt hnewest hnew)
    · rcases hbecomes middle hmiddle with hnew | ⟨job, hjob, hpath⟩
      · rw [← hkeeps.id] at hnew
        exact .inl hnew
      · exact .inr ⟨job, hjob, hpath.step hkeeps hedge⟩

/-- The records of a store that was opened in an empty directory, whatever is asked of it: they go with their
states, each operation changes them as it may, and what becomes of a job in the course of time is one way along
the edges between states. As long as the numbers fit 32 bits, the list can be read all the time. -/
theorem record_of_history (history : History) :
    (∀ jobs, (after history).jobs = .ok jobs → Sound jobs) ∧
      (∀ e before jobs, (after history).jobs = .ok before → (after (history ++ [e])).jobs = .ok jobs →
        Succeeds e.1.1 e.2 before jobs) ∧
      (∀ rest before jobs, (after history).jobs = .ok before → (after (history ++ rest)).jobs = .ok jobs →
        ∀ job ∈ before, ∀ later ∈ jobs, later.id = job.id → job.Becomes later) ∧
      ((∀ e ∈ history, e.2.Fits) → (requests history : Int) ≤ Width.greatest32 →
        (after history).Readable) := by
  refine ⟨fun jobs => sound_after, ?_, ?_, ?_⟩
  · intro e before jobs hbefore h
    obtain ⟨last, hlast, rfl⟩ := jobs_of_concat h
    rw [hbefore, Except.ok.injEq] at hlast
    subst hlast
    exact succeeds_relist (sound_after hbefore) e.1.1 e.2
  · intro rest before jobs hbefore h job hjob later hlater heq
    obtain ⟨-, hbecomes⟩ := becomes_of_append hbefore h
    rcases hbecomes later hlater with hnew | ⟨other, hother, hpath⟩
    · have hle := le_newestId hjob
      omega
    · obtain rfl := (sound_after hbefore).eq_of_id hjob hother (heq.symm.trans hpath.id)
      exact hpath
  · intro hfits hn
    obtain ⟨jobs, hjobs, -⟩ := readable_after hfits hn
    exact ⟨jobs, hjobs⟩

/-- A job is interrupted by the end of the process, and its node does not let it be cancelled. -/
def interruption : History :=
  [.create { command := "a" } ["A"] 1, .change 1 .created .dispatching, .reopen, .settle 1 ["A"]].map
    fun op => (Dispatch.epoch, op)

/-- The new job drives the old one out. -/
theorem record_of_interruption :
    ∃ before jobs, (after interruption).jobs = .ok before ∧
      (after (interruption ++ [(Dispatch.epoch, .create { command := "b" } ["B"] 1)])).jobs = .ok jobs ∧
      Sound before ∧ Succeeds Dispatch.epoch.1 (.create { command := "b" } ["B"] 1) before jobs ∧
      (∀ job ∈ before, ∀ later ∈ jobs, later.id = job.id → job.Becomes later) ∧
      before.map (fun job => (job.id, job.state)) = [(1, .cancelFailed)] ∧
      jobs.map (fun job => (job.id, job.state)) = [(2, .created)] := by
  have hfits : ∀ e ∈ interruption, e.2.Fits := by simp [interruption, Operation.Fits]
  obtain ⟨hsound, hsucceeds, hbecomes, hreadable⟩ := record_of_history interruption
  obtain ⟨before, hbefore⟩ := hreadable hfits (by decide)
  obtain ⟨-, -, -, hreadable⟩ :=
    record_of_history (interruption ++ [(Dispatch.epoch, .create { command := "b" } ["B"] 1)])
  obtain ⟨jobs, hjobs⟩ := hreadable (by simp [interruption, Operation.Fits]) (by decide)
  have hfirst : (after interruption).jobs.toOption.map (·.map fun job => (job.id, job.state)) =
      some [(1, .cancelFailed)] := by decide +kernel
  have hlast : (after (interruption ++ [(Dispatch.epoch, .create { command := "b" } ["B"] 1)])).jobs.toOption.map
      (·.map fun job => (job.id, job.state)) = some [(2, .created)] := by decide +kernel
  rw [hbefore] at hfirst
  rw [hjobs] at hlast
  exact ⟨before, jobs, hbefore, hjobs, hsound before hbefore, hsucceeds _ before jobs hbefore hjobs,
    hbecomes _ before jobs hbefore hjobs, Option.some.inj hfirst, Option.some.inj hlast⟩

end Store

end Muster
