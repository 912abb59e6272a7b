import Mathlib.Data.List.Nodup
import Muster.Proofs.Requests
import Muster.Proofs.Selection

/-!
# The jobs that a set of numbers picks

A query and a cancellation go by one rule. The empty set and 0 stand for every job; any other number picks the
job of that id, or the job that is so far behind the id that comes next. What is counted back beyond the first
job picks nothing, also where it comes to 0.
-/

namespace Muster

namespace JobIds

/-- A set of numbers picks an id, where `newest` is the newest one. -/
def Picks (ids : JobIds) (newest id : Int) : Prop :=
  ids.isEmpty ∨ ids.contains 0 ∨ ids.contains id ∨ ids.contains (id - newest - 1)

instance (ids : JobIds) (newest id : Int) : Decidable (ids.Picks newest id) :=
  inferInstanceAs (Decidable (_ ∨ _ ∨ _ ∨ _))

/-- A cancellation of the set marks a job: it is picked, and active. -/
def Cancels (ids : JobIds) (newest : Int) (job : Job) : Prop :=
  ids.Picks newest job.id ∧ job.state.isActive

instance (ids : JobIds) (newest : Int) (job : Job) : Decidable (ids.Cancels newest job) :=
  inferInstanceAs (Decidable (_ ∧ _))

variable {newest id n : Int}

/-- Two numbers lead to an id: itself, and how far it is behind the one that comes next. -/
theorem resolve_eq_iff (hpos : 0 < id) (hle : id ≤ newest) :
    resolve newest n = id ↔ n = id ∨ n = id - newest - 1 := by
  unfold resolve
  split <;> omega

theorem selects_iff_picks (ids : JobIds) {job : Job} (hpos : 0 < job.id) (hle : job.id ≤ newest) :
    Store.selects ids newest job ↔ ids.Picks newest job.id := by
  simp only [Store.selects, selectsAll, every, Bool.or_eq_true, contains_normalize, resolve_eq_iff hpos hle,
    Picks, or_assoc]
  apply or_congr_right
  apply or_congr_right
  constructor
  · rintro ⟨n, hn, rfl | rfl⟩
    · exact .inl hn
    · exact .inr hn
  · rintro (hid | hback)
    · exact ⟨_, hid, .inl rfl⟩
    · exact ⟨_, hback, .inr rfl⟩

/-- A number that leads before an id does not pick it, and adds nothing to a set. -/
theorem picks_add_iff (ids : JobIds) (hpos : 0 < id) (hneg : n < 0) (hbefore : newest + 1 + n < id) :
    Picks (SortedSet.add ids n) newest id ↔ ids.contains 0 ∨ ids.contains id ∨ ids.contains (id - newest - 1) := by
  have hsome : ¬ SortedMap.isEmpty (SortedSet.add ids n) := by
    rw [SortedMap.isEmpty_iff]
    intro hnone
    simpa [SortedSet.add] using hnone n
  have hzero : (0 : Int) ≠ n := by omega
  have hself : id ≠ n := by omega
  have hback : id - newest - 1 ≠ n := by omega
  simp [Picks, hsome, SortedSet.contains_add, hzero, hself, hback]

theorem not_picks_of_before (hpos : 0 < id) (hneg : n < 0) (hbefore : newest + 1 + n < id) :
    ¬ Picks (SortedSet.ofList [n]) newest id := by
  have hadd : SortedSet.ofList [n] = SortedSet.add ∅ n := rfl
  rw [hadd, picks_add_iff ∅ hpos hneg hbefore]
  simp [SortedMap.contains]

theorem picks_add_of_before {ids : JobIds} (hids : ids.isEmpty = false) (hpos : 0 < id) (hneg : n < 0)
    (hbefore : newest + 1 + n < id) : Picks (SortedSet.add ids n) newest id ↔ ids.Picks newest id := by
  rw [picks_add_iff ids hpos hneg hbefore]
  simp [Picks, hids]

end JobIds

namespace Store

/-- The newest id of a list of jobs. -/
structure IsNewest (jobs : List Job) (newest : Int) : Prop where
  le : ∀ job ∈ jobs, job.id ≤ newest
  mem : jobs ≠ [] → ∃ job ∈ jobs, job.id = newest

variable {jobs : List Job} {newest : Int}

theorem IsNewest.eq (h : IsNewest jobs newest) (hsome : jobs ≠ []) : newestId jobs = newest := by
  obtain ⟨job, hjob, rfl⟩ := h.mem hsome
  have hids : jobs.map (·.id) ≠ [] := by simpa using hsome
  obtain ⟨other, hother, heq⟩ := List.mem_map.1 (greatest_mem hids)
  apply Int.le_antisymm
  · rw [newestId, ← heq]
    exact h.le other hother
  · exact le_newestId hjob

/-- The rule by which jobs are picked, for the jobs of a list. -/
theorem selects_eq_picks (hpos : ∀ job ∈ jobs, 0 < job.id) (h : IsNewest jobs newest) (ids : JobIds) {job : Job}
    (hjob : job ∈ jobs) : selects ids (newestId jobs) job = decide (ids.Picks newest job.id) := by
  rw [h.eq (List.ne_nil_of_mem hjob), Bool.eq_iff_iff, decide_eq_true_iff]
  exact JobIds.selects_iff_picks ids (hpos job hjob) (h.le job hjob)

theorem marks_eq_cancels (hpos : ∀ job ∈ jobs, 0 < job.id) (h : IsNewest jobs newest) (ids : JobIds) {job : Job}
    (hjob : job ∈ jobs) : marks ids jobs job = decide (ids.Cancels newest job) := by
  rw [marks, selects_eq_picks hpos h ids hjob, Bool.eq_iff_iff, Bool.and_eq_true, decide_eq_true_iff,
    decide_eq_true_iff]
  rfl

/-- Of the jobs with one id the last one's nodes are entered. -/
theorem get?_entered (p : Job → Bool) (jobs : List Job) (id : Int) :
    (SortedMap.ofList ((jobs.filter p).map fun job => (job.id, job.nodes))).get? id =
      (jobs.filter fun job => p job && job.id == id).getLast?.map Job.nodes := by
  induction jobs using List.reverseRecOn with
  | nil => rfl
  | append_singleton jobs last ih =>
    by_cases hp : p last
    · by_cases hid : id = last.id
      · simp [hp, hid, SortedMap.ofList_concat]
      · have hne : (last.id == id) = false := beq_false_of_ne (Ne.symm hid)
        simp [hp, hne, SortedMap.ofList_concat, SortedMap.get?_insert_of_ne _ _ hid, ih]
    · simp [hp, ih]

/-- What a cancellation plans for a list of jobs: those that it marks, with their nodes. -/
structure Plans (ids : JobIds) (newest : Int) (jobs : List Job) (plan : CancelPlan) : Prop where
  contains : ∀ id, plan.contains id ↔ ∃ job ∈ jobs, job.id = id ∧ ids.Cancels newest job
  nodes : ∀ id, plan.get? id = (jobs.filter fun job => ids.Cancels newest job ∧ job.id = id).getLast?.map Job.nodes
  /-- As ids tell jobs apart, each is planned with its own nodes. -/
  own : (jobs.map Job.id).Nodup → ∀ id nodes, plan.get? id = some nodes ↔
    ∃ job ∈ jobs, job.id = id ∧ job.nodes = nodes ∧ ids.Cancels newest job

theorem plans_markCanceling (hpos : ∀ job ∈ jobs, 0 < job.id) (h : IsNewest jobs newest) (ids : JobIds) :
    Plans ids newest jobs (markCanceling ids jobs).2 := by
  have hmarks {job : Job} (hjob : job ∈ jobs) : marks ids jobs job ↔ ids.Cancels newest job := by
    rw [marks_eq_cancels hpos h ids hjob, decide_eq_true_iff]
  have hnodes (id : Int) : (markCanceling ids jobs).2.get? id =
      (jobs.filter fun job => ids.Cancels newest job ∧ job.id = id).getLast?.map Job.nodes := by
    rw [markCanceling_eq, get?_entered]
    apply congrArg (fun l : List Job => l.getLast?.map Job.nodes)
    apply List.filter_congr
    intro job hjob
    rw [Bool.eq_iff_iff, Bool.and_eq_true, hmarks hjob, beq_iff_eq, decide_eq_true_iff]
  refine ⟨fun id => ?_, hnodes, fun hids id nodes => ?_⟩
  · rw [contains_plan]
    simp only [mem_withId, and_assoc]
    constructor
    · rintro ⟨job, hjob, hid, hjobs⟩
      exact ⟨job, hjob, hid, (hmarks hjob).1 hjobs⟩
    · rintro ⟨job, hjob, hid, hcancels⟩
      exact ⟨job, hjob, hid, (hmarks hjob).2 hcancels⟩
  · rw [hnodes, Option.map_eq_some_iff]
    constructor
    · rintro ⟨job, hlast, rfl⟩
      have hjob := List.mem_filter.1 (List.mem_of_getLast? hlast)
      obtain ⟨hcancels, hid⟩ := of_decide_eq_true hjob.2
      exact ⟨job, hjob.1, hid, rfl, hcancels⟩
    · rintro ⟨job, hjob, rfl, rfl, hcancels⟩
      have hmem : job ∈ jobs.filter fun other => ids.Cancels newest other ∧ other.id = job.id :=
        List.mem_filter.2 ⟨hjob, decide_eq_true ⟨hcancels, rfl⟩⟩
      obtain ⟨last, hlast⟩ := Option.isSome_iff_exists.1 (List.getLast?_isSome.2 (List.ne_nil_of_mem hmem))
      have hother := List.mem_filter.1 (List.mem_of_getLast? hlast)
      have hsame : last = job :=
        List.inj_on_of_nodup_map hids hother.1 hjob (of_decide_eq_true hother.2).2
      exact ⟨job, hsame ▸ hlast, rfl⟩

theorem getJobs_of_jobs {store : Store} (hjobs : store.jobs = .ok jobs) (hpos : ∀ job ∈ jobs, 0 < job.id)
    (hnewest : IsNewest jobs newest) (ids : JobIds) :
    store.getJobs ids = .ok (jobs.filter fun job => ids.Picks newest job.id) := by
  rw [getJobs, hjobs, Except.map]
  apply congrArg Except.ok
  apply List.filter_congr
  intro job hjob
  exact selects_eq_picks hpos hnewest ids hjob

/-- A cancellation writes the list in which it has marked jobs, and tells which. -/
theorem planCancel_of_jobs {store : Store} {refusals : Refusals} (hjobs : store.jobs = .ok jobs)
    (hwrite : refusals.writing = false) (ids : JobIds) : ∃ after,
      store.planCancel ids refusals = (after, .ok (markCanceling ids jobs).2) ∧
        after.jobs = .ok (markCanceling ids jobs).1 ∧ after.output = store.output := by
  refine ⟨_, withJobs_written hjobs hwrite _, ?_, rfl⟩
  apply JobDocument.load_save
  intro job hjob
  obtain ⟨before, hbefore, rfl⟩ := List.mem_map.1 hjob
  have hstorable := JobDocument.storable_of_load hjobs before hbefore
  split
  · exact storable_setState hstorable .canceling
  · exact hstorable

/-- Sets that pick the same jobs give and cancel the same. -/
theorem picked_congr {store : Store} {refusals : Refusals} {ids other : JobIds} (hjobs : store.jobs = .ok jobs)
    (hpos : ∀ job ∈ jobs, 0 < job.id) (hnewest : IsNewest jobs newest) (hwrite : refusals.writing = false)
    (h : ∀ job ∈ jobs, ids.Picks newest job.id ↔ other.Picks newest job.id) :
    store.getJobs ids = store.getJobs other ∧ store.planCancel ids refusals = store.planCancel other refusals := by
  have hmarks : ∀ job ∈ jobs, marks ids jobs job = marks other jobs job := by
    intro job hjob
    rw [marks_eq_cancels hpos hnewest _ hjob, marks_eq_cancels hpos hnewest _ hjob, decide_eq_decide]
    exact and_congr_left' (h job hjob)
  have hmark : jobs.map (mark ids jobs) = jobs.map (mark other jobs) := by
    apply List.map_congr_left
    intro job hjob
    rw [mark, mark, hmarks job hjob]
  have hsame : markCanceling ids jobs = markCanceling other jobs := by
    rw [markCanceling_eq, markCanceling_eq, hmark, List.filter_congr hmarks]
  constructor
  · rw [getJobs_of_jobs hjobs hpos hnewest, getJobs_of_jobs hjobs hpos hnewest]
    apply congrArg Except.ok
    apply List.filter_congr
    intro job hjob
    rw [decide_eq_decide]
    exact h job hjob
  · rw [planCancel, planCancel, withJobs_written hjobs hwrite, withJobs_written hjobs hwrite, hsame]

/-- A set that picks no job gives none, and a cancellation of it leaves the list as it is. -/
theorem picked_of_none {store : Store} {refusals : Refusals} {ids : JobIds} (hjobs : store.jobs = .ok jobs)
    (hpos : ∀ job ∈ jobs, 0 < job.id) (hnewest : IsNewest jobs newest) (hwrite : refusals.writing = false)
    (h : ∀ job ∈ jobs, ¬ ids.Picks newest job.id) :
    store.getJobs ids = .ok [] ∧ ∃ after, store.planCancel ids refusals = (after, .ok ∅) ∧
      after.jobs = .ok jobs ∧ after.output = store.output := by
  have hmarks : ∀ job ∈ jobs, marks ids jobs job = false := by
    intro job hjob
    rw [marks_eq_cancels hpos hnewest _ hjob]
    exact decide_eq_false fun hcancels => h job hjob hcancels.1
  have hmark : jobs.map (mark ids jobs) = jobs.map id := by
    apply List.map_congr_left
    intro job hjob
    simp [mark, hmarks job hjob]
  have hnone : jobs.filter (marks ids jobs) = [] := by
    rw [List.filter_eq_nil_iff]
    intro job hjob
    simp [hmarks job hjob]
  have hsame : markCanceling ids jobs = (jobs, ∅) := by
    rw [markCanceling_eq, hmark, hnone, List.map_id]
    rfl
  constructor
  · rw [getJobs_of_jobs hjobs hpos hnewest, List.filter_eq_nil_iff.2]
    intro job hjob
    simpa using h job hjob
  · have hplan := planCancel_of_jobs hjobs hwrite ids
    rw [hsame] at hplan
    exact hplan

/-- A query gives the jobs that the set picks, in their order, and a cancellation plans and marks those of them that
are active, and changes nothing else. A number that is counted back beyond the first job selects nothing, and adds
nothing to a set. -/
theorem picked_of_listed {store : Store} (hjobs : store.jobs = .ok jobs) (hpos : ∀ job ∈ jobs, 0 < job.id)
    (hnewest : IsNewest jobs newest) (ids : JobIds) {refusals : Refusals} (hwrite : refusals.writing = false) :
    store.getJobs ids = .ok (jobs.filter fun job => ids.Picks newest job.id) ∧
    (∃ after plan, store.planCancel ids refusals = (after, .ok plan) ∧ Plans ids newest jobs plan ∧
      after.jobs = .ok (jobs.map fun job =>
        if ids.Cancels newest job then { job with state := .canceling } else job) ∧
      after.output = store.output) ∧
    ∀ n < 0, (∀ job ∈ jobs, newest + 1 + n < job.id) →
      (store.getJobs (SortedSet.ofList [n]) = .ok [] ∧
        ∃ after, store.planCancel (SortedSet.ofList [n]) refusals = (after, .ok ∅) ∧
          after.jobs = .ok jobs ∧ after.output = store.output) ∧
      (ids.isEmpty = false → store.getJobs (SortedSet.add ids n) = store.getJobs ids ∧
        store.planCancel (SortedSet.add ids n) refusals = store.planCancel ids refusals) := by
  refine ⟨getJobs_of_jobs hjobs hpos hnewest ids, ?_, ?_⟩
  · have hmark : jobs.map (mark ids jobs) =
        jobs.map fun job => if ids.Cancels newest job then { job with state := .canceling } else job := by
      apply List.map_congr_left
      intro job hjob
      simp only [mark, marks_eq_cancels hpos hnewest ids hjob, decide_eq_true_eq]
    obtain ⟨after, hplan, hafter, houtput⟩ := planCancel_of_jobs hjobs hwrite ids
    exact ⟨after, _, hplan, plans_markCanceling hpos hnewest ids, hmark ▸ hafter, houtput⟩
  · intro n hneg hbefore
    constructor
    · apply picked_of_none hjobs hpos hnewest hwrite
      intro job hjob
      exact JobIds.not_picks_of_before (hpos job hjob) hneg (hbefore job hjob)
    · intro hids
      apply picked_congr hjobs hpos hnewest hwrite
      intro job hjob
      exact JobIds.picks_add_of_before hids (hpos job hjob) hneg (hbefore job hjob)

/-- Jobs 2 and 6 are active, job 5 has ended, and the jobs between are gone. -/
def gapped : List Job :=
  [{ Job.new 2 {} ["A", "B"] Dispatch.epoch.1 with state := .running },
    { Job.new 5 {} ["A"] Dispatch.epoch.1 with state := .finished },
    { Job.new 6 {} ["C"] Dispatch.epoch.1 with state := .canceling }]

/-- Five back from the newest job is job 2. Seven back comes to 0, and picks nothing. -/
theorem picked_of_gapped :
    (Store.mk (JobDocument.save gapped) ∅).getJobs (SortedSet.ofList [-5, -7]) = .ok (gapped.take 1) ∧
      (∃ after plan, (Store.mk (JobDocument.save gapped) ∅).planCancel (SortedSet.ofList [-5, -7]) =
        (after, .ok plan) ∧ plan.get? 2 = some ["A", "B"] ∧ plan.contains 6 = false) ∧
      (Store.mk (JobDocument.save gapped) ∅).getJobs (SortedSet.ofList [-7]) = .ok [] := by
  have hjobs : (Store.mk (JobDocument.save gapped) ∅).jobs = .ok gapped := by decide +kernel
  have hpos : ∀ job ∈ gapped, 0 < job.id := by decide +kernel
  have hnewest : IsNewest gapped 6 := ⟨by decide +kernel, fun _ => by decide +kernel⟩
  have hwrite : ({} : Refusals).writing = false := rfl
  obtain ⟨hquery, ⟨after, plan, hplan, hplans, -, -⟩, hbefore⟩ :=
    picked_of_listed hjobs hpos hnewest (SortedSet.ofList [-5, -7]) hwrite
  refine ⟨?_, ⟨after, plan, hplan, ?_, ?_⟩, (hbefore (-7) (by decide) (by decide +kernel)).1.1⟩
  · rw [hquery]
    decide +kernel
  · rw [hplans.nodes]
    decide +kernel
  · rw [Bool.eq_false_iff, Ne, hplans.contains]
    decide +kernel

end Store

end Muster
