import Muster.CommandLine.Program
import Muster.Proofs.Calls
import Muster.Proofs.TypedIds

/-!
# What a selection reaches

The jobs that typed ids cover, from the arguments of a command to the list of a head node. A selection covers
the jobs that its items denote. One that holds nothing but empty ranges is sent as an empty set, which
stands for every job.
-/

namespace Muster

namespace JobIds

namespace Item

/-- Whether an item denotes an id in a list whose newest id is `newest`. -/
def denotes (newest : Int) : Item → Int → Bool
  | .every, _ => true
  | .newest, id => id == newest
  | .one n, id => id == if n < 0 then newest + 1 + n else n
  | .between first last, id => first ≤ id && id ≤ last

/-- A range that ends before it begins. -/
def isEmptyRange : Item → Bool
  | .between first last => last < first
  | _ => false

end Item

/-! ### Sets of numbers -/

theorem interval_eq_nil {first last : Int} : interval first last = [] ↔ last < first := by
  rw [List.eq_nil_iff_forall_not_mem]
  simp only [mem_interval, not_and]
  constructor
  · intro h
    have := h first (Int.le_refl first)
    omega
  · intro h n hn
    omega

theorem isEmpty_ofItems (items : List Item) : (ofItems items).isEmpty ↔ ∀ item ∈ items, item.ids = [] := by
  have hnone (n : Int) : (ofItems items).get? n = none ↔ ¬ ∃ item ∈ items, n ∈ item.ids := by
    rw [← contains_ofItems, SortedMap.contains]
    simp
  simp only [SortedMap.isEmpty_iff, hnone, not_exists, not_and]
  constructor
  · intro h item hitem
    exact List.eq_nil_iff_forall_not_mem.2 fun n => h n item hitem
  · intro h n item hitem
    simp [h item hitem]

theorem contains_normalize (ids : JobIds) (newest n : Int) :
    (ids.normalize newest).contains n ↔ ∃ id, ids.contains id ∧ resolve newest id = n := by
  rw [normalize, SortedSet.contains_ofList]
  simp only [List.mem_map, SortedSet.toList, SortedMap.mem_keys]

/-- Which ids the items cover: those that one denotes, or all if there are only empty ranges. -/
def covers (items : List Item) (newest id : Int) : Bool :=
  items.any (·.denotes newest id) || items.all (·.isEmptyRange)

theorem ids_eq_nil {item : Item} : item.ids = [] ↔ item.isEmptyRange := by
  cases item with
  | between first last => simp [Item.ids, Item.isEmptyRange, interval_eq_nil]
  | _ => simp [Item.ids, Item.isEmptyRange]

/-- An item denotes an id if it stands for every id, or holds a number that leads to it. -/
theorem denotes_iff {item : Item} (h : item.IsTyped) (newest id : Int) :
    item.denotes newest id ↔ item = .every ∨ ∃ n ∈ item.ids, resolve newest n = id := by
  cases item with
  | every => simp [Item.denotes]
  | newest =>
    have hback : resolve newest (-1) = newest := by
      rw [resolve, if_pos (by omega)]
      omega
    simp only [Item.denotes, Item.ids, beq_iff_eq, List.mem_singleton, exists_eq_left, hback,
      reduceCtorEq, false_or]
    exact eq_comm
  | one n =>
    simp only [Item.denotes, Item.ids, resolve, beq_iff_eq, List.mem_singleton, exists_eq_left,
      reduceCtorEq, false_or]
    exact eq_comm
  | between first last =>
    have hfirst : 0 < first := h.1
    simp only [Item.denotes, Item.ids, mem_interval, Bool.and_eq_true, decide_eq_true_eq, reduceCtorEq,
      false_or]
    constructor
    · intro hid
      refine ⟨id, hid, ?_⟩
      rw [resolve, if_neg (by omega)]
    · rintro ⟨n, hn, hid⟩
      rw [resolve, if_neg (by omega)] at hid
      rwa [← hid]

/-- A selection covers what its items denote, and everything if they are all empty ranges. -/
theorem selects_ofItems {items : List Item} (h : ∀ item ∈ items, item.IsTyped) (newest : Int) (job : Job) :
    Store.selects (ofItems items) newest job = covers items newest job.id := by
  rw [Bool.eq_iff_iff]
  simp only [Store.selects, selectsAll, covers, Bool.or_eq_true, isEmpty_ofItems, ids_eq_nil,
    contains_ofItems, contains_normalize, List.any_eq_true, List.all_eq_true, every]
  constructor
  · rintro ((hempty | ⟨item, hitem, hzero⟩) | ⟨n, ⟨item, hitem, hn⟩, hid⟩)
    · exact .inr hempty
    · have hall := (zero_mem_ids (h item hitem)).1 hzero
      exact .inl ⟨item, hitem, (denotes_iff (h item hitem) _ _).2 (.inl hall)⟩
    · exact .inl ⟨item, hitem, (denotes_iff (h item hitem) _ _).2 (.inr ⟨n, hn, hid⟩)⟩
  · rintro (⟨item, hitem, hdenotes⟩ | hempty)
    · rcases (denotes_iff (h item hitem) _ _).1 hdenotes with hevery | ⟨n, hn, hid⟩
      · exact .inl (.inr ⟨item, hitem, (zero_mem_ids (h item hitem)).2 hevery⟩)
      · exact .inr ⟨n, ⟨item, hitem, hn⟩, hid⟩
    · exact .inl (.inl hempty)

/-- Nothing more is covered than is denoted, unless there are only empty ranges. -/
theorem covers_eq_denotes_iff (items : List Item) :
    (∀ newest id, covers items newest id = items.any (·.denotes newest id)) ↔
      ∃ item ∈ items, item.isEmptyRange = false := by
  constructor
  · intro h
    by_contra hnone
    simp only [not_exists, not_and, Bool.not_eq_false] at hnone
    have hall : items.all (·.isEmptyRange) := List.all_eq_true.2 hnone
    have hzero := h 0 0
    rw [covers, hall, Bool.or_true] at hzero
    obtain ⟨item, hitem, hdenotes⟩ := List.any_eq_true.1 hzero.symm
    have hempty := hnone item hitem
    cases item with
    | between first last =>
      simp only [Item.isEmptyRange, decide_eq_true_eq] at hempty
      simp only [Item.denotes, Bool.and_eq_true, decide_eq_true_eq] at hdenotes
      omega
    | _ => cases hempty
  · rintro ⟨item, hitem, hnot⟩ newest id
    have hall : items.all (·.isEmptyRange) = false := by
      rw [List.all_eq_false]
      exact ⟨item, hitem, by simp [hnot]⟩
    rw [covers, hall, Bool.or_false]

end JobIds

namespace CommandLine

open JobIds (readItems ofItems covers)

/-- What the arguments of a command reach. The program sends the set of their numbers, a head node lists the
jobs that it covers, and a cancellation marks those of them that are active. That is what was typed, unless
there are only empty ranges. -/
theorem reach_of_arguments {args : List String} {items : List JobIds.Item}
    (hitems : readItems args = .ok items) (h : Headnode) {jobs : List Job}
    (hjobs : h.dispatch.store.jobs = .ok jobs) :
    ((∃ next, Program.cancelJobs args = .ask (.cancel (ofItems items)) next) ∧
      (∀ output, ∃ next, Program.listJobs output args = .ask (.jobs (ofItems items)) next) ∧
      (∀ id, args = [id] → ∃ next, Program.rerunJob id = .ask (.jobs (ofItems items)) next)) ∧
    h.jobs (ofItems items) = .ok (jobs.filter fun job => covers items (Store.newestId jobs) job.id) ∧
    (h.dispatch.startCancel (ofItems items)).store.file = JobDocument.save (jobs.map fun job =>
      if covers items (Store.newestId jobs) job.id && job.state.isActive then
        { job with state := .canceling }
      else job) ∧
    ((∀ newest id, covers items newest id = items.any (·.denotes newest id)) ↔
      ∃ item ∈ items, item.isEmptyRange = false) := by
  have hread : JobIds.read args = .ok (ofItems items) := by
    rw [JobIds.read, hitems]
    rfl
  have hselects : Store.selects (ofItems items) (Store.newestId jobs) =
      fun job => covers items (Store.newestId jobs) job.id :=
    funext (JobIds.selects_ofItems (JobIds.isTyped_of_readItems hitems) (Store.newestId jobs))
  refine ⟨⟨?_, ?_, ?_⟩, ?_, ?_, JobIds.covers_eq_denotes_iff items⟩
  · rw [Program.cancelJobs, Program.withIds, hread]
    exact ⟨_, rfl⟩
  · intro output
    rw [Program.listJobs, Program.withIds, hread]
    exact ⟨_, rfl⟩
  · rintro id rfl
    rw [Program.rerunJob, Program.withIds, hread]
    exact ⟨_, rfl⟩
  · simp only [Headnode.jobs, Headnode.answer, Store.getJobs, hjobs, Except.map, Except.mapError, hselects]
  · rw [Dispatch.startCancel_file hjobs, Store.markCanceling_eq]
    refine congrArg JobDocument.save (List.map_congr_left fun job _ => ?_)
    rw [Store.mark, Store.marks, hselects]

/-- A head node with a job that runs. -/
def busy : Headnode where
  address := ⟨"HEAD", 50505⟩
  liveness := .ofLocal "HEAD"
  registry := ⟨∅, .absent⟩
  dispatch := {
    store := {
      file := JobDocument.save [{ Job.new 1 {} ["A"] Dispatch.epoch.1 with state := .running }]
      output := ∅ } }

theorem reach_of_two_ranges :
    (busy.dispatch.startCancel (ofItems [.between 5 1, .between 1 2])).store.file =
      JobDocument.save [{ Job.new 1 {} ["A"] Dispatch.epoch.1 with state := .canceling }] := by
  have hitems : readItems ["5-1,1-2"] = .ok [.between 5 1, .between 1 2] := by decide +kernel
  have hjobs : busy.dispatch.store.jobs =
      .ok [{ Job.new 1 {} ["A"] Dispatch.epoch.1 with state := .running }] := by decide +kernel
  exact (reach_of_arguments hitems busy hjobs).2.2.1

/-- A range without a number denotes no job, and cancels the one that runs. -/
theorem empty_range_cancels :
    readItems ["5-1"] = .ok [.between 5 1] ∧
      (∀ newest id, ([.between 5 1] : List JobIds.Item).any (·.denotes newest id) = false) ∧
      JobIds.read ["5-1"] = .ok ∅ ∧
      busy.dispatch.store.jobs.toOption.map (·.map Job.state) = some [.running] ∧
      (busy.dispatch.startCancel ∅).store.jobs.toOption.map (·.map Job.state) = some [.canceling] := by
  refine ⟨by decide +kernel, ?_, by decide +kernel, by decide +kernel, by decide +kernel⟩
  intro newest id
  simp only [List.any_cons, List.any_nil, Bool.or_false, JobIds.Item.denotes, Bool.and_eq_false_iff,
    decide_eq_false_iff_not]
  omega

end CommandLine

end Muster
