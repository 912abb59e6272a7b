import Muster.Proofs.Operations
import Muster.Proofs.Tree

/-!
# Requests to a store

A store serves requests as far as the storage lets it. A new list takes the place of the old one or leaves it as
it is, and a request for a new job comes to one of four ends.
-/

namespace Muster.Store

/-- A request to a store: it is opened again, changed, or only read. -/
inductive Request
  | reopen
  | create (spec : JobSpec) (nodes : List String) (capacity : Nat)
  | change (id : Int) (before after : JobState)
  | finish (id : Int) (failed : SortedMap String Int)
  | plan (ids : JobIds)
  | settle (id : Int) (failed : List String)
  | get (ids : JobIds)

/-- The fault of an answer, if it is one. -/
def fault? {α : Type} : Except Fault α → Option Fault
  | .error fault => some fault
  | .ok _ => none

/-- What an operation makes of a store, and the fault with which it ends. -/
def ended {α : Type} (r : Store × Except Fault α) : Store × Option Fault := (r.1, fault? r.2)

def serve (store : Store) (request : Request) (now : Time) (refusals : Refusals := {}) : Store × Option Fault :=
  match request with
  | .reopen => ended (store.recover refusals)
  | .create spec nodes capacity => ended (store.createJob spec nodes capacity now refusals)
  | .change id before after => ended (store.changeState id before after refusals)
  | .finish id failed => ended (store.finishJob id failed now refusals)
  | .plan ids => ended (store.planCancel ids refusals)
  | .settle id failed => ended (store.finishCancel id failed now refusals)
  | .get ids => (store, fault? (store.getJobs ids))

/-- Requests with their moments. -/
abbrev Requests := List (Moment × Request)

/-- The store after a request that the storage serves. -/
def serveAt (store : Store) (e : Moment × Request) : Store := (store.serve e.2 e.1.1).1

def serveAll (store : Store) (requests : Requests) : Store := requests.foldl serveAt store

@[simp] theorem serveAll_nil (store : Store) : store.serveAll [] = store := rfl

@[simp] theorem serveAll_concat (store : Store) (requests : Requests) (e : Moment × Request) :
    store.serveAll (requests ++ [e]) = (store.serveAll requests).serveAt e := by
  simp [serveAll]

/-- The operation that a request is, where the storage serves it. -/
def Request.operation (output : Files) : Request → Operation
  | .reopen => .reopen
  | .create spec nodes capacity => .create spec nodes capacity
  | .change id before after => .change id before after
  | .finish id failed => .finish id failed
  | .plan ids => .plan ids
  | .settle id failed => .settle id failed
  | .get _ => .refused output

theorem serveAt_eq_apply (store : Store) (e : Moment × Request) :
    store.serveAt e = store.apply e.1.1 (e.2.operation store.output) := by
  rcases e with ⟨now, request⟩
  cases request <;> rfl

/-- The list after a request, where it can be read. -/
def listAfter (store : Store) (e : Moment × Request) (jobs : List Job) : List Job :=
  relist e.1.1 jobs (e.2.operation store.output)

variable {α : Type} {store : Store} {jobs kept : List Job} {evicted : List Int} {refusals : Refusals}

/-! ### The list and its file -/

theorem fault?_eq_some {answer : Except Fault α} {fault : Fault} (h : fault? answer = some fault) :
    answer = .error fault := by
  cases answer with
  | error found => exact congrArg Except.error (Option.some.inj h)
  | ok => cases h

/-- A list that was read is read again once it is written. -/
theorem jobs_of_rewritten {after : Store} (h : store.jobs = .ok jobs) (hfile : after.file = JobDocument.save jobs) :
    after.jobs = .ok jobs := by
  rw [Store.jobs, hfile]
  exact JobDocument.load_save (JobDocument.storable_of_load h)

theorem withJobs_written (h : store.jobs = .ok jobs) (hwrite : refusals.writing = false)
    (f : List Job → List Job × α) :
    store.withJobs f refusals = ({ store with file := JobDocument.save (f jobs).1 }, .ok (f jobs).2) := by
  simp [withJobs, h, hwrite]

/-- The list can be read and written. -/
def Serves (store : Store) (refusals : Refusals) : Prop := store.Readable ∧ refusals.writing = false

/-- The list is read, changed and written, or else nothing happens. -/
theorem withJobs_cases (store : Store) (f : List Job → List Job × α) (refusals : Refusals) :
    (¬ store.Serves refusals ∧ ∃ fault, store.withJobs f refusals = (store, .error fault)) ∨
      ∃ jobs, store.jobs = .ok jobs ∧ refusals.writing = false ∧
        store.withJobs f refusals = ({ store with file := JobDocument.save (f jobs).1 }, .ok (f jobs).2) := by
  cases h : store.jobs with
  | error fault =>
    refine .inl ⟨?_, fault, by simp only [withJobs, h]⟩
    rintro ⟨⟨jobs, hread⟩, -⟩
    rw [h] at hread
    cases hread
  | ok jobs =>
    cases hwrite : refusals.writing with
    | true =>
      refine .inl ⟨?_, .storage, by simp [withJobs, h, hwrite]⟩
      rintro ⟨-, hno⟩
      rw [hwrite] at hno
      cases hno
    | false => exact .inr ⟨jobs, rfl, rfl, withJobs_written h hwrite f⟩

theorem jobs_of_serveAt {e : Moment × Request} {listed : List Job} (hfile : store.file.isAbsent = false)
    (h : (store.serveAt e).jobs = .ok listed) : ∃ jobs, store.jobs = .ok jobs ∧ listed = store.listAfter e jobs := by
  rw [serveAt_eq_apply] at h
  exact jobs_of_applyAt (e := (e.1, e.2.operation store.output)) hfile h

/-! ### New jobs -/

/-- What is left of the output without that of some jobs, as far as it can be removed. -/
def withoutOutputs (output : Files) (ids : List Int) (stuck : List Path := []) : Files :=
  output.removeAll (ids.map toString) stuck

theorem createJob_of_full {capacity : Nat} {fault : Fault} (hread : store.jobs = .ok jobs)
    (hwrite : refusals.writing = false) (hev : evict jobs capacity = .error fault) (spec : JobSpec)
    (nodes : List String) (now : Time) :
    store.createJob spec nodes capacity now refusals =
      ({ store with file := JobDocument.save jobs }, .error fault) := by
  unfold createJob
  simp only [withJobs_written hread hwrite, hev]

theorem createJob_of_evict {capacity : Nat} (hread : store.jobs = .ok jobs) (hwrite : refusals.writing = false)
    (hev : evict jobs capacity = .ok (kept, evicted)) (spec : JobSpec) (nodes : List String) (now : Time) :
    store.createJob spec nodes capacity now refusals =
      match makeOutput refusals (withoutOutputs store.output evicted refusals.removing) (nextId kept evicted) with
      | some output => (⟨JobDocument.save (kept ++ [.new (nextId kept evicted) spec nodes now]), output⟩,
          .ok (.new (nextId kept evicted) spec nodes now))
      | none => (⟨JobDocument.save (kept ++ [.new (nextId kept evicted) spec nodes now]),
          withoutOutputs store.output evicted refusals.removing⟩, .error .storage) := by
  unfold createJob
  simp only [withJobs_written hread hwrite, hev, withoutOutputs, Files.removeAll, List.foldl_map]
  rfl

/-- How a request for a new job ends. -/
inductive Creation (store : Store) (spec : JobSpec) (nodes : List String) (capacity : Nat) (now : Time)
    (refusals : Refusals) : Store × Except Fault Job → Prop
  | barred {fault : Fault} (hno : ¬ store.Serves refusals) :
      Creation store spec nodes capacity now refusals (store, .error fault)
  | full {jobs : List Job} {fault : Fault} (hread : store.jobs = .ok jobs)
      (hev : evict jobs capacity = .error fault) : Creation store spec nodes capacity now refusals
        ({ store with file := JobDocument.save jobs }, .error fault)
  | unmade {jobs kept : List Job} {evicted : List Int} (hread : store.jobs = .ok jobs)
      (hwrite : refusals.writing = false) (hev : evict jobs capacity = .ok (kept, evicted))
      (hmake : makeOutput refusals (withoutOutputs store.output evicted refusals.removing) (nextId kept evicted) = none) :
      Creation store spec nodes capacity now refusals
        (⟨JobDocument.save (kept ++ [.new (nextId kept evicted) spec nodes now]),
          withoutOutputs store.output evicted refusals.removing⟩, .error .storage)
  | made {jobs kept : List Job} {evicted : List Int} {output : Files} (hread : store.jobs = .ok jobs)
      (hev : evict jobs capacity = .ok (kept, evicted))
      (hmake : makeOutput refusals (withoutOutputs store.output evicted refusals.removing) (nextId kept evicted) = some output) :
      Creation store spec nodes capacity now refusals
        (⟨JobDocument.save (kept ++ [.new (nextId kept evicted) spec nodes now]), output⟩,
          .ok (.new (nextId kept evicted) spec nodes now))

theorem creation_createJob (store : Store) (spec : JobSpec) (nodes : List String) (capacity : Nat) (now : Time)
    (refusals : Refusals) :
    Creation store spec nodes capacity now refusals (store.createJob spec nodes capacity now refusals) := by
  by_cases hserves : store.Serves refusals
  · obtain ⟨⟨jobs, hread⟩, hwrite⟩ := hserves
    cases hev : evict jobs capacity with
    | error fault =>
      rw [createJob_of_full hread hwrite hev]
      exact .full hread hev
    | ok r =>
      obtain ⟨kept, evicted⟩ := r
      rw [createJob_of_evict hread hwrite hev]
      split
      · rename_i output hmake
        exact .made hread hev hmake
      · rename_i hmake
        exact .unmade hread hwrite hev hmake
  · unfold createJob
    simp only
    rcases withJobs_cases store _ refusals with ⟨-, fault, h⟩ | ⟨jobs, hread, hwrite, -⟩
    · rw [h]
      exact .barred hserves
    · exact absurd ⟨⟨jobs, hread⟩, hwrite⟩ hserves

theorem mem_map_toString {ids : List Int} {id : Int} : toString id ∈ ids.map toString ↔ id ∈ ids := by
  constructor
  · intro h
    obtain ⟨other, hother, heq⟩ := List.mem_map.1 h
    rwa [← Text.toString_int_injective heq]
  · exact fun h => List.mem_map.2 ⟨id, h, rfl⟩

/-- What stands below the directory of another job stays. -/
theorem get?_withoutOutputs (output : Files) (stuck : List Path) {ids : List Int} {id : Int} (h : id ∉ ids)
    (rest : Path) : (withoutOutputs output ids stuck).get? (toString id :: rest) = output.get? (toString id :: rest) :=
  output.get?_removeAll stuck (fun hmem => h (mem_map_toString.1 hmem)) rest

theorem makeDirectory_of_makeOutput {output made : Files} {id : Int}
    (h : makeOutput refusals output id = some made) : output.makeDirectory (jobPath id) = some made := by
  unfold makeOutput at h
  split at h
  · cases h
  · exact h

/-- The next id is not that of a job that went. -/
theorem nextId_not_mem (hev : evict jobs capacity = .ok (kept, evicted)) : nextId kept evicted ∉ evicted := by
  intro hmem
  obtain ⟨rfl, -⟩ := evict_eq_ok hev
  obtain ⟨job, hjob, hid, -⟩ := mem_evictable hmem
  have hlt := lt_nextId hev hjob
  omega

end Muster.Store
