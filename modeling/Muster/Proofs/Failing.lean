import Muster.Headnode
import Muster.Proofs.Orphans
import Muster.Proofs.Requests

/-!
# Requests that fail

A request that ends with a fault leaves the list as it was, but for two that write the list before they are
through. A new job is listed before its output directory is made, and interrupted jobs are marked before the
output directory is looked through.
-/

namespace Muster

namespace Store

/-- A directory that cannot be made: a file is in its place, or the storage makes none and there is none. -/
def Blocked (refusals : Refusals) (output : Files) (id : Int) : Prop :=
  (∃ text, output.get? (jobPath id) = some (.file text)) ∨
    refusals.making = true ∧ output.get? (jobPath id) = none

/-- The list is written before the request fails. -/
inductive Breaks (store : Store) (refusals : Refusals) : Request → Prop
  | created {spec : JobSpec} {nodes : List String} {capacity : Nat} {jobs kept : List Job} {evicted : List Int}
      (hread : store.jobs = .ok jobs) (hwrite : refusals.writing = false)
      (hev : evict jobs capacity = .ok (kept, evicted))
      (hblocked : Blocked refusals store.output (nextId kept evicted)) :
      Breaks store refusals (.create spec nodes capacity)
  | reopened {jobs : List Job} {job : Job} (hopening : refusals.opening = false) (hread : store.jobs = .ok jobs)
      (hwrite : refusals.writing = false) (hlisting : refusals.listing = true) (hjob : job ∈ jobs)
      (hstate : job.state = .dispatching ∨ job.state = .running) : Breaks store refusals .reopen

/-- A file that cannot be read is left alone, and the list is as it was unless it is broken. -/
structure Stays (before after : Store) (broken : Prop) : Prop where
  unread : ¬ before.Readable → after.file = before.file
  listed : after.jobs = before.jobs ↔ ¬ broken

section

variable {α : Type} {store after : Store} {jobs kept : List Job} {evicted : List Int} {refusals : Refusals}
  {request : Request} {fault : Fault}

theorem Stays.refl {broken : Prop} (store : Store) (h : ¬ broken) : Stays store store broken :=
  ⟨fun _ => rfl, iff_of_true rfl h⟩

/-- A list that is written as it was read. -/
theorem Stays.rewritten {broken : Prop} (hread : store.jobs = .ok jobs) (hfile : after.file = JobDocument.save jobs)
    (h : ¬ broken) : Stays store after broken :=
  ⟨fun hno => absurd ⟨jobs, hread⟩ hno, iff_of_true (by rw [jobs_of_rewritten hread hfile, hread]) h⟩

/-! ### Directories of new jobs -/

theorem makeOutput_eq_none_iff {output : Files} {id : Int} :
    makeOutput refusals output id = none ↔ Blocked refusals output id := by
  have hdir : output.isDirectory (jobPath id) = true ↔ output.get? (jobPath id) = some .directory := by
    simp [Files.isDirectory_iff, jobPath]
  have hmake : output.makeDirectory [toString id] = none ↔ _ := Files.makeDirectory_eq_none_iff
  unfold makeOutput Blocked
  cases hget : output.get? (jobPath id) with
  | none => simp_all [jobPath]
  | some entry => cases entry <;> simp_all [jobPath]

/-- What goes is not in the way of the new directory, and what is in the way does not go. -/
theorem blocked_withoutOutputs {output : Files} {stuck : List Path} (hev : evict jobs capacity = .ok (kept, evicted)) :
    Blocked refusals (withoutOutputs output evicted stuck) (nextId kept evicted) ↔
      Blocked refusals output (nextId kept evicted) := by
  rw [Blocked, jobPath, get?_withoutOutputs output stuck (nextId_not_mem hev) []]
  rfl

/-! ### Each request -/

/-- A new job without a directory is listed all the same. -/
theorem jobs_ne_of_listed {now : Moment} {spec : JobSpec} {nodes : List String}
    (hread : store.jobs = .ok jobs) (hev : evict jobs capacity = .ok (kept, evicted))
    (hfile : after.file = JobDocument.save (kept ++ [.new (nextId kept evicted) spec nodes now.1])) :
    after.jobs ≠ store.jobs := by
  intro hsame
  have hnew : after.jobs = .ok (kept ++ [.new (nextId kept evicted) spec nodes now.1]) := by
    refine jobs_of_file hfile ?_ ⟨jobs, by rw [hsame, hread]⟩
    rw [← enlist_eq hev]
    exact timed_enlist now.2 spec nodes _ (timed_of_jobs hread)
  rw [hsame, hread, Except.ok.injEq] at hnew
  have hmem : Job.new (nextId kept evicted) spec nodes now.1 ∈ jobs := by
    rw [hnew]
    simp
  exact absurd (lt_nextId hev hmem) (Int.lt_irrefl _)

theorem Breaks.serves (h : Breaks store refusals request) : store.Serves refusals := by
  cases h with
  | created hread hwrite | reopened _ hread hwrite => exact ⟨⟨_, hread⟩, hwrite⟩

theorem stays_withJobs {f : List Job → List Job × α} {broken : Prop} (hbroken : broken → store.Serves refusals)
    (h : store.withJobs f refusals = (after, .error fault)) : Stays store after broken := by
  rcases withJobs_cases store f refusals with ⟨hno, _, hsame⟩ | ⟨jobs, -, -, hdone⟩
  · rw [hsame, Prod.mk.injEq] at h
    rw [← h.1]
    exact .refl store fun hyes => hno (hbroken hyes)
  · rw [hdone, Prod.mk.injEq] at h
    cases h.2

/-- A job that is not there is not changed. -/
theorem stays_withJob {id : Int} {f : Job → Job} {broken : Prop} (hbroken : ¬ broken)
    (h : store.withJob id f refusals = (after, .error fault)) : Stays store after broken := by
  unfold withJob at h
  rcases withJobs_cases store (fun jobs => (changeFirst id f jobs, (find? id jobs).map f)) refusals with
    ⟨-, _, hsame⟩ | ⟨jobs, hread, -, hdone⟩
  · rw [hsame, Prod.mk.injEq] at h
    rw [← h.1]
    exact .refl store hbroken
  · rw [hdone] at h
    cases hfind : find? id jobs with
    | none =>
      simp only [hfind, Option.map_none, Prod.mk.injEq] at h
      refine .rewritten hread ?_ hbroken
      rw [← h.1, Dispatch.changeFirst_of_find?_eq_none hfind]
    | some job =>
      simp only [hfind, Option.map_some, Prod.mk.injEq] at h
      cases h.2

theorem stays_create {now : Moment} {spec : JobSpec} {nodes : List String} {capacity : Nat}
    (h : store.createJob spec nodes capacity now.1 refusals = (after, .error fault)) :
    Stays store after (Breaks store refusals (.create spec nodes capacity)) := by
  have hcreation := creation_createJob store spec nodes capacity now.1 refusals
  rw [h] at hcreation
  cases hcreation with
  | barred hno => exact .refl store fun hbreaks => hno hbreaks.serves
  | full hread hev =>
    refine .rewritten hread rfl ?_
    intro hbreaks
    cases hbreaks with
    | created hagain _ hok =>
      rw [hread, Except.ok.injEq] at hagain
      subst hagain
      rw [hev] at hok
      cases hok
  | unmade hread hwrite hev hmake =>
    -- The list is written already when the directory turns out not to be made.
    rw [makeOutput_eq_none_iff, blocked_withoutOutputs hev] at hmake
    refine ⟨fun hno => absurd ⟨_, hread⟩ hno, iff_of_false (jobs_ne_of_listed hread hev rfl) ?_⟩
    exact fun hno => hno (.created hread hwrite hev hmake)

theorem interrupted_eq_self_iff (job : Job) :
    interrupted job = job ↔ ¬ (job.state = .dispatching ∨ job.state = .running) := by
  obtain ⟨id, spec, state, created, ended, nodes, failed, cancelFailed, progress⟩ := job
  cases state <;> simp [interrupted, JobState.isActive]

theorem map_interrupted_eq_self_iff (jobs : List Job) :
    jobs.map interrupted = jobs ↔ ∀ job ∈ jobs, ¬ (job.state = .dispatching ∨ job.state = .running) := by
  constructor
  · intro hsame job hjob
    have hself := List.map_inj_left.1 (hsame.trans (List.map_id jobs).symm) job hjob
    exact (interrupted_eq_self_iff job).1 hself
  · intro hno
    refine (List.map_inj_left.2 fun job hjob => ?_).trans (List.map_id jobs)
    exact (interrupted_eq_self_iff job).2 (hno job hjob)

/-- Jobs that were interrupted are marked before the output is looked through. -/
theorem stays_marked (hopening : refusals.opening = false) (hread : store.jobs = .ok jobs) (hwrite : refusals.writing = false)
    (hlisting : refusals.listing = true) (hfile : after.file = JobDocument.save (jobs.map interrupted)) :
    Stays store after (Breaks store refusals .reopen) := by
  have hlist : after.jobs = .ok (jobs.map interrupted) := by
    rw [Store.jobs, hfile]
    exact load_interrupted hread
  refine ⟨fun hno => absurd ⟨jobs, hread⟩ hno, ?_⟩
  rw [hlist, hread, Except.ok.injEq, map_interrupted_eq_self_iff]
  constructor
  · intro hno hbreaks
    cases hbreaks with
    | reopened _ hagain _ _ hjob hstate =>
      rw [hread, Except.ok.injEq] at hagain
      subst hagain
      exact hno _ hjob hstate
  · intro hunbroken job hjob hstate
    exact hunbroken (.reopened hopening hread hwrite hlisting hjob hstate)

theorem stays_reopen (h : store.recover refusals = (after, .error fault)) :
    Stays store after (Breaks store refusals .reopen) := by
  unfold recover at h
  split at h
  · rename_i hopening
    rw [Prod.mk.injEq] at h
    rw [← h.1]
    refine .refl store fun hbreaks => ?_
    cases hbreaks with
    | reopened hno => simp [hno] at hopening
  rename_i hopening
  split at h
  · rename_i habsent
    split at h
    · rw [Prod.mk.injEq] at h
      rw [← h.1]
      refine .refl store fun hbreaks => ?_
      obtain ⟨⟨jobs, hread⟩, -⟩ := hbreaks.serves
      simp [isAbsent_of_jobs hread] at habsent
    · rw [Prod.mk.injEq] at h
      cases h.2
  · rcases withJobs_cases store (fun jobs => (jobs.map interrupted, jobs.map (·.id))) refusals with
      ⟨hno, _, hsame⟩ | ⟨jobs, hread, hwrite, hdone⟩
    · rw [hsame, Prod.mk.injEq] at h
      rw [← h.1]
      exact .refl store fun hbreaks => hno hbreaks.serves
    · rw [hdone] at h
      simp only at h
      split at h
      · rename_i hlisting
        rw [Prod.mk.injEq] at h
        exact stays_marked (by simpa using hopening) hread hwrite hlisting (by rw [← h.1])
      · rw [Prod.mk.injEq] at h
        cases h.2

/-- What an operation did that ended with a fault. -/
theorem eq_of_ended {r : Store × Except Fault α} (h : ended r = (after, some fault)) :
    r = (after, .error fault) := by
  rw [ended, Prod.mk.injEq] at h
  exact Prod.ext h.1 (fault?_eq_some h.2)

theorem stays_of_fault {now : Moment} (h : store.serve request now.1 refusals = (after, some fault)) :
    Stays store after (Breaks store refusals request) := by
  cases request with
  | reopen => exact stays_reopen (eq_of_ended h)
  | create spec nodes capacity => exact stays_create (eq_of_ended h)
  | change id before after => exact stays_withJobs Breaks.serves (eq_of_ended h)
  | plan ids => exact stays_withJobs Breaks.serves (eq_of_ended h)
  | finish id failed => exact stays_withJob nofun (eq_of_ended h)
  | settle id failed => exact stays_withJob nofun (eq_of_ended h)
  | get ids =>
    rw [serve, Prod.mk.injEq] at h
    rw [← h.1]
    exact .refl store nofun

/-- A request to start a job comes to the store once its nodes are known. -/
theorem stays_startJob {node later : Headnode} {engine : Pattern.Engine} {settings : Settings}
    {net : Dispatch.Network} {spec : JobSpec} {intersect : Bool} {now : Moment} {status : Status}
    (h : node.startJob engine settings net spec intersect now.1 refusals = (later, .error status)) :
    Stays node.dispatch.store later.dispatch.store (∃ nodes,
      Dispatch.check engine (node.readyNodes settings) node.registry.groups spec intersect = .ok nodes ∧
        Breaks node.dispatch.store refusals (.create spec nodes (max settings.maxJobCount 1).toNat)) := by
  unfold Headnode.startJob at h
  cases hcheck : Dispatch.check engine (node.readyNodes settings) node.registry.groups spec intersect with
  | error fault =>
    rw [hcheck] at h
    simp only [Prod.mk.injEq] at h
    rw [← h.1]
    exact .refl _ nofun
  | ok nodes =>
    rw [hcheck] at h
    simp only [Dispatch.runJob, Dispatch.submit] at h
    cases hcreate : node.dispatch.store.createJob spec nodes (max settings.maxJobCount 1).toNat now.1
        refusals with
    | mk made answer =>
      rw [hcreate] at h
      cases answer with
      | error fault =>
        obtain ⟨hunread, hlisted⟩ := stays_create hcreate
        simp only [Prod.mk.injEq] at h
        rw [← h.1]
        exact ⟨hunread, by simpa using hlisted⟩
      | ok job =>
        simp only [Prod.mk.injEq] at h
        cases h.2

end

/-- A request that fails leaves the list as it was, unless it is one of the two that write the list before they are
through; and so does a request to start a job. A file that cannot be read is left alone. -/
theorem stays_unless_broken (now : Moment) :
    (∀ (store after : Store) (refusals : Refusals) (request : Request) (fault : Fault),
      store.serve request now.1 refusals = (after, some fault) →
        Stays store after (Breaks store refusals request)) ∧
      ∀ (node later : Headnode) (engine : Pattern.Engine) (settings : Settings) (net : Dispatch.Network)
        (spec : JobSpec) (intersect : Bool) (refusals : Refusals) (status : Status),
        node.startJob engine settings net spec intersect now.1 refusals = (later, .error status) →
          Stays node.dispatch.store later.dispatch.store (∃ nodes,
            Dispatch.check engine (node.readyNodes settings) node.registry.groups spec intersect = .ok nodes ∧
              Breaks node.dispatch.store refusals (.create spec nodes (max settings.maxJobCount 1).toNat)) := by
  refine ⟨?_, ?_⟩
  · intro store after refusals request fault h
    exact stays_of_fault h
  · intro node later engine settings net spec intersect refusals status h
    exact stays_startJob h

/-- A store with one job, which is running. -/
def occupied : Store :=
  { file := JobDocument.save [{ Job.new 1 { command := "a" } ["A"] Dispatch.epoch.1 with state := .running }]
    output := ∅ }

/-- There is no room for a second job, and the first stays alone. -/
theorem stays_occupied :
    ∃ after, occupied.serve (.create { command := "b" } ["B"] 1) Dispatch.epoch.1 = (after, some (.full 1 1)) ∧
      occupied.Readable ∧ after.jobs = occupied.jobs := by
  have hread : occupied.jobs.toOption.isSome := by decide +kernel
  obtain ⟨jobs, hjobs⟩ := readable_of_isSome hread
  have hfault : (occupied.serve (.create { command := "b" } ["B"] 1) Dispatch.epoch.1).2 = some (.full 1 1) := by
    decide +kernel
  refine ⟨_, Prod.ext rfl hfault, ⟨jobs, hjobs⟩, ?_⟩
  refine ((stays_unless_broken Dispatch.epoch).1 occupied _ {} _ _ (Prod.ext rfl hfault)).listed.2 ?_
  intro hbreaks
  cases hbreaks with
  | created _ _ _ hblocked => rcases hblocked with ⟨text, hfile⟩ | ⟨hmaking, -⟩ <;> contradiction

/-- A store without jobs, in whose output directory a file has the name of the first one. -/
def obstructed : Store :=
  { file := JobDocument.save [], output := SortedMap.ofList [(["1"], .file "in the way")] }

/-- The first job fails, and is listed all the same. -/
theorem obstructed_lists :
    ∃ after, obstructed.serve (.create { command := "a" } ["A"] 10) Dispatch.epoch.1 = (after, some .storage) ∧
      obstructed.jobs = .ok [] ∧
      after.jobs = .ok [.new 1 { command := "a" } ["A"] Dispatch.epoch.1] := by
  refine ⟨(obstructed.serve (.create { command := "a" } ["A"] 10) Dispatch.epoch.1).1, Prod.ext rfl ?_, ?_, ?_⟩
  · decide +kernel
  · decide +kernel
  · decide +kernel

end Store

end Muster
