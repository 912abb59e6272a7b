import Muster.Proofs.Course
import Muster.Proofs.Sending

/-!
# What the submitter of a job gets

The stream of a job ends with the code of every node behind the output of the node, unless the job is
driven out of the list while its run is under way. That happens only while nothing of it counts as active:
before its nodes are called, or after it was cancelled.
-/

namespace Muster

namespace Dispatch

open Store (withId newestId changeFirst cancelEnded marks)

/-- What the submitter has so far goes with what there is of the job. The job is `lost` if it was driven out
of the list while its run was under way. -/
structure Delivery (nodes : List String) (lost : Prop) (p : Part) (s : Stream) : Prop where
  stream : p.stream = some s
  names : s.nodes = nodes
  course : p.listed ≠ [] → ∃ marked ended entry, Course nodes marked ended p entry
  listed : p.run.isSome → (p.listed = [] ↔ lost)
  sending : ∀ run, p.run = some run → s.isClosed = false ∧ s.fault = none ∧ Sending nodes run s
  closed : p.run = none → s.isClosed ∧ (s.isLeft = false → (s.IsDelivered ↔ ¬ lost))

/-- A job that is listed is driven out while its run is under way. -/
def Part.Loses (p p' : Part) : Prop := p.run.isSome ∧ p.listed ≠ [] ∧ p'.listed = []

namespace Delivery

variable {nodes : List String} {lost : Prop} {p p' : Part} {s : Stream}

theorem turn {now : Time} (h : Delivery nodes lost p s) (hne : nodes ≠ []) (ht : Turn now p p')
    (hcourse : p'.listed ≠ [] → ∃ marked ended entry, Course nodes marked ended p' entry) :
    ∃ s', Delivery nodes lost p' s' := by
  have hstream := h.stream
  cases ht with
  | stayed => exact ⟨s, h⟩
  | left =>
    refine ⟨{ s with isLeft := true }, by simp [hstream], h.names, hcourse, h.listed, ?_, ?_⟩
    · intro run hrun
      obtain ⟨hopen, hfault, hsending⟩ := h.sending run hrun
      exact ⟨hopen, hfault, hsending.names, hsending.waits, by intro hleft; cases hleft⟩
    · intro hnone
      exact ⟨(h.closed hnone).1, by intro hleft; cases hleft⟩
  | @begun run job tasks hrun hphase hl hstate horders hcalling =>
    obtain ⟨hopen, hfault, hsending⟩ := h.sending run hrun
    have hlost := h.listed (by simp [hrun])
    rw [hl] at hlost
    refine ⟨s, hstream, h.names, hcourse, fun _ => by simpa using hlost, ?_, by intro hno; cases hno⟩
    rintro _ ⟨⟩
    exact ⟨hopen, hfault, hsending.begun hphase horders hcalling⟩
  | @dropped run hrun hphase hnot =>
    obtain ⟨-, -, hsending⟩ := h.sending run hrun
    have hnil : p.listed = [] := by
      by_contra hlisted
      obtain ⟨marked, ended, entry, hentry⟩ := h.course hlisted
      have hfits := hentry.fits
      rw [hrun, Option.map_some, hphase] at hfits
      exact hnot entry (by simp [hentry.listed]) (by simpa [Dispatch.fits] using hfits)
    have hlost : lost := (h.listed (by simp [hrun])).1 hnil
    refine ⟨s.closed none, by simp [hstream], h.names, hcourse, (by intro hno; cases hno),
      (by intro _ hno; cases hno), fun _ => ⟨rfl, fun hleft => ?_⟩⟩
    simp [hlost, hsending.not_isDelivered h.names hne hleft hphase]
  | @answered run node t hrun htask hphase =>
    obtain ⟨hopen, hfault, hsending⟩ := h.sending run hrun
    have hchanged : Sending nodes (changeTask run node Task.streamed) (s.sent node []) :=
      hsending.changed htask (.inl hphase) Task.streamed_node (by intro _ hwait; cases hwait)
        fun _ _ hout _ => by simpa [FramesFit] using hout
    rw [sent_nil] at hchanged
    refine ⟨s, hstream, h.names, hcourse, fun _ => h.listed (by simp [hrun]), ?_, by intro hno; cases hno⟩
    rintro _ ⟨⟩
    exact ⟨hopen, hfault, hchanged⟩
  | @relayed run node t r sink hrun htask hphase =>
    obtain ⟨hopen, hfault, hsending⟩ := h.sending run hrun
    refine ⟨s.sent node r.frames, by simp [hstream], by simp [h.names], hcourse,
      fun _ => h.listed (by simp [hrun]), ?_, by intro hno; cases hno⟩
    rintro _ ⟨⟩
    exact ⟨by simp [hopen], by simp [hfault], hsending.changed htask (.inr hphase)
      (Task.heard_node sink r) (fun _ hwait => hwait) fun u before hout hnone =>
        framesFit_heard hout hnone sink r⟩
  | @exited run node t code hrun htask hphase =>
    obtain ⟨hopen, hfault, hsending⟩ := h.sending run hrun
    refine ⟨s.sent node [.exit code], by simp [hstream], by simp [h.names], hcourse,
      fun _ => h.listed (by simp [hrun]), ?_, by intro hno; cases hno⟩
    rintro _ ⟨⟩
    exact ⟨by simp [hopen], by simp [hfault], hsending.exited htask (hphase.imp And.left And.left) code⟩
  | @launched run hrun hphase hissued =>
    obtain ⟨hopen, hfault, hsending⟩ := h.sending run hrun
    refine ⟨s, hstream, h.names, hcourse, fun _ => by simpa using h.listed (by simp [hrun]), ?_,
      by intro hno; cases hno⟩
    rintro _ ⟨⟩
    exact ⟨hopen, hfault, hsending.launched hphase⟩
  | @finished run job hrun hphase hended hl =>
    obtain ⟨-, -, hsending⟩ := h.sending run hrun
    have hkept : ¬ lost := by
      rw [← h.listed (by simp [hrun]), hl]
      simp
    refine ⟨s.closed none, by simp [hstream], h.names, hcourse, (by intro hno; cases hno),
      (by intro _ hno; cases hno), fun _ => ⟨rfl, fun hleft => ?_⟩⟩
    simp [hkept, hsending.isDelivered h.names hleft hended]
  | @lost run hrun hphase hended hl =>
    have hlost : lost := (h.listed (by simp [hrun])).1 hl
    refine ⟨s.closed (some (.unknownJob run.id)), by simp [hstream], h.names, hcourse,
      (by intro hno; cases hno), (by intro _ hno; cases hno), fun _ => ⟨rfl, fun _ => ?_⟩⟩
    simp [hlost, Stream.IsDelivered, Stream.closed]

/-- The job is listed once at most. -/
theorem length_le (h : Delivery nodes lost p s) : p.listed.length ≤ 1 := by
  by_cases hlisted : p.listed = []
  · simp [hlisted]
  · obtain ⟨_, _, entry, hcourse⟩ := h.course hlisted
    simp [hcourse.listed]

/-- What the submitter has goes on with the job, and tells whether the job was driven out. -/
theorem move {planned : Prop} {settles : List String → Prop} {now : Time} (h : Delivery nodes lost p s)
    (hne : nodes ≠ []) (hm : Move now planned settles p p') :
    ∃ s', Delivery nodes (lost ∨ p.Loses p') p' s' := by
  have hcourse : p'.listed ≠ [] → ∃ marked ended entry, Course nodes marked ended p' entry := by
    intro hlisted
    obtain ⟨marked, ended, entry, hentry⟩ := h.course (hm.listed_ne_nil hlisted)
    obtain ⟨after, hafter⟩ := hentry.move hm hlisted
    exact ⟨_, _, after, hafter⟩
  have hmap {f : Job → Job} (hp : p' = { p with listed := p.listed.map f }) :
      ∃ s', Delivery nodes (lost ∨ p.Loses p') p' s' := by
    subst hp
    have hkept : ¬ p.Loses { p with listed := p.listed.map f } := by
      rintro ⟨-, hlisted, hnil⟩
      exact hlisted (List.map_eq_nil_iff.1 hnil)
    rw [or_iff_left hkept]
    exact ⟨s, h.stream, h.names, hcourse, by simpa using h.listed, h.sending, h.closed⟩
  cases hm with
  | turned ht _ =>
    have hkept : ¬ p.Loses p' := by
      rintro ⟨-, hlisted, hnil⟩
      exact hlisted (ht.listed_eq_nil hnil)
    rw [or_iff_left hkept]
    exact h.turn hne ht hcourse
  | evicted =>
    refine ⟨s, h.stream, h.names, hcourse, ?_, h.sending, ?_⟩
    · intro hrun
      have hlost := h.listed hrun
      by_cases hnil : p.listed = []
      · simp [hlost.1 hnil]
      · simp [Part.Loses, hrun, hnil]
    · intro hnone
      have hkept : ¬ p.Loses { p with listed := [] } := by
        rintro ⟨hrun, -⟩
        have hclosed : p.run = none := hnone
        rw [hclosed] at hrun
        cases hrun
      rw [or_iff_left hkept]
      exact h.closed hnone
  | marked => exact hmap rfl
  | settled => exact hmap rfl

end Delivery

/-! ### Whole runs -/

/-- A submission drives a job out whose run is under way. Its entry is among the oldest that are not active,
as nothing of the job has begun, or as it was cancelled. -/
def DrivesOut (id : Int) (d : Dispatch) (e : Moment × Event) : Prop :=
  (d.run? id).isSome ∧ ∃ jobs spec nodes capacity keepsOutput kept evicted,
    d.store.jobs = .ok jobs ∧ e.2 = .submit spec nodes capacity keepsOutput ∧
      Store.evict jobs capacity = .ok (kept, evicted) ∧ id ∈ evicted ∧ ∃ entry ∈ jobs, entry.id = id ∧
        (entry.state = .created ∨ entry.state = .canceled ∨ entry.state = .cancelFailed)

/-- The run of a job is under way, and the job is not in the list. -/
def Forgets (id : Int) (d : Dispatch) : Prop :=
  (d.run? id).isSome ∧ ∃ jobs, d.store.jobs = .ok jobs ∧ withId id jobs = []

section

variable {id : Int} {nodes : List String} {d : Dispatch} {jobs : List Job}

theorem isIdle_of_fits {phase : RunPhase} {state : JobState} (h : fits (some phase) state)
    (hidle : state.isActive = false) : state = .created ∨ state = .canceled ∨ state = .cancelFailed := by
  cases phase <;> cases state <;> simp_all [fits, JobState.isMarked, JobState.isActive]

theorem withId_relist_eq_nil (now : Time) {e : Event} (hnil : withId id (d.relist now jobs e) = [])
    (he : ∀ spec nodes capacity keepsOutput, e ≠ .submit spec nodes capacity keepsOutput) :
    withId id jobs = [] := by
  rw [Store.withId_eq_nil] at hnil ⊢
  intro job hjob hid
  have hmem : job.id ∈ (d.relist now jobs e).map Job.id := by
    rw [map_id_relist now d jobs he]
    exact List.mem_map.2 ⟨job, hjob, rfl⟩
  obtain ⟨other, hother, heq⟩ := List.mem_map.1 hmem
  exact hnil other hother (heq.trans hid)

/-- A submission ends no run. -/
theorem isSome_run?_submit (h : d.store.jobs = .ok jobs) (hrun : (d.run? id).isSome) (now : Time)
    (spec : JobSpec) (nodes : List String) (capacity : Nat) (keepsOutput : Bool) :
    ((step now d (.submit spec nodes capacity keepsOutput)).run? id).isSome := by
  obtain ⟨run, hrun⟩ := Option.isSome_iff_exists.1 hrun
  unfold run? at hrun
  obtain ⟨-, ⟨hruns, -⟩ | ⟨other, -, -, hruns, -⟩⟩ := submit_eq h now spec nodes capacity keepsOutput
  · rw [run?, hruns, hrun]
    rfl
  · rw [run?, hruns, List.find?_append, hrun]
    rfl

theorem drivesOut_iff {lost : Prop} {s : Stream} (h : d.store.jobs = .ok jobs)
    (hknown : id ≤ newestId jobs) (hd : Delivery nodes lost (part id d jobs) s) (e : Moment × Event) :
    DrivesOut id d e ↔ (part id d jobs).Loses (part id (d.stepAt e) (d.relist e.1.1 jobs e.2)) := by
  constructor
  · rintro ⟨hrun, _, spec, new, capacity, keepsOutput, kept, evicted, hread, he, hev, hid, entry, hentry,
      hname, -⟩
    rw [h, Except.ok.injEq] at hread
    subst hread
    refine ⟨hrun, List.ne_nil_of_mem (Store.mem_withId.2 ⟨hentry, hname⟩), ?_⟩
    change withId id (d.relist e.1.1 jobs e.2) = []
    rw [he, relist, withId_enlist_of_evict hknown hev, if_pos hid]
  · rintro ⟨hrun, hlisted, hnil⟩
    change withId id jobs ≠ [] at hlisted
    change withId id (d.relist e.1.1 jobs e.2) = [] at hnil
    obtain ⟨marked, ended, entry, hcourse⟩ := hd.course hlisted
    have hentry : withId id jobs = [entry] := hcourse.listed
    by_cases hsubmit : ∃ spec new capacity keepsOutput, e.2 = .submit spec new capacity keepsOutput
    · obtain ⟨spec, new, capacity, keepsOutput, he⟩ := hsubmit
      rw [he, relist] at hnil
      cases hev : Store.evict jobs capacity with
      | error fault =>
        rw [Store.enlist, hev] at hnil
        exact absurd hnil hlisted
      | ok r =>
        obtain ⟨kept, evicted⟩ := r
        rw [withId_enlist_of_evict hknown hev] at hnil
        have hid : id ∈ evicted := by
          by_contra hno
          rw [if_neg hno] at hnil
          exact hlisted hnil
        have hmem := hid
        rw [(Store.evict_eq_ok hev).1] at hmem
        obtain ⟨job, hjob, hname, hidle⟩ := Store.mem_evictable hmem
        have hsame : job = entry := by
          have hin := Store.mem_withId.2 ⟨hjob, hname⟩
          rw [hentry] at hin
          exact List.mem_singleton.1 hin
        subst hsame
        obtain ⟨run, hrun'⟩ := Option.isSome_iff_exists.1 hrun
        have hfits := hcourse.fits
        rw [hrun', Option.map_some] at hfits
        exact ⟨hrun, jobs, spec, new, capacity, keepsOutput, kept, evicted, h, he, hev, hid, job, hjob, hname,
          isIdle_of_fits hfits hidle⟩
    · simp only [not_exists] at hsubmit
      exact absurd (withId_relist_eq_nil e.1.1 hnil hsubmit) hlisted

end

/-- Along every run, what the submitter of an accepted job has goes with what there is of the job. -/
theorem delivery_of_run {d : Dispatch} {job : Job} (hjob : d.Accepted job) {events : History} {jobs : List Job}
    (hread : (d.runAt events).store.jobs = .ok jobs) :
    job.id ≤ newestId jobs ∧ ∃ s,
      Delivery job.nodes (d.Happens events (DrivesOut job.id)) (part job.id (d.runAt events) jobs) s := by
  induction events using List.reverseRecOn generalizing jobs with
  | nil =>
    have hfresh := fresh_of_accepted hjob
    obtain ⟨keepsOutput, hpart⟩ := hfresh.part hread
    have hcourse : Course job.nodes False (fun _ _ => False) (part job.id d jobs) job :=
      .accepted hjob hread (fun h => h) fun _ _ h => h
    have hnone : ¬ d.Happens [] (DrivesOut job.id) := happens_nil d _
    refine ⟨(hfresh.listed jobs hread).1, { id := job.id, nodes := job.nodes }, ?_⟩
    rw [runAt_nil]
    refine ⟨by rw [hpart], rfl, fun _ => ⟨_, _, job, hcourse⟩, ?_, ?_, ?_⟩
    · rw [hpart]
      simp [hnone]
    · rw [hpart]
      rintro _ ⟨⟩
      refine ⟨rfl, rfl, tasksOf_node job, fun t ht => by simp [tasksOf_phase job t ht], ?_⟩
      intro _ t ht
      simp [FramesFit, Task.exitCode?, tasksOf_phase job t ht, Stream.framesOf]
    · rw [hpart]
      intro hno
      cases hno
  | append_singleton events e ih =>
    rw [runAt_concat] at hread ⊢
    obtain ⟨before, hbefore, rfl⟩ := jobs_of_stepAt hread
    obtain ⟨hknown, s, hd⟩ := ih hbefore
    refine ⟨Int.le_trans hknown (newestId_relist e.1.1 _ before e.2), ?_⟩
    rw [propext (happens_concat d events e (DrivesOut job.id)), propext (drivesOut_iff hbefore hknown hd e)]
    exact hd.move (fresh_of_accepted hjob).nodes (move_step hbefore hd.length_le hknown e)

/-- A job is missing from the list while its run is under way exactly if it was driven out. -/
theorem reaches_forgets_iff {d : Dispatch} {job : Job} (hjob : d.Accepted job) {events : History}
    (hstorage : ∀ s, s <+: events → (d.runAt s).store.Readable) :
    d.Reaches events (Forgets job.id) ↔ d.Happens events (DrivesOut job.id) := by
  constructor
  · rintro ⟨s, hs, hrun, jobs, hread, hnil⟩
    obtain ⟨-, _, hd⟩ := delivery_of_run hjob hread
    obtain ⟨t, e, ht, hout⟩ := (hd.listed hrun).1 hnil
    exact ⟨t, e, ht.trans hs, hout⟩
  · rintro ⟨s, e, hs, hout⟩
    obtain ⟨jobs, hread⟩ := hstorage _ hs
    obtain ⟨-, _, hd⟩ := delivery_of_run hjob hread
    refine ⟨s ++ [e], hs, ?_⟩
    have hlost : d.Happens (s ++ [e]) (DrivesOut job.id) := ⟨s, e, List.prefix_rfl, hout⟩
    have hrun : ((d.runAt (s ++ [e])).run? job.id).isSome := by
      obtain ⟨hrun, before, spec, nodes, capacity, keepsOutput, -, -, hbefore, he, -⟩ := hout
      rw [runAt_concat, stepAt, he]
      exact isSome_run?_submit hbefore hrun e.1.1 spec nodes capacity keepsOutput
    exact ⟨hrun, jobs, hread, (hd.listed hrun).2 hlost⟩

/-- What an accepted job owes to its submitter. Unless it is driven out while its run is under way, it stays in
the list until the run is over, and the submitter gets all frames of every node and then the end of the
stream without a fault. If it is driven out, neither holds. The run can always come to its end. -/
theorem delivered_iff_of_accepted {d : Dispatch} {job : Job} (hjob : d.Accepted job) {events : History}
    (hstorage : ∀ s, s <+: events → (d.runAt s).store.Readable) :
    (d.Reaches events (Forgets job.id) ↔ d.Happens events (DrivesOut job.id)) ∧
      ∃ s, (d.runAt events).stream? job.id = some s ∧ s.nodes = job.nodes ∧
        (s.isClosed ↔ (d.runAt events).run? job.id = none) ∧
        (s.isLeft = false → s.isClosed → (s.IsDelivered ↔ ¬ d.Happens events (DrivesOut job.id))) ∧
        (s.isLeft = false → ∃ more : History, (∀ e ∈ more, e.2.run? = some job.id) ∧
          (d.runAt (events ++ more)).run? job.id = none) := by
  refine ⟨reaches_forgets_iff hjob hstorage, ?_⟩
  obtain ⟨jobs, hread⟩ := hstorage events List.prefix_rfl
  obtain ⟨-, s, hd⟩ := delivery_of_run hjob hread
  have hclosed : s.isClosed ↔ (d.runAt events).run? job.id = none := by
    refine ⟨?_, fun hnone => (hd.closed hnone).1⟩
    intro hc
    by_contra hopen
    obtain ⟨run, hrun⟩ := Option.ne_none_iff_exists'.1 hopen
    rw [(hd.sending run hrun).1] at hc
    cases hc
  refine ⟨s, hd.stream, hd.names, hclosed, ?_, ?_⟩
  · intro hleft hc
    exact (hd.closed (hclosed.1 hc)).2 hleft
  · intro hleft
    cases hrun : (d.runAt events).run? job.id with
    | none => exact ⟨[], by simp, by simpa using hrun⟩
    | some run =>
      obtain ⟨more, hmore, hnone⟩ := exists_over epoch hrun hd.stream (hd.sending run hrun).2.2 hleft
      exact ⟨more, hmore, by rw [runAt_append]; exact hnone⟩

/-- A job on one node, at a head node that has room for one job. -/
def single : Dispatch := (idle.submit { command := "c", nodes := ["A"] } ["A"] 1 false epoch.1).1

/-- The node does not let the job be cancelled, and ends later. -/
def stubborn : History :=
  [.begin 1, .answered 1 "A" true, .launch 1, .cancel (SortedSet.ofList [1]), .cancelAnswered 0 1 "A" false,
    .cancelEnded 0 1, .reply 1 "A" { stdout := "out", exitCode := some 0 }, .ended 1 "A",
    .finish 1].map fun e => (epoch, e)

/-- Another job is submitted before the node ends. -/
def crowded : History :=
  stubborn.take 6 ++ (epoch, .submit { command := "c", nodes := ["A"] } ["A"] 1 false) :: stubborn.drop 6

theorem accepted_single : single.Accepted (Job.new 1 { command := "c", nodes := ["A"] } ["A"] epoch.1) :=
  ⟨idle, .plain, ["A"], ∅, { command := "c", nodes := ["A"] }, false, ["A"], 1, false, epoch, ⟨_, [], rfl⟩,
    by decide +kernel, Prod.ext rfl (by decide +kernel)⟩

theorem delivered_of_stubborn :
    (single.Reaches stubborn (Forgets 1) ↔ single.Happens stubborn (DrivesOut 1)) ∧
      ∃ s, (single.runAt stubborn).stream? 1 = some s ∧ s.nodes = ["A"] ∧
        (s.isClosed ↔ (single.runAt stubborn).run? 1 = none) ∧
        (s.isLeft = false → s.isClosed → (s.IsDelivered ↔ ¬ single.Happens stubborn (DrivesOut 1))) ∧
        (s.isLeft = false → ∃ more : History, (∀ e ∈ more, e.2.run? = some 1) ∧
          (single.runAt (stubborn ++ more)).run? 1 = none) :=
  delivered_iff_of_accepted accepted_single fun _ hs =>
    readable_of_runAt hs (Store.readable_of_isSome (by decide +kernel))

/-- The job is lost, and its submitter gets a fault at the end. -/
theorem crowded_drives_out :
    single.Accepted (Job.new 1 { command := "c", nodes := ["A"] } ["A"] epoch.1) ∧
      (∀ s, s <+: crowded → (single.runAt s).store.Readable) ∧ single.Reaches crowded (Forgets 1) ∧
      ∃ s, (single.runAt crowded).stream? 1 = some s ∧ s.isLeft = false ∧ s.fault = some (.unknownJob 1) := by
  have hread : (single.runAt crowded).store.Readable := Store.readable_of_isSome (by decide +kernel)
  refine ⟨accepted_single, fun _ hs => readable_of_runAt hs hread, ?_, ?_⟩
  · refine ⟨crowded.take 7, List.take_prefix _ _, by decide +kernel, ?_⟩
    obtain ⟨jobs, hjobs⟩ : (single.runAt (crowded.take 7)).store.Readable :=
      Store.readable_of_isSome (by decide +kernel)
    refine ⟨jobs, hjobs, ?_⟩
    have hnone : (single.runAt (crowded.take 7)).store.jobs.toOption.map (withId 1) = some [] := by
      decide +kernel
    rw [hjobs] at hnone
    exact Option.some.inj hnone
  · have hstream : (single.runAt crowded).stream? 1 = some
        { id := 1, nodes := ["A"], frames := [("A", .out "out"), ("A", .exit 0)],
          fault := some (.unknownJob 1), isClosed := true } := by
      decide +kernel
    exact ⟨_, hstream, rfl, rfl⟩

end Dispatch

end Muster
