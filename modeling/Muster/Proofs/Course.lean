import Muster.Proofs.Calls
import Muster.Proofs.Moves

/-!
# The course of a job

The entry of a job in the list and the progress of its run go together at every time: what the run has not
done yet is not in the entry, and what a cancellation has done stays there.
-/

namespace Muster

/-- A cancellation has marked the job. -/
def JobState.isMarked : JobState → Bool
  | canceling | canceled | cancelFailed => true
  | _ => false

namespace Dispatch

open Store (withId newestId enlist updateState markCanceling changeFirst finished cancelEnded mark marks)

/-- The states that an entry may have while its run is in a phase, or has ended. -/
def fits : Option RunPhase → JobState → Bool
  | some .accepted, state => state == .created
  | some .dispatching, state => state == .dispatching || state.isMarked
  | some .running, state => state == .running || state.isMarked
  | none, state => state == .finished || state == .failed || state.isMarked

namespace Part

/-- A node has ended with a code. -/
def HasEnded (p : Part) (node : String) (code : Int) : Prop :=
  ∃ run t, p.run = some run ∧ task? run node = some t ∧ t.exitCode? = some code

end Part

/-- An entry of a job goes with what is under way of it, where `ended` are the codes of the nodes that have
ended. -/
structure Course (nodes : List String) (marked : Prop) (ended : String → Int → Prop) (p : Part)
    (entry : Job) : Prop where
  listed : p.listed = [entry]
  fits : fits (p.run.map Run.phase) entry.state
  stamped : entry.endTime.isSome = entry.state.isTerminal
  marked : marked ↔ entry.state.isMarked
  unique : ∀ node code other, ended node code → ended node other → code = other
  tasks : ∀ run, p.run = some run →
    run.tasks.map Task.node = nodes ∧ entry.failedNodes = ∅ ∧
      (run.phase = .accepted → ∀ t ∈ run.tasks, t.phase = .waiting) ∧
      ∀ t ∈ run.tasks, ∀ code, t.exitCode? = some code ↔ ended t.node code
  codes : p.run = none →
    (∀ node code, entry.failedNodes.get? node = some code ↔ node ∈ nodes ∧ code ≠ 0 ∧ ended node code) ∧
      (∀ node ∈ nodes, ∃ code, ended node code) ∧
      (entry.state.isMarked = false →
        entry.state = if entry.failedNodes.isEmpty then .finished else .failed)

/-! ### Nodes that failed -/

theorem mem_failedNodes {run : Run} {t : Task} {code : Int} (hrun : t ∈ run.tasks)
    (hcode : t.exitCode? = some code) (hne : code ≠ 0) :
    (t.node, code) ∈ run.tasks.filterMap fun t =>
      (t.exitCode?.filter (· ≠ 0)).map fun code => (t.node, code) := by
  refine List.mem_filterMap.2 ⟨t, hrun, ?_⟩
  simp [hcode, hne]

theorem exists_of_mem_failedNodes {run : Run} {node : String} {code : Int}
    (h : (node, code) ∈ run.tasks.filterMap fun t =>
      (t.exitCode?.filter (· ≠ 0)).map fun code => (t.node, code)) :
    ∃ t ∈ run.tasks, t.node = node ∧ t.exitCode? = some code ∧ code ≠ 0 := by
  obtain ⟨t, ht, heq⟩ := List.mem_filterMap.1 h
  simp only [Option.map_eq_some_iff, Option.filter_eq_some_iff, Prod.mk.injEq] at heq
  obtain ⟨found, ⟨hfound, hne⟩, rfl, rfl⟩ := heq
  exact ⟨t, ht, rfl, hfound, by simpa using hne⟩

/-- The codes of a run, where nodes that are named twice end alike. -/
theorem get?_failedNodes {run : Run} {ended : String → Int → Prop}
    (h : ∀ t ∈ run.tasks, ∀ code, t.exitCode? = some code ↔ ended t.node code) (node : String)
    (code : Int) :
    (failedNodes run).get? node = some code ↔
      node ∈ run.tasks.map Task.node ∧ code ≠ 0 ∧ ended node code := by
  constructor
  · intro hget
    have hmem := SortedMap.mem_of_mem_ofList ((SortedMap.get?_eq_some_iff _ _ _).1 hget)
    obtain ⟨t, ht, rfl, hcode, hne⟩ := exists_of_mem_failedNodes hmem
    exact ⟨List.mem_map.2 ⟨t, ht, rfl⟩, hne, (h t ht code).1 hcode⟩
  · rintro ⟨hnode, hne, hended⟩
    obtain ⟨t, ht, rfl⟩ := List.mem_map.1 hnode
    have hcode := (h t ht code).2 hended
    have hkey : (failedNodes run).contains t.node :=
      (SortedMap.contains_ofList _ _).2 (List.mem_map.2 ⟨_, mem_failedNodes ht hcode hne, rfl⟩)
    obtain ⟨found, hfound⟩ := Option.isSome_iff_exists.1 hkey
    have hmem := SortedMap.mem_of_mem_ofList ((SortedMap.get?_eq_some_iff _ _ _).1 hfound)
    obtain ⟨u, hu, hnode, hucode, -⟩ := exists_of_mem_failedNodes hmem
    have hsame := (h t ht found).2 (hnode ▸ (h u hu found).1 hucode)
    rw [hcode, Option.some.injEq] at hsame
    rw [hfound, hsame]

theorem get?_finished {failed : SortedMap String Int} {now : Time} {job : Job}
    (hnone : job.failedNodes = ∅) (node : String) (code : Int) :
    (finished failed now job).failedNodes.get? node = some code ↔ failed.get? node = some code := by
  rw [Store.finished_failedNodes, hnone]
  have hkeys : (failed.toList.map (·.1)).Nodup := failed.keys_nodup
  rw [SortedMap.get?_foldl_insertNew hkeys ∅ (by simp), SortedMap.get?_eq_some_iff failed]
  simp

theorem finished_isEmpty {failed : SortedMap String Int} {now : Time} {job : Job}
    (hnone : job.failedNodes = ∅) :
    (finished failed now job).failedNodes.isEmpty = failed.isEmpty := by
  rw [Bool.eq_iff_iff, SortedMap.isEmpty_iff, SortedMap.isEmpty_iff]
  have hget (node : String) : (finished failed now job).failedNodes.get? node = failed.get? node :=
    Option.ext fun code => get?_finished hnone node code
  simp [hget]

/-! ### Turns -/

namespace Course

variable {nodes : List String} {marked : Prop} {ended : String → Int → Prop} {p : Part} {entry : Job}

/-- Codes that are seen in the run have been noted. -/
theorem ended_of_hasEnded (h : Course nodes marked ended p entry) {node : String} {code : Int}
    (he : p.HasEnded node code) : ended node code := by
  obtain ⟨run, t, hrun, ht, hcode⟩ := he
  have hall := (h.tasks run hrun).2.2.2 t (mem_of_task? ht) code
  rw [task?_node ht] at hall
  exact hall.1 hcode

/-- Noting the codes that are seen adds nothing. -/
theorem noted (h : Course nodes marked ended p entry) :
    Course nodes marked (fun node code => ended node code ∨ p.HasEnded node code) p entry := by
  have heq : (fun node code => ended node code ∨ p.HasEnded node code) = ended := by
    funext node code
    exact propext ⟨fun he => he.elim (fun h => h) h.ended_of_hasEnded, .inl⟩
  rw [heq]
  exact h

/-- The course of a job that was just accepted. -/
theorem accepted {d : Dispatch} {job : Job} {jobs : List Job} (hjob : d.Accepted job)
    (h : d.store.jobs = .ok jobs) (hmarked : ¬ marked) (hnone : ∀ node code, ¬ ended node code) :
    Course job.nodes marked ended (part job.id d jobs) job := by
  have hfresh := fresh_of_accepted hjob
  have hstate := hfresh.state
  obtain ⟨keepsOutput, hpart⟩ := hfresh.part h
  rw [hpart]
  refine ⟨rfl, by rw [hstate]; rfl, by rw [hstate, hfresh.endTime]; rfl, ?_, ?_, ?_, by intro hno; cases hno⟩
  · simp [hstate, hmarked, JobState.isMarked]
  · intro node code other hended
    exact absurd hended (hnone node code)
  · rintro _ ⟨⟩
    refine ⟨tasksOf_node job, hfresh.failedNodes, fun _ => tasksOf_phase job, ?_⟩
    intro t ht code
    simp [Task.exitCode?, tasksOf_phase job t ht, hnone]

theorem begun {run : Run} {tasks : List Task} (h : Course nodes marked ended p entry)
    (hrun : p.run = some run) (hphase : run.phase = .accepted)
    (horders : tasks.map Task.order = run.tasks.map Task.order)
    (hcalling : ∀ t ∈ tasks, t.phase = .calling) :
    Course nodes marked ended { p with
      listed := [{ entry with state := .dispatching }]
      run := some { run with tasks, phase := .dispatching } } { entry with state := .dispatching } := by
  obtain ⟨hnodes, hfailed, hwaiting, hcodes⟩ := h.tasks run hrun
  have hfits := h.fits
  have hstamped := h.stamped
  have hmarked := h.marked
  rw [hrun, Option.map_some, hphase] at hfits
  have hstate : entry.state = .created := by simpa [Dispatch.fits] using hfits
  rw [hstate] at hstamped hmarked
  refine ⟨rfl, rfl, hstamped, hmarked, h.unique, ?_, by intro hnone; cases hnone⟩
  rintro _ ⟨⟩
  have hnames : tasks.map Task.node = run.tasks.map Task.node := by
    have hmap := congrArg (List.map Order.node) horders
    rw [List.map_map, List.map_map] at hmap
    exact hmap
  refine ⟨hnames.trans hnodes, hfailed, ?_, ?_⟩
  · intro hacc
    cases hacc
  intro t ht code
  have hname : t.node ∈ run.tasks.map Task.node := hnames ▸ List.mem_map.2 ⟨t, ht, rfl⟩
  obtain ⟨u, hu, hnode⟩ := List.mem_map.1 hname
  have hnot := hcodes u hu code
  rw [hnode] at hnot
  rw [← hnot]
  simp [Task.exitCode?, hcalling t ht, hwaiting hphase u hu]

/-- One node changes; its code is known if it has one, and those of the others stay. -/
theorem changed {run : Run} {node : String} {t : Task} {f : Task → Task} {after : String → Int → Prop}
    (h : Course nodes marked ended p entry) (hrun : p.run = some run) (htask : task? run node = some t)
    (hbusy : t.phase ≠ .waiting) (hnode : ∀ u, (f u).node = u.node)
    (hself : ∀ u ∈ run.tasks, u.node = node → ∀ code, (f u).exitCode? = some code ↔ after node code)
    (hother : ∀ other ≠ node, ∀ code, after other code ↔ ended other code)
    (hunique : ∀ node code other, after node code → after node other → code = other)
    (stream : Option Stream) :
    Course nodes marked after { p with run := some (changeTask run node f), stream } entry := by
  obtain ⟨hnodes, hfailed, hwaiting, hcodes⟩ := h.tasks run hrun
  have hfits := h.fits
  rw [hrun] at hfits
  refine ⟨h.listed, hfits, h.stamped, h.marked, hunique, ?_, by intro hno; cases hno⟩
  rintro _ ⟨⟩
  refine ⟨?_, hfailed, ?_, ?_⟩
  · rw [← hnodes, changeTask, List.map_map]
    refine List.map_congr_left fun u _ => ?_
    simp only [Function.comp_apply]
    split
    · exact hnode u
    · rfl
  · intro hacc
    exact absurd (hwaiting hacc t (mem_of_task? htask)) hbusy
  · intro u hu code
    obtain ⟨v, hv, rfl⟩ := List.mem_map.1 hu
    split
    · rename_i heq
      rw [hnode, heq]
      exact hself v hv heq code
    · rename_i hne
      rw [hother v.node hne]
      exact hcodes v hv code

/-- A node that is still busy has no code yet. -/
theorem not_ended {run : Run} {node : String} {t : Task} (h : Course nodes marked ended p entry)
    (hrun : p.run = some run) (htask : task? run node = some t) (hnone : t.exitCode? = none)
    (code : Int) : ¬ ended node code := by
  intro hended
  have hall := (h.tasks run hrun).2.2.2 t (mem_of_task? htask) code
  rw [task?_node htask, hnone] at hall
  exact absurd (hall.2 hended) (by simp)

theorem exited {run : Run} {node : String} {t : Task} {code : Int}
    (h : Course nodes marked ended p entry) (hrun : p.run = some run) (htask : task? run node = some t)
    (hbusy : t.phase = .calling ∨ t.phase = .streaming) (stream : Option Stream) :
    Course nodes marked
      (fun n c => ended n c ∨ Part.HasEnded { p with
        run := some (changeTask run node (Task.exited code))
        stream } n c)
      { p with
        run := some (changeTask run node (Task.exited code))
        stream } entry := by
  have hnone : t.exitCode? = none := by
    rcases hbusy with hp | hp
    · simp [Task.exitCode?, hp]
    · simp [Task.exitCode?, hp]
  have hwait : t.phase ≠ .waiting := by
    rcases hbusy with hp | hp
    · simp [hp]
    · simp [hp]
  have hnext : Course nodes marked (fun n c => ended n c ∨ n = node ∧ c = code) { p with
      run := some (changeTask run node (Task.exited code))
      stream } entry := by
    have hnot := h.not_ended hrun htask hnone
    refine h.changed hrun htask hwait (Task.exited_node code) ?_ ?_ ?_ stream
    · intro u _ _ c
      simp [hnot c, eq_comm]
    · intro other hne c
      simp [hne]
    · rintro n c c' (hc | ⟨rfl, rfl⟩) (hc' | ⟨hn, rfl⟩)
      · exact h.unique n c c' hc hc'
      · rw [hn] at hc
        exact absurd hc (hnot c)
      · exact absurd hc' (hnot c')
      · rfl
  have heq : (fun n c => ended n c ∨ Part.HasEnded { p with
      run := some (changeTask run node (Task.exited code))
      stream } n c) = fun n c => ended n c ∨ n = node ∧ c = code := by
    funext n c
    refine propext ⟨?_, ?_⟩
    · rintro (he | he)
      · exact .inl he
      · exact hnext.ended_of_hasEnded he
    · rintro (he | ⟨rfl, rfl⟩)
      · exact .inl he
      · exact .inr ⟨_, _, rfl, task?_changeTask_self htask (Task.exited_node c), rfl⟩
  rw [heq]
  exact hnext

theorem launch (h : Course nodes marked ended p entry) {run : Run} (hrun : p.run = some run)
    (hphase : run.phase = .dispatching) :
    Course nodes marked ended { p with
      listed := p.listed.map launched
      run := some { run with phase := .running } } (launched entry) := by
  obtain ⟨hnodes, hfailed, -, hcodes⟩ := h.tasks run hrun
  have hfits := h.fits
  have hstamped := h.stamped
  have hmarked := h.marked
  rw [hrun, Option.map_some, hphase] at hfits
  have hfailed' : (launched entry).failedNodes = ∅ := by
    unfold launched
    split
    · exact hfailed
    · exact hfailed
  refine ⟨by simp [h.listed], ?_, ?_, ?_, h.unique, ?_, by intro hno; cases hno⟩
  · unfold launched
    split
    · rfl
    · rename_i hne
      have hmark : entry.state.isMarked := by simpa [Dispatch.fits, hne] using hfits
      simp [Dispatch.fits, hmark]
  · unfold launched
    split
    · rename_i heq
      rw [heq] at hstamped
      exact hstamped
    · exact hstamped
  · unfold launched
    split
    · rename_i heq
      rw [heq] at hmarked
      exact hmarked
    · exact hmarked
  · rintro _ ⟨⟩
    refine ⟨hnodes, hfailed', ?_, hcodes⟩
    intro hacc
    cases hacc

theorem finish (h : Course nodes marked ended p entry) {run : Run} (hrun : p.run = some run)
    (hphase : run.phase = .running) (hended : ∀ t ∈ run.tasks, t.exitCode?.isSome) (now : Time)
    (stream : Option Stream) :
    Course nodes marked ended ⟨[finished (failedNodes run) now entry], none, stream⟩
      (finished (failedNodes run) now entry) := by
  obtain ⟨hnodes, hfailed, -, hcodes⟩ := h.tasks run hrun
  have hfits := h.fits
  have hstamped := h.stamped
  have hmarked := h.marked
  rw [hrun, Option.map_some, hphase] at hfits
  have hget (node : String) (code : Int) :
      (finished (failedNodes run) now entry).failedNodes.get? node = some code ↔
        node ∈ nodes ∧ code ≠ 0 ∧ ended node code := by
    rw [get?_finished hfailed, get?_failedNodes hcodes, hnodes]
  have hall : ∀ node ∈ nodes, ∃ code, ended node code := by
    intro node hnode
    rw [← hnodes] at hnode
    obtain ⟨t, ht, rfl⟩ := List.mem_map.1 hnode
    obtain ⟨code, hcode⟩ := Option.isSome_iff_exists.1 (hended t ht)
    exact ⟨code, (hcodes t ht code).1 hcode⟩
  have hempty : (finished (failedNodes run) now entry).failedNodes.isEmpty = (failedNodes run).isEmpty :=
    finished_isEmpty hfailed
  by_cases hrunning : entry.state = .running
  · have hstate : (finished (failedNodes run) now entry).state =
        if (failedNodes run).isEmpty then .finished else .failed := by
      simp [finished, hrunning]
    have hend : (finished (failedNodes run) now entry).endTime = some now := by
      simp [finished, hrunning]
    rw [hrunning] at hmarked
    refine ⟨rfl, ?_, ?_, ?_, h.unique, (by intro _ hno; cases hno), fun _ => ⟨hget, hall, ?_⟩⟩
    · rw [hstate]
      split <;> rfl
    · rw [hstate, hend]
      split <;> rfl
    · rw [hstate]
      split <;> exact hmarked
    · intro _
      rw [hstate, hempty]
  · have hmark : entry.state.isMarked := by simpa [Dispatch.fits, hrunning] using hfits
    have hstate : (finished (failedNodes run) now entry).state = entry.state := by
      simp [finished, hrunning]
    have hend : (finished (failedNodes run) now entry).endTime = entry.endTime := by
      simp [finished, hrunning]
    refine ⟨rfl, ?_, ?_, ?_, h.unique, (by intro _ hno; cases hno), fun _ => ⟨hget, hall, ?_⟩⟩
    · rw [hstate]
      simp [Dispatch.fits, hmark]
    · rw [hstate, hend]
      exact hstamped
    · rw [hstate]
      exact hmarked
    · intro hno
      rw [hstate, hmark] at hno
      cases hno

/-- A turn of a job keeps its entry and its progress together, and leaves it to the cancellations if one has
marked it. -/
theorem turn {now : Time} {p' : Part} (h : Course nodes marked ended p entry) (ht : Turn now p p') :
    ∃ after, Course nodes marked (fun node code => ended node code ∨ p'.HasEnded node code) p' after ∧
      (entry.state.isMarked → after.state = entry.state) := by
  have hlisted := h.listed
  cases ht with
  | stayed => exact ⟨entry, h.noted, fun _ => rfl⟩
  | left =>
    exact ⟨entry, noted ⟨h.listed, h.fits, h.stamped, h.marked, h.unique, h.tasks, h.codes⟩, fun _ => rfl⟩
  | begun hrun hphase hl hstate horders hcalling =>
    rw [hlisted, List.singleton_inj] at hl
    subst hl
    refine ⟨_, noted (h.begun hrun hphase horders hcalling), ?_⟩
    intro hmark
    rw [hstate] at hmark
    cases hmark
  | dropped hrun hphase hnot =>
    have hfits := h.fits
    rw [hrun, Option.map_some, hphase] at hfits
    have hstate : entry.state = .created := by simpa [Dispatch.fits] using hfits
    exact absurd hstate (hnot entry (by simp [hlisted]))
  | answered hrun htask hphase =>
    have hnone := h.not_ended hrun htask (by simp [Task.exitCode?, hphase])
    refine ⟨entry, noted (h.changed hrun htask (by simp [hphase]) Task.streamed_node ?_ ?_ h.unique
      _), fun _ => rfl⟩
    · intro u _ _ code
      simp [hnone code]
    · exact fun _ _ _ => Iff.rfl
  | relayed r sink hrun htask hphase =>
    refine ⟨entry, noted (h.changed hrun htask (by simp [hphase]) (Task.heard_node sink r) ?_ ?_
      h.unique _), fun _ => rfl⟩
    · intro u hu hnode code
      rw [Task.heard_exitCode?, ← hnode]
      exact (h.tasks _ hrun).2.2.2 u hu code
    · exact fun _ _ _ => Iff.rfl
  | exited hrun htask hphase =>
    exact ⟨entry, h.exited hrun htask (hphase.imp And.left And.left) _, fun _ => rfl⟩
  | launched hrun hphase _ =>
    refine ⟨_, noted (h.launch hrun hphase), ?_⟩
    intro hmark
    unfold Dispatch.launched
    split
    · rename_i hstate
      rw [hstate] at hmark
      cases hmark
    · rfl
  | finished hrun hphase hended hl =>
    rw [hlisted, List.singleton_inj] at hl
    subst hl
    refine ⟨_, noted (h.finish hrun hphase hended now _), ?_⟩
    intro hmark
    have hnot : entry.state ≠ .running := by
      intro hstate
      rw [hstate] at hmark
      cases hmark
    simp [finished, hnot]
  | lost hrun hphase hended hl =>
    rw [hlisted] at hl
    cases hl

/-- A cancellation gives a job that has begun another state. -/
theorem restated {after : Job} {markedNow : Prop} (h : Course nodes marked ended p entry)
    (hbegun : entry.state ≠ .created) (hfailed : after.failedNodes = entry.failedNodes)
    (hmark : after.state.isMarked) (hstamped : after.endTime.isSome = after.state.isTerminal)
    (hnow : markedNow) : Course nodes markedNow ended { p with listed := [after] } after := by
  refine ⟨rfl, ?_, hstamped, by simp [hnow, hmark], h.unique, ?_, ?_⟩
  · have hfits := h.fits
    change Dispatch.fits (p.run.map Run.phase) after.state
    cases hphase : p.run.map Run.phase with
    | none => simp [Dispatch.fits, hmark]
    | some phase =>
      rw [hphase] at hfits
      cases phase with
      | accepted => exact absurd (by simpa [Dispatch.fits] using hfits) hbegun
      | dispatching => simp [Dispatch.fits, hmark]
      | running => simp [Dispatch.fits, hmark]
  · intro run hrun
    rw [hfailed]
    exact h.tasks run hrun
  · intro hnone
    obtain ⟨hget, hall, -⟩ := h.codes hnone
    rw [hfailed]
    refine ⟨hget, hall, ?_⟩
    intro hnot
    rw [hmark] at hnot
    cases hnot

/-- A cancellation marks a job that is active. -/
theorem mark (h : Course nodes marked ended p entry) (ids : JobIds) (jobs : List Job) :
    Course nodes (marked ∨ marks ids jobs entry)
      (fun node code => ended node code ∨
        Part.HasEnded { p with listed := p.listed.map (Store.mark ids jobs) } node code)
      { p with listed := p.listed.map (Store.mark ids jobs) } (Store.mark ids jobs entry) := by
  have hlisted : p.listed.map (Store.mark ids jobs) = [Store.mark ids jobs entry] := by
    rw [h.listed, List.map_singleton]
  rw [hlisted]
  by_cases hmarks : marks ids jobs entry
  · have hactive : entry.state.isActive := by
      simp only [marks, Bool.and_eq_true] at hmarks
      exact hmarks.2
    have hmark : Store.mark ids jobs entry = { entry with state := .canceling } := by
      rw [Store.mark, if_pos hmarks]
    have hstamped := h.stamped
    have hbegun : entry.state ≠ .created := by
      intro hstate
      rw [hstate] at hactive
      cases hactive
    have hopen : entry.endTime.isSome = false := by
      rw [hstamped]
      cases hs : entry.state <;> simp_all [JobState.isActive, JobState.isTerminal]
    have hnext : Course nodes (marked ∨ marks ids jobs entry) ended
        { p with listed := [{ entry with state := .canceling }] } { entry with state := .canceling } :=
      h.restated hbegun rfl rfl hopen (.inr hmarks)
    rw [hmark]
    exact hnext.noted
  · have hmark : Store.mark ids jobs entry = entry := by rw [Store.mark, if_neg hmarks]
    have hnext : Course nodes (marked ∨ marks ids jobs entry) ended { p with listed := [entry] } entry := by
      refine ⟨rfl, h.fits, h.stamped, ?_, h.unique, h.tasks, h.codes⟩
      rw [← h.marked]
      simp [hmarks]
    rw [hmark]
    exact hnext.noted

/-- A cancellation that ends settles a job that is still being cancelled. -/
theorem settle (h : Course nodes marked ended p entry) (failed : List String) (now : Time) :
    Course nodes marked
      (fun node code => ended node code ∨
        Part.HasEnded { p with listed := [cancelEnded failed now entry] } node code)
      { p with listed := [cancelEnded failed now entry] } (cancelEnded failed now entry) := by
  by_cases hstate : entry.state = .canceling
  · have hmark : entry.state.isMarked := by rw [hstate]; rfl
    have hbegun : entry.state ≠ .created := by simp [hstate]
    have hafter : (cancelEnded failed now entry).state.isMarked := by
      rw [cancelEnded, if_pos hstate]
      split <;> rfl
    have hstamped : (cancelEnded failed now entry).endTime.isSome =
        (cancelEnded failed now entry).state.isTerminal := by
      rw [cancelEnded, if_pos hstate]
      split <;> rfl
    have hnext : Course nodes marked ended { p with listed := [cancelEnded failed now entry] }
        (cancelEnded failed now entry) :=
      h.restated hbegun (Store.cancelEnded_failedNodes failed now entry) hafter hstamped
        (h.marked.2 hmark)
    exact hnext.noted
  · have hsame : cancelEnded failed now entry = entry := by rw [cancelEnded, if_neg hstate]
    have hnext : Course nodes marked ended { p with listed := [entry] } entry :=
      ⟨rfl, h.fits, h.stamped, h.marked, h.unique, h.tasks, h.codes⟩
    rw [hsame]
    exact hnext.noted

/-- As long as a job is listed, its entry goes with what is under way of it. -/
theorem move {planned : Prop} {settles : List String → Prop} {p' : Part} {now : Time}
    (h : Course nodes marked ended p entry) (hm : Move now planned settles p p') (hlisted : p'.listed ≠ []) :
    ∃ after,
      Course nodes (marked ∨ planned) (fun node code => ended node code ∨ p'.HasEnded node code) p' after := by
  cases hm with
  | turned ht hno =>
    obtain ⟨after, hcourse, -⟩ := h.turn ht
    rw [propext (or_iff_left hno)]
    exact ⟨after, hcourse⟩
  | evicted => exact absurd rfl hlisted
  | marked ids jobs hplanned =>
    rw [h.listed] at hplanned
    have hmarks : planned = marks ids jobs entry := propext (by simpa using hplanned)
    rw [hmarks]
    exact ⟨_, h.mark ids jobs⟩
  | settled refused _ hno =>
    have hmap : p.listed.map (cancelEnded refused now) = [cancelEnded refused now entry] := by
      rw [h.listed, List.map_singleton]
    rw [propext (or_iff_left hno), hmap]
    exact ⟨_, h.settle refused now⟩

end Course

end Dispatch

end Muster
