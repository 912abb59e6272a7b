import Muster.CommandLine.Report
import Muster.Proofs.Confirming
import Muster.Proofs.Relaying

/-!
# What the exit of a followed job tells

Who follows a job to its end gets an exit that is made of the codes that came and of how the stream was closed. No
code comes of a job that was driven out of the list before its nodes were called, and its stream is closed in order
like that of a job whose nodes all succeeded.
-/

namespace Muster

namespace CommandLine.Report

/-! ### The codes that came -/

theorem follow_concat (frames : List (String × Frame)) (node : String) (frame : Frame) :
    follow (frames ++ [(node, frame)]) = (follow frames).take node frame := by
  simp [follow]

/-- Every code that is known was sent. -/
theorem mem_of_get?_follow {frames : List (String × Frame)} {node : String} {code : Int}
    (h : (follow frames).codes.get? node = some code) : (node, .exit code) ∈ frames := by
  induction frames using List.reverseRecOn with
  | nil => cases h
  | append_singleton frames e ih =>
    obtain ⟨sender, frame⟩ := e
    rw [follow_concat] at h
    rw [List.mem_append]
    cases frame with
    | out text => exact .inl (ih h)
    | err text => exact .inl (ih h)
    | exit last =>
      by_cases hsame : node = sender
      · subst hsame
        rw [Progress.take, SortedMap.get?_insert_self, Option.some.injEq] at h
        exact .inr (by simp [h])
      · rw [Progress.take, SortedMap.get?_insert_of_ne _ _ hsame] at h
        exact .inl (ih h)

/-- Of every node that sent a code one is known. -/
theorem isSome_get?_follow {frames : List (String × Frame)} {node : String} {code : Int}
    (h : (node, .exit code) ∈ frames) : ((follow frames).codes.get? node).isSome := by
  induction frames using List.reverseRecOn with
  | nil => cases h
  | append_singleton frames e ih =>
    obtain ⟨sender, frame⟩ := e
    rw [follow_concat]
    have hbefore : ∀ text, frame = .out text ∨ frame = .err text → (node, .exit code) ∈ frames := by
      rintro text (rfl | rfl) <;> simpa using h
    cases frame with
    | out text => exact ih (hbefore text (.inl rfl))
    | err text => exact ih (hbefore text (.inr rfl))
    | exit last =>
      by_cases hsame : node = sender
      · subst hsame
        rw [Progress.take, SortedMap.get?_insert_self]
        rfl
      · rw [Progress.take, SortedMap.get?_insert_of_ne _ _ hsame]
        refine ih ?_
        simpa [hsame] using h

theorem isEmpty_failures (codes : SortedMap String Int) :
    (failures codes).isEmpty ↔ ∀ node code, codes.get? node = some code → code = 0 := by
  have hfailed (node : String) (code : Int) :
      (failures codes).get? node = some code ↔ codes.get? node = some code ∧ code ≠ 0 := by
    rw [SortedMap.get?_eq_some_iff, SortedMap.get?_eq_some_iff]
    change (node, code) ∈ codes.toList.filter _ ↔ _
    simp
  rw [SortedMap.isEmpty_iff]
  constructor
  · intro hnone node code hcode
    by_contra hne
    have hsome := (hfailed node code).2 ⟨hcode, hne⟩
    rw [hnone] at hsome
    cases hsome
  · intro hzero node
    cases hget : (failures codes).get? node with
    | none => rfl
    | some code =>
      obtain ⟨hcode, hne⟩ := (hfailed node code).1 hget
      exact absurd (hzero node code hcode) hne

/-- The exit is 0 where the stream was closed in order and no other code than 0 is known. -/
theorem stream_exit_eq_zero (s : Dispatch.Stream) :
    (stream s).exit = 0 ↔
      s.fault = none ∧ ∀ node code, (follow s.frames).codes.get? node = some code → code = 0 := by
  rw [← isEmpty_failures]
  unfold stream
  cases s.fault with
  | some fault => simp [Printed.after, Printed.failure]
  | none =>
    simp only [Printed.after, true_and]
    split
    · rename_i hempty
      simp [hempty]
    · rename_i hfailed
      simp [hfailed]

end CommandLine.Report

namespace Dispatch

open CommandLine
open Store (newestId withId updateState)

/-! ### Verdicts -/

/-- A node has told the submitter its code. -/
def Stream.Reports (s : Stream) (node : String) (code : Int) : Prop := (node, Frame.exit code) ∈ s.frames

/-- What the exit of a followed job promises: it is 0 only if every node reported 0, and it is 0 if every node did
and the stream was closed in order. -/
def Stream.IsJudged (s : Stream) : Prop :=
  ((Report.stream s).exit = 0 → ∀ node ∈ s.nodes, s.Reports node 0) ∧
    ((∀ node ∈ s.nodes, s.Reports node 0) → s.fault = none → (Report.stream s).exit = 0)

theorem mem_framesOf {s : Stream} {node : String} {frame : Frame} :
    frame ∈ s.framesOf node ↔ (node, frame) ∈ s.frames := by
  simp only [Stream.framesOf, List.mem_filterMap]
  constructor
  · rintro ⟨⟨sender, other⟩, hmem, hsame⟩
    split at hsame
    · rename_i hnode
      cases hnode
      cases hsame
      exact hmem
    · cases hsame
  · intro hmem
    exact ⟨(node, frame), hmem, if_pos rfl⟩

/-- A node that has ended reports one code. -/
theorem IsComplete.reports_unique {s : Stream} {node : String} (h : IsComplete (s.framesOf node)) {code other : Int}
    (hcode : s.Reports node code) (hother : s.Reports node other) : code = other := by
  obtain ⟨output, last, hframes, houtput⟩ := h
  have hlast {c : Int} (hc : s.Reports node c) : c = last := by
    have hmem : Frame.exit c ∈ s.framesOf node := mem_framesOf.2 hc
    rw [hframes, List.mem_append, List.mem_singleton] at hmem
    rcases hmem with hout | hsame
    · cases houtput _ hout
    · exact Frame.exit.inj hsame
  rw [hlast hcode, hlast hother]

theorem IsComplete.exists_reports {s : Stream} {node : String} (h : IsComplete (s.framesOf node)) :
    ∃ code, s.Reports node code := by
  obtain ⟨output, code, hframes, -⟩ := h
  exact ⟨code, mem_framesOf.1 (by simp [hframes])⟩

/-- Where all that is due has come, and only from the nodes of the job, the exit tells the truth. -/
theorem Stream.IsDelivered.isJudged {s : Stream} (h : s.IsDelivered) (hframes : ∀ f ∈ s.frames, f.1 ∈ s.nodes) :
    s.IsJudged := by
  obtain ⟨hfault, hcomplete⟩ := h
  refine ⟨?_, ?_⟩
  · intro hexit node hnode
    have hzero := ((Report.stream_exit_eq_zero s).1 hexit).2
    obtain ⟨code, hcode⟩ := (hcomplete node hnode).exists_reports
    obtain ⟨known, hknown⟩ := Option.isSome_iff_exists.1 (Report.isSome_get?_follow hcode)
    rw [hzero node known hknown] at hknown
    exact Report.mem_of_get?_follow hknown
  · intro hall _
    refine (Report.stream_exit_eq_zero s).2 ⟨hfault, ?_⟩
    intro node code hknown
    have hcode : s.Reports node code := Report.mem_of_get?_follow hknown
    have hnode : node ∈ s.nodes := hframes _ hcode
    exact (hcomplete node hnode).reports_unique hcode (hall node hnode)

/-- A stream that ends with a fault promises nothing. -/
theorem isJudged_of_fault {s : Stream} (h : s.fault ≠ none) : s.IsJudged :=
  ⟨fun hexit => absurd ((Report.stream_exit_eq_zero s).1 hexit).1 h, fun _ hnone => absurd hnone h⟩

/-- Where the stream is closed in order without any code, the exit is 0 though no node reported it. -/
theorem not_isJudged_of_outputs {s : Stream} (hfault : s.fault = none) (hnodes : s.nodes ≠ [])
    (hout : ∀ f ∈ s.frames, f.2.isOutput) : ¬ s.IsJudged := by
  have hsilent (node : String) (code : Int) : ¬ s.Reports node code := fun hcode => by
    cases hout _ hcode
  rintro ⟨honly, -⟩
  have hexit : (Report.stream s).exit = 0 := by
    refine (Report.stream_exit_eq_zero s).2 ⟨hfault, ?_⟩
    intro node code hknown
    exact absurd (Report.mem_of_get?_follow hknown) (hsilent node code)
  obtain ⟨node, hnode⟩ := List.exists_mem_of_ne_nil _ hnodes
  exact hsilent node 0 (honly hexit node hnode)

/-! ### Steps of a followed job -/

/-- A submission drives a job out of the list whose nodes are not called yet. -/
def Preempts (id : Int) (d : Dispatch) (e : Moment × Event) : Prop := DrivesOut id d e ∧ Waits id d

theorem Sending.answers {nodes : List String} {run : Run} {s : Stream} {node : String} {t : Task} {e : Event}
    {f : Task → Task} {frames : List Frame} {files after : Files} (h : Sending nodes run s)
    (htask : task? run node = some t) (ha : Answers t files e f frames after) :
    Sending nodes (changeTask run node f) (s.sent node frames) := by
  cases ha with
  | ignored => simpa [sent_nil] using h
  | accepted hphase =>
    exact h.changed htask (.inl hphase) Task.streamed_node (by intro _ hwait; cases hwait)
      fun _ _ hout _ => by simpa [FramesFit] using hout
  | refused hphase => exact h.exited htask (.inl hphase) _
  | relayed hphase =>
    exact h.changed htask (.inr hphase) (Task.heard_node _ _) (fun _ hwait => hwait)
      fun _ _ hout hnone => framesFit_heard hout hnone _ _
  | ended hphase => exact h.exited htask (.inr hphase) _

theorem mem_frames_sent {s : Stream} {node : String} {frames : List Frame} {f : String × Frame}
    (h : f ∈ (s.sent node frames).frames) : f ∈ s.frames ∨ f.1 = node := by
  unfold Stream.sent at h
  split at h
  · exact .inl h
  · rcases List.mem_append.1 h with h | h
    · exact .inl h
    · obtain ⟨frame, -, rfl⟩ := List.mem_map.1 h
      exact .inr rfl

/-- Before the nodes are called, no code was sent. -/
theorem Sending.isOutput {nodes : List String} {run : Run} {s : Stream} (h : Sending nodes run s)
    (hleft : s.isLeft = false) (hphase : run.phase = .accepted) {f : String × Frame} (hf : f ∈ s.frames)
    (hnode : f.1 ∈ nodes) : f.2.isOutput := by
  have hname : f.1 ∈ run.tasks.map Task.node := h.names ▸ hnode
  obtain ⟨t, ht, htask⟩ := List.mem_map.1 hname
  have hnone : t.exitCode? = none := by simp [Task.exitCode?, (h.waits t ht).2 hphase]
  refine (h.frames hleft t ht).outputs hnone f.2 ?_
  rw [htask, mem_framesOf]
  exact hf

/-- What the submitter of a job has, whether the storage works or not. The job is `preempted` if it was driven out
of the list before its nodes were called. -/
structure Standing (id : Int) (nodes : List String) (preempted : Prop) (d : Dispatch) (s : Stream) : Prop where
  stream : d.stream? id = some s
  names : s.nodes = nodes
  frames : ∀ f ∈ s.frames, f.1 ∈ nodes
  run : ∀ run, d.run? id = some run →
    s.isClosed = false ∧ s.fault = none ∧ Sending nodes run s ∧ (run.phase ≠ .accepted → ¬ preempted)
  ended : d.run? id = none → s.isLeft = false → s.fault = none →
    preempted ∧ (∀ f ∈ s.frames, f.2.isOutput) ∨ ¬ preempted ∧ s.IsDelivered

namespace Standing

variable {id : Int} {nodes : List String} {preempted : Prop} {d d' : Dispatch} {s : Stream}

theorem kept (h : Standing id nodes preempted d s) (hrun : d'.run? id = d.run? id)
    (hstream : d'.stream? id = d.stream? id) : Standing id nodes preempted d' s :=
  ⟨hstream.trans h.stream, h.names, h.frames, hrun ▸ h.run, hrun ▸ h.ended⟩

/-- The run goes on. -/
theorem continued {run : Run} {s' : Stream} (h : Standing id nodes preempted d s) (hrun : d'.run? id = some run)
    (hstream : d'.stream? id = some s') (hnames : s'.nodes = s.nodes) (hfault : s'.fault = none)
    (hopen : s'.isClosed = false) (hframes : ∀ f ∈ s'.frames, f ∈ s.frames ∨ f.1 ∈ nodes)
    (hsending : Sending nodes run s') (hcalled : run.phase ≠ .accepted → ¬ preempted) :
    Standing id nodes preempted d' s' := by
  refine ⟨hstream, hnames.trans h.names, ?_, ?_, by simp [hrun]⟩
  · intro f hf
    exact (hframes f hf).elim (h.frames f) fun hnode => hnode
  · intro other hother
    rw [hrun, Option.some.injEq] at hother
    subst hother
    exact ⟨hopen, hfault, hsending, hcalled⟩

/-- The run is over. -/
theorem closed (h : Standing id nodes preempted d s) (store : Store) {fault : Option Fault}
    (hover : s.isLeft = false → fault = none →
      preempted ∧ (∀ f ∈ s.frames, f.2.isOutput) ∨ ¬ preempted ∧ (s.closed none).IsDelivered) :
    ∃ s', Standing id nodes preempted ({ d with store }.close id fault) s' := by
  refine ⟨s.closed fault, ?_, h.names, h.frames, by simp, ?_⟩
  · rw [close_stream?_self, store_stream?, h.stream, Option.map_some]
  · rintro - hleft rfl
    exact hover hleft rfl

theorem broken (h : Standing id nodes preempted d s) (store : Store) (fault : Fault) :
    ∃ s', Standing id nodes preempted ({ d with store }.close id (some fault)) s' :=
  h.closed store (by intro _ hno; cases hno)

theorem step_call (h : Standing id nodes preempted d s) (now : Time) {e : Event} {node : String}
    (he : e.call? = some (id, node)) : ∃ s', Standing id nodes preempted (step now d e) s' := by
  rcases Dispatch.step_call d now he with hsame | ⟨run, t, f, frames, files, hrun, htask, ha, hnext⟩
  · exact ⟨s, by rwa [hsame]⟩
  · obtain ⟨hopen, hfault, hsending, hcalled⟩ := h.run run hrun
    have hnode : node ∈ nodes := by
      rw [← hsending.names, ← task?_node htask]
      exact List.mem_map.2 ⟨t, mem_of_task? htask, rfl⟩
    refine ⟨s.sent node frames, h.continued hnext.run (by rw [hnext.stream, h.stream, Option.map_some]) (by simp)
      (by simpa using hfault) (by simpa using hopen) ?_ (hsending.answers htask ha) hcalled⟩
    intro frame hframe
    refine (mem_frames_sent hframe).imp_right ?_
    rintro rfl
    exact hnode

theorem step_leave (h : Standing id nodes preempted d s) (now : Time) :
    ∃ s', Standing id nodes preempted (step now d (.leave id)) s' := by
  refine ⟨{ s with isLeft := true }, ?_, h.names, h.frames, ?_, by intro _ hno; cases hno⟩
  · rw [stream?_leave, h.stream, Option.map_some]
  · intro run hrun
    obtain ⟨hopen, hfault, hsending, hcalled⟩ := h.run run hrun
    exact ⟨hopen, hfault, ⟨hsending.names, hsending.waits, by intro hno; cases hno⟩, hcalled⟩

/-- The run begins unless the job is not in the list any more. -/
theorem step_begin (h : Standing id nodes preempted d s) (now : Time)
    (hbegin : Waits id d → ∀ changed, (d.store.changeState id .created .dispatching).2 = .ok changed →
      (changed = false ↔ preempted)) :
    ∃ s', Standing id nodes preempted (step now d (.begin id)) s' := by
  cases hrun : d.run? id with
  | none => exact ⟨s, by simpa only [step, hrun] using h⟩
  | some run =>
    obtain rfl := run?_id hrun
    by_cases hphase : run.phase = .accepted
    · obtain ⟨hopen, hfault, hsending, -⟩ := h.run run hrun
      have hchanged := hbegin ⟨run, hrun, hphase⟩
      simp only [step, hrun, if_pos hphase, beginRun]
      split
      · exact h.broken _ _
      · rename_i store hchange
        have hpreempted : preempted := (hchanged false (by rw [hchange])).1 rfl
        refine h.closed store fun hleft _ => .inl ⟨hpreempted, fun f hf => ?_⟩
        exact hsending.isOutput hleft hphase hf (h.frames f hf)
      · rename_i store hchange
        have hkept : ¬ preempted := fun hno => by cases (hchanged true (by rw [hchange])).2 hno
        refine ⟨s, h.continued (setRun_run?_self ((store_run? d _ run.id).trans hrun) rfl) (by simpa using h.stream)
          rfl hfault hopen (fun f hf => .inl hf) ?_ fun _ => hkept⟩
        exact hsending.begun hphase (openSinks_orders _ _ _ _) (openSinks_phase _ _ _ _)
    · exact ⟨s, by simpa only [step, hrun, if_neg hphase] using h⟩

theorem step_launch (h : Standing id nodes preempted d s) (now : Time) :
    ∃ s', Standing id nodes preempted (step now d (.launch id)) s' := by
  cases hrun : d.run? id with
  | none => exact ⟨s, by simpa only [step, hrun] using h⟩
  | some run =>
    obtain rfl := run?_id hrun
    by_cases hphase : run.phase = .dispatching ∧ run.tasks.all Task.isIssued
    · obtain ⟨hopen, hfault, hsending, hcalled⟩ := h.run run hrun
      simp only [step, hrun, if_pos hphase, launchRun]
      split
      · exact h.broken _ _
      · exact ⟨s, h.continued (setRun_run?_self ((store_run? d _ run.id).trans hrun) rfl) (by simpa using h.stream)
          rfl hfault hopen (fun f hf => .inl hf) (hsending.launched hphase.1) fun _ => hcalled (by simp [hphase.1])⟩
    · exact ⟨s, by simpa only [step, hrun, if_neg hphase] using h⟩

theorem step_finish (h : Standing id nodes preempted d s) (now : Time) :
    ∃ s', Standing id nodes preempted (step now d (.finish id)) s' := by
  cases hrun : d.run? id with
  | none => exact ⟨s, by simpa only [step, hrun] using h⟩
  | some run =>
    obtain rfl := run?_id hrun
    by_cases hphase : run.phase = .running ∧ run.tasks.all (·.exitCode?.isSome)
    · obtain ⟨-, -, hsending, hcalled⟩ := h.run run hrun
      simp only [step, hrun, if_pos hphase, finishRun]
      split
      · exact h.broken _ _
      · refine h.closed _ fun hleft _ => .inr ⟨hcalled (by simp [hphase.1]), ?_⟩
        exact hsending.isDelivered h.names hleft (List.all_eq_true.1 hphase.2)
    · exact ⟨s, by simpa only [step, hrun, if_neg hphase] using h⟩

theorem stepAt (h : Standing id nodes preempted d s) (hknown : ∀ jobs, d.store.jobs = .ok jobs → id ≤ newestId jobs)
    (hbegin : Waits id d → ∀ changed, (d.store.changeState id .created .dispatching).2 = .ok changed →
      (changed = false ↔ preempted)) (e : Moment × Event) :
    ∃ s', Standing id nodes (preempted ∨ Preempts id d e) (d.stepAt e) s' := by
  obtain ⟨now, e⟩ := e
  by_cases he : e.job? = some id
  · have hnot : ¬ Preempts id d (now, e) := by
      rintro ⟨⟨-, _, _, _, _, _, _, _, -, rfl, -⟩, -⟩
      cases he
    rw [or_iff_left hnot]
    cases e <;> simp only [Event.job?, Option.some.injEq, reduceCtorEq] at he <;> subst he
    case begin => exact h.step_begin now.1 hbegin
    case answered node accepted => exact h.step_call now.1 rfl
    case reply node r => exact h.step_call now.1 rfl
    case ended node => exact h.step_call now.1 rfl
    case launch => exact h.step_launch now.1
    case finish => exact h.step_finish now.1
    case leave => exact h.step_leave now.1
  · obtain ⟨hrun, hstream⟩ := way_step hknown now.1 he
    refine ⟨s, Standing.kept (d := d) ⟨h.stream, h.names, h.frames, ?_, ?_⟩ hrun hstream⟩
    · intro run hsome
      obtain ⟨hopen, hfault, hsending, hcalled⟩ := h.run run hsome
      refine ⟨hopen, hfault, hsending, fun hphase => ?_⟩
      rintro (hbefore | ⟨-, other, hother, haccepted⟩)
      · exact hcalled hphase hbefore
      · rw [hsome, Option.some.injEq] at hother
        exact hphase (hother ▸ haccepted)
    · intro hnone
      have hnot : ¬ Preempts id d (now, e) := by
        rintro ⟨-, run, hsome, -⟩
        rw [hnone] at hsome
        cases hsome
      rw [or_iff_left hnot]
      exact h.ended hnone

end Standing

/-! ### Whole runs -/

section

variable {d : Dispatch} {job : Job} {events : History}

/-- Before its nodes are called, a job can only have been driven out before that. -/
theorem happens_drivesOut_iff (hjob : d.Accepted job) (hwaits : Waits job.id (d.runAt events)) :
    d.Happens events (DrivesOut job.id) ↔ d.Happens events (Preempts job.id) := by
  constructor
  · rintro ⟨s, e, hs, hout⟩
    exact ⟨s, e, hs, hout, waits_of_run hjob ((List.prefix_append s [e]).trans hs) hwaits⟩
  · rintro ⟨s, e, hs, hout, -⟩
    exact ⟨s, e, hs, hout⟩

/-- The run of a job finds nothing to begin exactly if the job was driven out before. -/
theorem changeState_iff (hjob : d.Accepted job) (hwaits : Waits job.id (d.runAt events)) {changed : Bool}
    (hchanged : ((d.runAt events).store.changeState job.id .created .dispatching).2 = .ok changed) :
    changed = false ↔ d.Happens events (Preempts job.id) := by
  rw [← happens_drivesOut_iff hjob hwaits]
  cases hread : (d.runAt events).store.jobs with
  | error fault =>
    rw [Store.changeState, Store.withJobs_of_error hread] at hchanged
    cases hchanged
  | ok jobs =>
    obtain ⟨run, hrun, hphase⟩ := hwaits
    obtain ⟨-, _, hd⟩ := delivery_of_run hjob hread
    have hlost := hd.listed (by simp [Dispatch.part, hrun])
    rw [← hlost]
    rw [Store.changeState_eq hread, Except.ok.injEq] at hchanged
    change changed = false ↔ withId job.id jobs = []
    rw [← hchanged]
    by_cases hnil : withId job.id jobs = []
    · rw [Store.updateState_other (by simp [hnil])]
      simp [hnil]
    · obtain ⟨_, _, entry, hcourse⟩ := hd.course hnil
      have hfits := hcourse.fits
      simp only [Dispatch.part, hrun, Option.map_some, hphase, fits, beq_iff_eq] at hfits
      rw [(Store.updateState_self .dispatching hcourse.listed hfits rfl).2]
      simp [hnil]

/-- Along every run, what the submitter of an accepted job has tells whether the job was driven out before its nodes
were called. -/
theorem standing_of_run (hjob : d.Accepted job) (events : History) :
    ∃ s, Standing job.id job.nodes (d.Happens events (Preempts job.id)) (d.runAt events) s := by
  induction events using List.reverseRecOn with
  | nil =>
    have hfresh := fresh_of_accepted hjob
    obtain ⟨keepsOutput, hrun, hstream⟩ := hfresh.way
    refine ⟨{ id := job.id, nodes := job.nodes }, hstream, rfl, by simp, ?_, by simp [hrun]⟩
    intro run hsome
    rw [runAt_nil, hrun, Option.some.injEq] at hsome
    subst hsome
    refine ⟨rfl, rfl, ⟨tasksOf_node job, fun t ht => by simp [tasksOf_phase job t ht], ?_⟩, by simp⟩
    intro _ t ht
    simp [FramesFit, Task.exitCode?, tasksOf_phase job t ht, Stream.framesOf]
  | append_singleton events e ih =>
    obtain ⟨s, hs⟩ := ih
    rw [runAt_concat, propext (happens_concat d events e (Preempts job.id))]
    exact hs.stepAt (fun jobs hread => (delivery_of_run hjob hread).1)
      (fun hwaits changed hchanged => changeState_iff hjob hwaits hchanged) e

/-- What the exit of a followed job is worth. Whatever is submitted, evicted, cancelled and answered, and whether the
storage works or not: once the stream is closed, the exit is 0 exactly if every node reported 0 and the stream was
closed in order, unless the job was driven out of the list before its nodes were called. In that case the exit is 0
without a report, as long as the storage works. -/
theorem judged_iff_of_accepted (hjob : d.Accepted job) (events : History) :
    ∃ s, (d.runAt events).stream? job.id = some s ∧ s.nodes = job.nodes ∧
      (s.isLeft = false → s.isClosed →
        (s.IsJudged ↔ ¬ (s.fault = none ∧ d.Happens events (Preempts job.id)))) := by
  obtain ⟨s, hs⟩ := standing_of_run hjob events
  refine ⟨s, hs.stream, hs.names, ?_⟩
  intro hleft hclosed
  have hover : (d.runAt events).run? job.id = none := by
    by_contra hsome
    obtain ⟨run, hrun⟩ := Option.ne_none_iff_exists'.1 hsome
    rw [(hs.run run hrun).1] at hclosed
    cases hclosed
  by_cases hfault : s.fault = none
  · rw [and_iff_right hfault]
    rcases hs.ended hover hleft hfault with ⟨hpreempted, hout⟩ | ⟨hkept, hdelivered⟩
    · have hnodes : s.nodes ≠ [] := hs.names ▸ (fresh_of_accepted hjob).nodes
      exact iff_of_false (not_isJudged_of_outputs hfault hnodes hout) (not_not_intro hpreempted)
    · exact iff_of_true (hdelivered.isJudged (hs.names ▸ hs.frames)) hkept
  · exact iff_of_true (isJudged_of_fault hfault) fun hno => hfault hno.1

end

/-- Another job is submitted before the run begins. -/
def preempted : History :=
  [.submit { command := "c", nodes := ["A"] } ["A"] 1 false, .begin 1].map fun e => (epoch, e)

theorem judged_of_stubborn :
    ∃ s, (single.runAt stubborn).stream? 1 = some s ∧ s.nodes = ["A"] ∧
      (s.isLeft = false → s.isClosed →
        (s.IsJudged ↔ ¬ (s.fault = none ∧ single.Happens stubborn (Preempts 1)))) :=
  judged_iff_of_accepted accepted_single stubborn

/-- The job is driven out before its node is called, and the exit is 0 though the node reported nothing. -/
theorem preempted_is_misjudged :
    single.Accepted (Job.new 1 { command := "c", nodes := ["A"] } ["A"] epoch.1) ∧
      ∃ s, (single.runAt preempted).stream? 1 = some s ∧ s.isLeft = false ∧ s.isClosed ∧ s.fault = none ∧
        (Report.stream s).exit = 0 ∧ ¬ ∀ node ∈ s.nodes, s.Reports node 0 := by
  have hstream : (single.runAt preempted).stream? 1 = some { id := 1, nodes := ["A"], isClosed := true } := by
    decide +kernel
  refine ⟨accepted_single, _, hstream, rfl, rfl, rfl, by decide +kernel, ?_⟩
  intro hall
  cases hall "A" (by simp)

end Dispatch

end Muster
