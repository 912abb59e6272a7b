import Muster.Proofs.Turns

/-!
# What the nodes of a job send

The submitter of a job gets the output of every node and behind it the code of the node. Whatever the nodes
have done so far, the run of the job can come to its end without any other job.
-/

namespace Muster

/-- A part of a node's output, and not its code. -/
def Frame.isOutput : Frame → Bool
  | out _ | err _ => true
  | exit _ => false

theorem Reply.isOutput_frames (r : Reply) : ∀ f ∈ r.frames, f.isOutput := by
  intro f hf
  rcases List.mem_append.1 hf with hf | hf
  · split at hf
    · cases hf
    · rw [List.mem_singleton.1 hf]
      rfl
  · split at hf
    · cases hf
    · rw [List.mem_singleton.1 hf]
      rfl

namespace Dispatch

/-! ### Frames -/

/-- The frames of one node. -/
def Stream.framesOf (s : Stream) (node : String) : List Frame :=
  s.frames.filterMap fun e => if e.1 = node then some e.2 else none

theorem framesOf_sent {s : Stream} (h : s.isLeft = false) (node other : String) (frames : List Frame) :
    (s.sent node frames).framesOf other =
      if other = node then s.framesOf other ++ frames else s.framesOf other := by
  have hsame : (frames.map fun f => (node, f)).filterMap (fun e => if e.1 = other then some e.2 else none) =
      if other = node then frames else [] := by
    induction frames with
    | nil => simp
    | cons f rest ih =>
      rw [List.map_cons, List.filterMap_cons, ih]
      by_cases hne : other = node
      · simp [hne]
      · simp [hne, Ne.symm hne]
  simp only [Stream.sent, h, Bool.false_eq_true, if_false, Stream.framesOf, List.filterMap_append, hsame]
  split <;> simp

@[simp] theorem sent_nodes (node : String) (frames : List Frame) (s : Stream) :
    (s.sent node frames).nodes = s.nodes := by
  unfold Stream.sent
  split <;> rfl

@[simp] theorem sent_isLeft (node : String) (frames : List Frame) (s : Stream) :
    (s.sent node frames).isLeft = s.isLeft := by
  unfold Stream.sent
  split <;> rfl

@[simp] theorem sent_isClosed (node : String) (frames : List Frame) (s : Stream) :
    (s.sent node frames).isClosed = s.isClosed := by
  unfold Stream.sent
  split <;> rfl

@[simp] theorem sent_fault (node : String) (frames : List Frame) (s : Stream) :
    (s.sent node frames).fault = s.fault := by
  unfold Stream.sent
  split <;> rfl

/-- The frames of a node that has ended: its output, and behind it one code. -/
def IsComplete (frames : List Frame) : Prop :=
  ∃ output code, frames = output ++ [.exit code] ∧ ∀ f ∈ output, f.isOutput

theorem not_isComplete {frames : List Frame} (h : ∀ f ∈ frames, f.isOutput) : ¬ IsComplete frames := by
  rintro ⟨output, code, rfl, -⟩
  have hexit := h (.exit code) (by simp)
  cases hexit

/-- The frames of a node so far, where `code` is its code if it has one. -/
def FramesFit (frames : List Frame) (code : Option Int) : Prop :=
  match code with
  | none => ∀ f ∈ frames, f.isOutput
  | some _ => IsComplete frames

/-- What the submitter has goes with what the nodes of a run have done. -/
structure Sending (nodes : List String) (run : Run) (s : Stream) : Prop where
  names : run.tasks.map Task.node = nodes
  waits : ∀ t ∈ run.tasks, t.phase = .waiting ↔ run.phase = .accepted
  frames : s.isLeft = false → ∀ t ∈ run.tasks, FramesFit (s.framesOf t.node) t.exitCode?

/-- A stream that brings all that is due: the frames of every node, and no fault. -/
def Stream.IsDelivered (s : Stream) : Prop := s.fault = none ∧ ∀ node ∈ s.nodes, IsComplete (s.framesOf node)

/-! ### What a move sends -/

theorem sent_nil (node : String) (s : Stream) : s.sent node [] = s := by
  simp [Stream.sent]

theorem FramesFit.outputs {frames : List Frame} {code : Option Int} (h : FramesFit frames code)
    (hnone : code = none) : ∀ f ∈ frames, f.isOutput := by
  rw [hnone] at h
  exact h

/-- Where there is only output, no code is known. -/
theorem FramesFit.eq_none {frames : List Frame} {code : Option Int} (h : FramesFit frames code)
    (hout : ∀ f ∈ frames, f.isOutput) : code = none := by
  cases code with
  | none => rfl
  | some code => exact absurd h (not_isComplete hout)

theorem framesFit_exited {frames : List Frame} (h : ∀ f ∈ frames, f.isOutput) (t : Task) (code : Int) :
    FramesFit (frames ++ [.exit code]) (t.exited code).exitCode? :=
  ⟨frames, code, rfl, h⟩

theorem framesFit_heard {frames : List Frame} (h : ∀ f ∈ frames, f.isOutput) {t : Task}
    (hnone : t.exitCode? = none) (sink : Option Sink) (r : Reply) :
    FramesFit (frames ++ r.frames) (t.heard sink r).exitCode? := by
  rw [Task.heard_exitCode?, hnone]
  intro f hf
  rcases List.mem_append.1 hf with hf | hf
  · exact h f hf
  · exact r.isOutput_frames f hf

namespace Sending

variable {nodes : List String} {run : Run} {s : Stream}

/-- One node that has not ended changes, and some frames of it are sent. -/
theorem changed {node : String} {t : Task} {f : Task → Task} {frames : List Frame}
    (h : Sending nodes run s) (htask : task? run node = some t)
    (hphase : t.phase = .calling ∨ t.phase = .streaming) (hnode : ∀ u, (f u).node = u.node)
    (hbusy : ∀ u, (f u).phase = .waiting → u.phase = .waiting)
    (hself : ∀ u before, (∀ f ∈ before, Frame.isOutput f) → u.exitCode? = none →
      FramesFit (before ++ frames) (f u).exitCode?) :
    Sending nodes (changeTask run node f) (s.sent node frames) := by
  refine ⟨?_, ?_, ?_⟩
  · rw [← h.names, changeTask, List.map_map]
    refine List.map_congr_left fun u _ => ?_
    simp only [Function.comp_apply]
    split
    · exact hnode u
    · rfl
  · have hbegun : run.phase ≠ .accepted := by
      rw [ne_eq, ← h.waits t (mem_of_task? htask)]
      rcases hphase with hp | hp <;> simp [hp]
    intro u hu
    obtain ⟨v, hv, rfl⟩ := List.mem_map.1 hu
    refine iff_of_false ?_ hbegun
    have hwait := (h.waits v hv).not.2 hbegun
    split
    · exact fun hw => hwait (hbusy v hw)
    · exact hwait
  · intro hleft u hu
    rw [sent_isLeft] at hleft
    have hfits := h.frames hleft t (mem_of_task? htask)
    rw [task?_node htask] at hfits
    have hout := hfits.outputs (by rcases hphase with hp | hp <;> simp [Task.exitCode?, hp])
    obtain ⟨v, hv, rfl⟩ := List.mem_map.1 hu
    split
    · rename_i heq
      have hnone := h.frames hleft v hv
      rw [heq] at hnone
      rw [hnode, framesOf_sent hleft, if_pos heq, heq]
      exact hself v _ hout (hnone.eq_none hout)
    · rename_i hne
      rw [framesOf_sent hleft, if_neg hne]
      exact h.frames hleft v hv

theorem begun {tasks : List Task} (h : Sending nodes run s) (hphase : run.phase = .accepted)
    (horders : tasks.map Task.order = run.tasks.map Task.order)
    (hcalling : ∀ t ∈ tasks, t.phase = .calling) :
    Sending nodes { run with tasks, phase := .dispatching } s := by
  have hnames : tasks.map Task.node = run.tasks.map Task.node := by
    have hmap := congrArg (List.map Order.node) horders
    rw [List.map_map, List.map_map] at hmap
    exact hmap
  refine ⟨hnames.trans h.names, fun t ht => by simp [hcalling t ht], ?_⟩
  intro hleft t ht
  have hname : t.node ∈ run.tasks.map Task.node := hnames ▸ List.mem_map.2 ⟨t, ht, rfl⟩
  obtain ⟨u, hu, hnode⟩ := List.mem_map.1 hname
  have hfits := h.frames hleft u hu
  have hnone : u.exitCode? = none := by simp [Task.exitCode?, (h.waits u hu).2 hphase]
  have hnone' : t.exitCode? = none := by simp [Task.exitCode?, hcalling t ht]
  rw [hnode, hnone, ← hnone'] at hfits
  exact hfits

theorem launched (h : Sending nodes run s) (hphase : run.phase = .dispatching) :
    Sending nodes { run with phase := .running } s := by
  have hwaits : ∀ t ∈ run.tasks, t.phase ≠ .waiting := by
    intro t ht
    rw [ne_eq, h.waits t ht, hphase]
    simp
  exact ⟨h.names, fun t ht => by simp [hwaits t ht], h.frames⟩

/-- What is due is there once all nodes have ended. -/
theorem isDelivered (h : Sending nodes run s) (hnames : s.nodes = nodes) (hleft : s.isLeft = false)
    (hended : ∀ t ∈ run.tasks, t.exitCode?.isSome) : (s.closed none).IsDelivered := by
  refine ⟨rfl, ?_⟩
  intro node hnode
  change node ∈ s.nodes at hnode
  rw [hnames, ← h.names] at hnode
  obtain ⟨t, ht, rfl⟩ := List.mem_map.1 hnode
  obtain ⟨code, hcode⟩ := Option.isSome_iff_exists.1 (hended t ht)
  have hfits := h.frames hleft t ht
  rw [hcode] at hfits
  exact hfits

/-- Nothing of what is due is there before the nodes are called. -/
theorem not_isDelivered (h : Sending nodes run s) (hnames : s.nodes = nodes) (hne : nodes ≠ [])
    (hleft : s.isLeft = false) (hphase : run.phase = .accepted) (fault : Option Fault) :
    ¬ (s.closed fault).IsDelivered := by
  rintro ⟨-, hall⟩
  obtain ⟨node, hnode⟩ := List.exists_mem_of_ne_nil _ hne
  have hmem : node ∈ run.tasks.map Task.node := h.names ▸ hnode
  obtain ⟨t, ht, rfl⟩ := List.mem_map.1 hmem
  have hfits := h.frames hleft t ht
  have hnone : t.exitCode? = none := by simp [Task.exitCode?, (h.waits t ht).2 hphase]
  exact not_isComplete (hfits.outputs hnone) (hall t.node (hnames ▸ hnode))

/-- All calls of one node have ended, or none has. -/
theorem eq_none_of_node {t u : Task} (h : Sending nodes run s) (hleft : s.isLeft = false)
    (ht : t ∈ run.tasks) (hu : u ∈ run.tasks) (hnode : u.node = t.node) (hnone : t.exitCode? = none) :
    u.exitCode? = none := by
  have hout := (h.frames hleft t ht).outputs hnone
  have hfits := h.frames hleft u hu
  rw [hnode] at hfits
  exact hfits.eq_none hout

end Sending

/-! ### The end of a run -/

/-- The job to whose run an event belongs. -/
def Event.run? : Event → Option Int
  | .begin id | .answered id .. | .reply id .. | .ended id _ | .launch id | .finish id => some id
  | .submit .. | .leave _ | .cancel _ | .cancelAnswered .. | .cancelEnded .. => none

section

variable {nodes : List String} {id : Int}

theorem Sending.exited {run : Run} {s : Stream} {node : String} {t : Task} (h : Sending nodes run s)
    (htask : task? run node = some t) (hphase : t.phase = .calling ∨ t.phase = .streaming) (code : Int) :
    Sending nodes (changeTask run node (Task.exited code)) (s.sent node [.exit code]) :=
  h.changed htask hphase (Task.exited_node code) (by intro _ hwait; cases hwait)
    fun u _ hout _ => framesFit_exited hout u code

/-- The call of a node that has not ended can end next. -/
theorem exists_exited {d : Dispatch} {run : Run} {s : Stream} {t : Task} (now : Moment)
    (hrun : d.run? id = some run) (hstream : d.stream? id = some s)
    (htask : task? run t.node = some t) (hphase : t.phase = .calling ∨ t.phase = .streaming) :
    ∃ e code, Event.run? e = some id ∧
      (d.stepAt (now, e)).run? id = some (changeTask run t.node (Task.exited code)) ∧
      (d.stepAt (now, e)).stream? id = some (s.sent t.node [.exit code]) := by
  obtain rfl := run?_id hrun
  have hpart (code : Int) := part_endTask [] hrun htask code
  have hends {e : Event} {code : Int} (hstep : d.stepAt (now, e) = d.endTask run t code) :
      (d.stepAt (now, e)).run? run.id = some (changeTask run t.node (Task.exited code)) ∧
        (d.stepAt (now, e)).stream? run.id = some (s.sent t.node [.exit code]) := by
    rw [hstep]
    have hsent := congrArg Part.stream (hpart code)
    rw [hstream] at hsent
    exact ⟨congrArg Part.run (hpart code), hsent⟩
  rcases hphase with hp | hp
  · refine ⟨.answered run.id t.node false, exitUnreachable, rfl, hends ?_⟩
    simp [stepAt, step, hrun, htask, hp]
  · refine ⟨.ended run.id t.node, t.code.getD exitUnreachable, rfl, hends ?_⟩
    simp [stepAt, step, hrun, htask, hp]

/-- The calls of a run that has begun can all end. -/
theorem exists_all_exited (now : Moment) (l : List String) {d : Dispatch} {run : Run} {s : Stream}
    (hrun : d.run? id = some run) (hstream : d.stream? id = some s) (hsending : Sending nodes run s)
    (hleft : s.isLeft = false) (hbegun : run.phase ≠ .accepted)
    (hl : ∀ t ∈ run.tasks, t.exitCode? = none → t.node ∈ l) :
    ∃ (events : History) (last : Run), (∀ e ∈ events, e.2.run? = some id) ∧
      (d.runAt events).run? id = some last ∧ last.phase = run.phase ∧
      ∀ t ∈ last.tasks, t.exitCode?.isSome := by
  induction l generalizing d run s with
  | nil =>
    refine ⟨[], run, by simp, hrun, rfl, ?_⟩
    intro t ht
    by_contra hnone
    cases hl t ht (by simpa using hnone)
  | cons node rest ih =>
    by_cases hopen : ∃ t ∈ run.tasks, t.node = node ∧ t.exitCode? = none
    · obtain ⟨u, hu, rfl, hnone⟩ := hopen
      have hsome : (task? run u.node).isSome := List.find?_isSome.2 ⟨u, hu, by simp⟩
      obtain ⟨t, htask⟩ := Option.isSome_iff_exists.1 hsome
      have hname : t.node = u.node := task?_node htask
      rw [← hname] at htask
      have hnone' := hsending.eq_none_of_node hleft hu (mem_of_task? htask) hname hnone
      have hphase : t.phase = .calling ∨ t.phase = .streaming := by
        have hwait := (hsending.waits t (mem_of_task? htask)).not.2 hbegun
        unfold Task.exitCode? at hnone'
        cases hp : t.phase <;> simp_all
      obtain ⟨e, code, he, hrun', hstream'⟩ := exists_exited now hrun hstream htask hphase
      have hrest : ∀ v ∈ (changeTask run t.node (Task.exited code)).tasks,
          v.exitCode? = none → v.node ∈ rest := by
        intro v hv hvnone
        obtain ⟨w, hw, rfl⟩ := List.mem_map.1 hv
        split at hvnone
        · cases hvnone
        · rename_i hne
          rw [if_neg hne]
          rcases List.mem_cons.1 (hl w hw hvnone) with heq | hmem
          · exact absurd (heq.trans hname.symm) hne
          · exact hmem
      obtain ⟨events, last, hjob, hover, hsame, hended⟩ :=
        ih hrun' hstream' (hsending.exited htask hphase code) (by simpa using hleft) hbegun hrest
      refine ⟨(now, e) :: events, last, ?_, hover, hsame, hended⟩
      intro e' he'
      rcases List.mem_cons.1 he' with rfl | he'
      · exact he
      · exact hjob e' he'
    · refine ih hrun hstream hsending hleft hbegun ?_
      intro t ht hnone
      rcases List.mem_cons.1 (hl t ht hnone) with heq | hmem
      · exact absurd ⟨t, ht, heq, hnone⟩ hopen
      · exact hmem

theorem run?_begin (now : Moment) {d : Dispatch} {run : Run} {s : Stream} (hrun : d.run? id = some run)
    (hstream : d.stream? id = some s) (hsending : Sending nodes run s) (hphase : run.phase = .accepted) :
    (d.stepAt (now, .begin id)).run? id = none ∨
      ∃ begun, (d.stepAt (now, .begin id)).run? id = some begun ∧ begun.phase = .dispatching ∧
        (d.stepAt (now, .begin id)).stream? id = some s ∧ Sending nodes begun s := by
  obtain rfl := run?_id hrun
  simp only [stepAt, step, hrun, if_pos hphase, beginRun]
  split
  · exact .inl (by simp)
  · exact .inl (by simp)
  · refine .inr ⟨_, setRun_run?_self ((store_run? d _ run.id).trans hrun) rfl, rfl, by simpa using hstream, ?_⟩
    exact hsending.begun hphase (openSinks_orders _ _ _ _) (openSinks_phase _ _ _ _)

theorem run?_launch (now : Moment) {d : Dispatch} {run : Run} (hrun : d.run? id = some run)
    (hphase : run.phase = .dispatching) (hended : ∀ t ∈ run.tasks, t.exitCode?.isSome) :
    (d.stepAt (now, .launch id)).run? id = none ∨
      (d.stepAt (now, .launch id)).run? id = some { run with phase := .running } := by
  obtain rfl := run?_id hrun
  have hissued : run.tasks.all Task.isIssued := by
    rw [List.all_eq_true]
    intro t ht
    have hsome := hended t ht
    unfold Task.exitCode? at hsome
    unfold Task.isIssued
    cases hp : t.phase <;> simp_all
  simp only [stepAt, step, hrun, if_pos (And.intro hphase hissued), launchRun]
  split
  · exact .inl (by simp)
  · exact .inr (setRun_run?_self ((store_run? d _ run.id).trans hrun) rfl)

theorem run?_finish (now : Moment) {d : Dispatch} {run : Run} (hrun : d.run? id = some run)
    (hphase : run.phase = .running) (hended : ∀ t ∈ run.tasks, t.exitCode?.isSome) :
    (d.stepAt (now, .finish id)).run? id = none := by
  obtain rfl := run?_id hrun
  have hall : run.tasks.all (·.exitCode?.isSome) := List.all_eq_true.2 hended
  simp only [stepAt, step, hrun, if_pos (And.intro hphase hall), finishRun]
  split <;> simp

theorem exists_over_of_ended (now : Moment) {d : Dispatch} {run : Run} (hrun : d.run? id = some run)
    (hbegun : run.phase ≠ .accepted) (hended : ∀ t ∈ run.tasks, t.exitCode?.isSome) :
    ∃ events : History, (∀ e ∈ events, e.2.run? = some id) ∧ (d.runAt events).run? id = none := by
  cases hphase : run.phase with
  | accepted => exact absurd hphase hbegun
  | dispatching =>
    rcases run?_launch now hrun hphase hended with hnone | hrunning
    · exact ⟨[(now, .launch id)], by simp [Event.run?], hnone⟩
    · exact ⟨[(now, .launch id), (now, .finish id)], by simp [Event.run?],
        run?_finish now hrunning rfl hended⟩
  | running => exact ⟨[(now, .finish id)], by simp [Event.run?], run?_finish now hrun hphase hended⟩

theorem exists_over_of_begun (now : Moment) {d : Dispatch} {run : Run} {s : Stream}
    (hrun : d.run? id = some run) (hstream : d.stream? id = some s) (hsending : Sending nodes run s)
    (hleft : s.isLeft = false) (hbegun : run.phase ≠ .accepted) :
    ∃ events : History, (∀ e ∈ events, e.2.run? = some id) ∧ (d.runAt events).run? id = none := by
  obtain ⟨calls, last, hcalls, hover, hphase, hended⟩ := exists_all_exited now (run.tasks.map Task.node)
    hrun hstream hsending hleft hbegun fun t ht _ => List.mem_map.2 ⟨t, ht, rfl⟩
  obtain ⟨rest, hrest, hnone⟩ := exists_over_of_ended now hover (hphase ▸ hbegun) hended
  refine ⟨calls ++ rest, ?_, by rw [runAt_append]; exact hnone⟩
  intro e he
  exact (List.mem_append.1 he).elim (hcalls e) (hrest e)

/-- A run never gets stuck: what its own nodes and steps do can bring it to its end. -/
theorem exists_over (now : Moment) {d : Dispatch} {run : Run} {s : Stream}
    (hrun : d.run? id = some run) (hstream : d.stream? id = some s) (hsending : Sending nodes run s)
    (hleft : s.isLeft = false) :
    ∃ events : History, (∀ e ∈ events, e.2.run? = some id) ∧ (d.runAt events).run? id = none := by
  by_cases hphase : run.phase = .accepted
  · rcases run?_begin now hrun hstream hsending hphase with hnone | ⟨begun, hrun', hphase', hstream', hnext⟩
    · exact ⟨[(now, .begin id)], by simp [Event.run?], hnone⟩
    · obtain ⟨rest, hrest, hnone⟩ := exists_over_of_begun now hrun' hstream' hnext hleft (by simp [hphase'])
      exact ⟨(now, .begin id) :: rest, by simpa [Event.run?] using hrest, hnone⟩
  · exact exists_over_of_begun now hrun hstream hsending hleft hphase

end

end Dispatch

end Muster
