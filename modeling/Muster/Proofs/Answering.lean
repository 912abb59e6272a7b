import Muster.Proofs.Hearing
import Muster.Proofs.Sending

/-!
# Taking in what a node sends

An event of a node's call changes the task of the node, the files and what the submitter gets, in one of a few ways.
An event of another job changes neither the run of a job nor its stream.
-/

namespace Muster

namespace Reply

/-- The standard output of a reply. -/
def outOnly (r : Reply) : Reply := { stdout := r.stdout }

/-- What a reply holds besides. -/
def withoutOut (r : Reply) : Reply := { r with stdout := "" }

theorem frames_outOnly (r : Reply) : r.outOnly.frames ++ r.withoutOut.frames = r.frames := by
  by_cases hout : r.stdout = "" <;> by_cases herr : r.stderr = "" <;>
    simp [outOnly, withoutOut, frames, hout, herr]

end Reply

namespace Dispatch

open Store (newestId)

/-! ### Events of a call -/

/-- What a node is about to do next. -/
def TaskPhase.awaits : TaskPhase → Event → Bool
  | .calling, .answered .. | .streaming, .reply .. | .streaming, .ended .. => true
  | _, _ => false

namespace Task

/-- What a reply makes of the files. -/
def write (t : Task) (files : Files) (r : Reply) : Files × Option Sink :=
  match t.sink with
  | some sink => ((sink.write files r).1, some (sink.write files r).2)
  | none => (files, none)

/-- What the end of the node makes of the files. -/
def finish (t : Task) (files : Files) : Files :=
  match t.sink with
  | some sink => sink.finish files
  | none => files

end Task

/-- How an event of a node's call changes its task and the files, and which frames are sent. -/
inductive Answers (t : Task) (files : Files) : Event → (Task → Task) → List Frame → Files → Prop
  | ignored {e : Event} (hphase : t.phase.awaits e = false) : Answers t files e (fun t => t) [] files
  | accepted {id : Int} {node : String} (hphase : t.phase = .calling) :
      Answers t files (.answered id node true) Task.streamed [] files
  | refused {id : Int} {node : String} (hphase : t.phase = .calling) :
      Answers t files (.answered id node false) (Task.exited exitUnreachable) [.exit exitUnreachable]
        (t.finish files)
  | relayed {id : Int} {node : String} {r : Reply} (hphase : t.phase = .streaming) :
      Answers t files (.reply id node r) (Task.heard (t.write files r).2 r) r.frames (t.write files r).1
  | ended {id : Int} {node : String} (hphase : t.phase = .streaming) :
      Answers t files (.ended id node) (Task.exited (t.code.getD exitUnreachable))
        [.exit (t.code.getD exitUnreachable)] (t.finish files)

@[simp] theorem changeTask_self (run : Run) (node : String) : changeTask run node (fun t => t) = run := by
  simp [changeTask]

section calls

variable {d : Dispatch} {id : Int} {node : String} {run : Run} {t : Task}

/-- What an answer makes of a run, its stream and the files. -/
structure Answered (id : Int) (node : String) (run : Run) (f : Task → Task) (frames : List Frame) (files : Files)
    (d d' : Dispatch) : Prop where
  run : d'.run? id = some (changeTask run node f)
  stream : d'.stream? id = (d.stream? id).map (Stream.sent node frames)
  output : d'.store.output = files

theorem answered_self (hrun : d.run? id = some run) :
    Answered id node run (fun t => t) [] d.store.output d d := by
  refine ⟨by simpa using hrun, ?_, rfl⟩
  cases d.stream? id with
  | none => rfl
  | some s => simp [sent_nil]

theorem answered_endTask (hrun : d.run? id = some run) (htask : task? run node = some t) (code : Int) :
    Answered id node run (Task.exited code) [.exit code] (t.finish d.store.output) d (d.endTask run t code) := by
  obtain rfl := run?_id hrun
  have hpart := part_endTask [] hrun htask code
  exact ⟨congrArg Part.run hpart, congrArg Part.stream hpart, rfl⟩

theorem relay_eq (d : Dispatch) (run : Run) (t : Task) (r : Reply) :
    d.relay run t r =
      ({ d with store := { d.store with output := (t.write d.store.output r).1 } }.setRun
        (changeTask run t.node (Task.heard (t.write d.store.output r).2 r))).send run.id t.node r.frames := by
  unfold relay Task.write
  cases t.sink <;> rfl

theorem answered_relay (hrun : d.run? id = some run) (htask : task? run node = some t) (r : Reply) :
    Answered id node run (Task.heard (t.write d.store.output r).2 r) r.frames (t.write d.store.output r).1 d
      (d.relay run t r) := by
  obtain rfl := run?_id hrun
  obtain rfl := task?_node htask
  rw [relay_eq]
  refine ⟨?_, ?_, rfl⟩
  · rw [send_run?]
    exact setRun_run?_self ((store_run? d _ run.id).trans hrun) rfl
  · rw [send_stream?_self, setRun_stream?, store_stream?]

/-- What an event of a node's call does. -/
theorem answered_step (now : Time) {e : Event} (he : e.call? = some (id, node)) (hrun : d.run? id = some run)
    (htask : task? run node = some t) :
    ∃ f frames files, Answers t d.store.output e f frames files ∧
      Answered id node run f frames files d (step now d e) := by
  cases e <;> simp only [Event.call?, Option.some.injEq, Prod.mk.injEq, reduceCtorEq] at he
  case answered other name accepted =>
    obtain ⟨rfl, rfl⟩ := he
    by_cases hp : t.phase = .calling
    · cases accepted with
      | true =>
        simp only [step, hrun, htask, if_pos hp, if_true]
        refine ⟨_, _, _, .accepted hp, ?_, ?_, rfl⟩
        · exact setRun_run?_self hrun rfl
        · exact (answered_self hrun).stream
      | false =>
        simp only [step, hrun, htask, if_pos hp, Bool.false_eq_true, if_false]
        exact ⟨_, _, _, .refused hp, answered_endTask hrun htask _⟩
    · simp only [step, hrun, htask, if_neg hp]
      refine ⟨_, _, _, .ignored ?_, answered_self hrun⟩
      cases h : t.phase <;> simp_all [TaskPhase.awaits]
  case reply other name r =>
    obtain ⟨rfl, rfl⟩ := he
    by_cases hp : t.phase = .streaming
    · simp only [step, hrun, htask, if_pos hp]
      exact ⟨_, _, _, .relayed hp, answered_relay hrun htask r⟩
    · simp only [step, hrun, htask, if_neg hp]
      refine ⟨_, _, _, .ignored ?_, answered_self hrun⟩
      cases h : t.phase <;> simp_all [TaskPhase.awaits]
  case ended other name =>
    obtain ⟨rfl, rfl⟩ := he
    by_cases hp : t.phase = .streaming
    · simp only [step, hrun, htask, if_pos hp]
      exact ⟨_, _, _, .ended hp, answered_endTask hrun htask _⟩
    · simp only [step, hrun, htask, if_neg hp]
      refine ⟨_, _, _, .ignored ?_, answered_self hrun⟩
      cases h : t.phase <;> simp_all [TaskPhase.awaits]

/-! ### Replies in two parts -/

theorem Task.write_outOnly (t : Task) (files : Files) (r : Reply) :
    (t.heard (t.write files r.outOnly).2 r.outOnly).write (t.write files r.outOnly).1 r.withoutOut =
      t.write files r := by
  cases hs : t.sink with
  | none => simp [Task.write, Task.heard, hs]
  | some sink =>
    by_cases hout : r.stdout = "" <;> by_cases herr : r.stderr = "" <;>
      simp [Task.write, Task.heard, Sink.write, Reply.outOnly, Reply.withoutOut, hs, hout, herr]

theorem Task.heard_outOnly (sink sink' : Option Sink) (r : Reply) (t : Task) :
    (t.heard sink r.outOnly).heard sink' r.withoutOut = t.heard sink' r := by
  simp [Task.heard, Reply.code, Reply.outOnly, Reply.withoutOut]

theorem changeTask_changeTask (run : Run) (node : String) {f g : Task → Task} (hf : ∀ t, (f t).node = t.node) :
    changeTask (changeTask run node f) node g = changeTask run node fun t => g (f t) := by
  simp only [changeTask, List.map_map]
  congr 1
  refine List.map_congr_left fun t _ => ?_
  by_cases ht : t.node = node
  · simp [ht, hf]
  · simp [ht]

theorem setRun_setRun (d : Dispatch) {run run' : Run} (hid : run.id = run'.id) :
    (d.setRun run).setRun run' = d.setRun run' := by
  simp only [setRun, List.map_map]
  congr 1
  refine List.map_congr_left fun r _ => ?_
  by_cases hr : r.id = run'.id
  · simp [hr, hid]
  · simp [hr, hid]

theorem send_send (d : Dispatch) (id : Int) (node : String) (frames more : List Frame) :
    (d.send id node frames).send id node more = d.send id node (frames ++ more) := by
  simp only [send, changeStream, List.map_map]
  congr 1
  refine List.map_congr_left fun s _ => ?_
  by_cases hs : s.id = id
  · cases hleft : s.isLeft <;> simp [hs, hleft]
  · simp [hs]

/-- A reply can be taken in part by part, so that the submitter may leave in between. -/
theorem step_outOnly (now later : Time) (d : Dispatch) (id : Int) (node : String) (r : Reply) :
    step later (step now d (.reply id node r.outOnly)) (.reply id node r.withoutOut) = step now d (.reply id node r) := by
  cases hrun : d.run? id with
  | none => simp [step, hrun]
  | some run =>
    cases htask : task? run node with
    | none => simp [step, hrun, htask]
    | some t =>
      by_cases hphase : t.phase = .streaming
      · obtain rfl := run?_id hrun
        obtain rfl := task?_node htask
        have hfirst := answered_relay hrun htask r.outOnly
        have htask' := task?_changeTask_self htask (Task.heard_node (t.write d.store.output r.outOnly).2 r.outOnly)
        have hnext : step now d (.reply run.id t.node r.outOnly) = d.relay run t r.outOnly := by
          simp only [step, hrun, htask, if_pos hphase]
        have hlast : step now d (.reply run.id t.node r) = d.relay run t r := by
          simp only [step, hrun, htask, if_pos hphase]
        have hthen : step later (d.relay run t r.outOnly) (.reply run.id t.node r.withoutOut) =
            (d.relay run t r.outOnly).relay
              (changeTask run t.node (Task.heard (t.write d.store.output r.outOnly).2 r.outOnly))
              (t.heard (t.write d.store.output r.outOnly).2 r.outOnly) r.withoutOut := by
          simp only [step, hfirst.run, htask']
          exact if_pos hphase
        rw [hnext, hlast, hthen, relay_eq, hfirst.output, Task.write_outOnly, relay_eq d run t r,
          relay_eq d run t r.outOnly]
        -- Files, runs and streams are parts of their own, so the two changes of each can be put side by side.
        change ((({ d with store := { d.store with output := (t.write d.store.output r).1 } }.setRun
            (changeTask run t.node (Task.heard (t.write d.store.output r.outOnly).2 r.outOnly))).setRun
            (changeTask (changeTask run t.node (Task.heard (t.write d.store.output r.outOnly).2 r.outOnly)) t.node
              (Task.heard (t.write d.store.output r).2 r.withoutOut))).send run.id t.node r.outOnly.frames).send
            run.id t.node r.withoutOut.frames = _
        rw [setRun_setRun _ (changeTask_id _ _ _).symm, send_send, Reply.frames_outOnly,
          changeTask_changeTask run t.node (Task.heard_node _ _)]
        simp only [Task.heard_outOnly]
      · simp [step, hrun, htask, hphase]

/-- An event of a call does nothing where there is no such call. -/
theorem step_of_task?_eq_none (now : Time) {e : Event} (he : e.call? = some (id, node))
    (hnone : ∀ run, d.run? id = some run → task? run node = none) : step now d e = d := by
  cases hrun : d.run? id with
  | none =>
    cases e <;> simp only [Event.call?, Option.some.injEq, Prod.mk.injEq, reduceCtorEq] at he <;>
      obtain ⟨rfl, rfl⟩ := he <;> simp only [step, hrun]
  | some run =>
    have htask := hnone run hrun
    cases e <;> simp only [Event.call?, Option.some.injEq, Prod.mk.injEq, reduceCtorEq] at he <;>
      obtain ⟨rfl, rfl⟩ := he <;> simp only [step, hrun, htask]

/-- An event of a call does nothing, or changes the task of its node. -/
theorem step_call (d : Dispatch) (now : Time) {e : Event} (he : e.call? = some (id, node)) :
    step now d e = d ∨ ∃ run t f frames files, d.run? id = some run ∧ task? run node = some t ∧
      Answers t d.store.output e f frames files ∧ Answered id node run f frames files d (step now d e) := by
  cases htask : (d.run? id).bind fun run => task? run node with
  | none =>
    refine .inl (step_of_task?_eq_none now he fun run hrun => ?_)
    rw [hrun] at htask
    exact htask
  | some t =>
    obtain ⟨run, hrun, htask⟩ := Option.bind_eq_some_iff.1 htask
    obtain ⟨f, frames, files, ha, hnext⟩ := answered_step now he hrun htask
    exact .inr ⟨run, t, f, frames, files, hrun, htask, ha, hnext⟩

theorem Answers.node_eq {files after : Files} {e : Event} {f : Task → Task} {frames : List Frame}
    (h : Answers t files e f frames after) (u : Task) : (f u).node = u.node := by
  cases h <;> rfl

end calls

/-! ### Frames -/

/-- The submitter has got all that was offered of a node's frames, or had left. -/
def Stream.Offers (s : Stream) (node : String) (frames : List Frame) : Prop :=
  s.framesOf node <+: frames ∧ (s.isLeft = false → s.framesOf node = frames)

namespace Stream.Offers

variable {s : Stream} {node : String} {before : List Frame}

theorem sent (h : s.Offers node before) (frames : List Frame) : (s.sent node frames).Offers node (before ++ frames) := by
  cases hleft : s.isLeft with
  | true =>
    have hsame : s.sent node frames = s := by rw [Stream.sent, if_pos hleft]
    rw [hsame]
    exact ⟨h.1.trans (List.prefix_append _ _), by simp [hleft]⟩
  | false =>
    have hsent := framesOf_sent hleft node node frames
    rw [if_pos rfl, h.2 hleft] at hsent
    rw [Offers, hsent]
    exact ⟨List.prefix_rfl, fun _ => rfl⟩

theorem sent_of_ne (h : s.Offers node before) {other : String} (hne : node ≠ other) (frames : List Frame) :
    (s.sent other frames).Offers node before := by
  cases hleft : s.isLeft with
  | true =>
    have hsame : s.sent other frames = s := by rw [Stream.sent, if_pos hleft]
    rw [hsame]
    exact h
  | false =>
    have hsent := framesOf_sent hleft other node frames
    rw [if_neg hne] at hsent
    rw [Offers, hsent, sent_isLeft]
    exact h

theorem left (h : s.Offers node before) : ({ s with isLeft := true } : Stream).Offers node before :=
  ⟨h.1, fun hno => by cases hno⟩

theorem closed (h : s.Offers node before) (fault : Option Fault) : (s.closed fault).Offers node before := h

end Stream.Offers

/-! ### Events of other jobs -/

section others

variable {d : Dispatch} {id : Int} {jobs : List Job}

theorem way_submit (h : d.store.jobs = .ok jobs) (hknown : id ≤ newestId jobs) (now : Time) (spec : JobSpec)
    (nodes : List String) (capacity : Nat) (keepsOutput : Bool) :
    (step now d (.submit spec nodes capacity keepsOutput)).run? id = d.run? id ∧
      (step now d (.submit spec nodes capacity keepsOutput)).stream? id = d.stream? id := by
  rcases part_submit h hknown now spec nodes capacity keepsOutput with hpart | ⟨-, hpart⟩
  · exact ⟨congrArg Part.run hpart, congrArg Part.stream hpart⟩
  · exact ⟨congrArg Part.run hpart, congrArg Part.stream hpart⟩

/-- An event of another job, and one of a cancellation, leaves the run and the stream of a job, whether the storage
works or not. -/
theorem way_step (hknown : ∀ jobs, d.store.jobs = .ok jobs → id ≤ newestId jobs) (now : Time) {e : Event}
    (he : e.job? ≠ some id) : (step now d e).run? id = d.run? id ∧ (step now d e).stream? id = d.stream? id := by
  have hway {p : Part} (hpart : part id (step now d e) [] = p) (hrun : p.run = d.run? id)
      (hstream : p.stream = d.stream? id) :
      (step now d e).run? id = d.run? id ∧ (step now d e).stream? id = d.stream? id :=
    ⟨(congrArg Part.run hpart).trans hrun, (congrArg Part.stream hpart).trans hstream⟩
  cases hjob : e.job? with
  | some other =>
    have hne : other ≠ id := fun heq => he (hjob.trans (congrArg some heq))
    have hpart : part id (step now d e) (d.relist now [] e) = part id d [] := part_step_of_ne now hjob hne
    exact ⟨congrArg Part.run hpart, congrArg Part.stream hpart⟩
  | none =>
    cases e <;> simp only [Event.job?, reduceCtorEq] at hjob
    case submit spec nodes capacity keepsOutput =>
      cases hread : d.store.jobs with
      | ok jobs => exact way_submit hread (hknown jobs hread) now spec nodes capacity keepsOutput
      | error fault =>
        simp only [step, submit, Store.createJob_of_error hread, store_run?, store_stream?, and_self]
    case cancel ids =>
      simp only [step, startCancel]
      split <;> exact ⟨rfl, rfl⟩
    case cancelAnswered call other node accepted =>
      exact hway (part_cancelAnswered d [] now call other node accepted) rfl rfl
    case cancelEnded call other =>
      rcases step_cancelEnded d [] now call other with ⟨hstep, -⟩ | ⟨c, j, -, -, -, -, hstep, -⟩
      · rw [hstep]
        exact ⟨rfl, rfl⟩
      · exact hway (by rw [hstep, part_settle]) rfl rfl

theorem way_step_of_ne (h : d.store.jobs = .ok jobs) (hknown : id ≤ newestId jobs) (now : Time) {e : Event}
    (he : e.job? ≠ some id) : (step now d e).run? id = d.run? id ∧ (step now d e).stream? id = d.stream? id := by
  refine way_step ?_ now he
  rintro _ hread
  rw [h, Except.ok.injEq] at hread
  exact hread ▸ hknown

end others

end Dispatch

end Muster
