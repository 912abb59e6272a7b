import Muster.Proofs.Answering
import Muster.Proofs.Outcome

/-!
# A node and what was heard of it

Until the calls of a job are made, nothing is known of its nodes. From then on, the task of a node and the frames of
it that were offered go with what was heard of it, whatever happens, so a node ends with the code of its answer.
-/

namespace Muster

namespace Dispatch

open Store (newestId)

/-! ### Before the calls -/

/-- The calls of a job are not made yet, or never will be. -/
structure Uncalled (job : Job) (d : Dispatch) : Prop where
  run : ∀ run, d.run? job.id = some run → run.phase = .accepted ∧ run.tasks = tasksOf job
  stream : ∃ s, d.stream? job.id = some s ∧ s.frames = []

/-! ### After the calls -/

/-- The files of a node as they are written, until all is heard. -/
def Hearing.sink (files : Option (Path × Path)) (h : Hearing) : Option Sink :=
  match h with
  | whole _ => none
  | h => files.map fun (out, err) => { out, err, errWritten := h.hasErrors }

/-- How far a called node is where so much was heard of it. -/
def Hearing.Tells (h : Hearing) (t : Task) : Prop :=
  match h with
  | nothing => t.phase = .calling ∧ t.code = none
  | part replies => t.phase = .streaming ∧ t.code = lastCode replies
  | whole answer => t.phase = .ended answer.exitCode

theorem Hearing.Tells.of_calling {h : Hearing} {t : Task} (htells : h.Tells t) (hphase : t.phase = .calling) :
    h = nothing ∧ t.code = none := by
  cases h with
  | nothing => exact ⟨rfl, htells.2⟩
  | part => simp [htells.1] at hphase
  | whole =>
    change t.phase = _ at htells
    simp [htells] at hphase

theorem Hearing.Tells.of_streaming {h : Hearing} {t : Task} (htells : h.Tells t) (hphase : t.phase = .streaming) :
    ∃ replies, h = part replies ∧ t.code = lastCode replies := by
  cases h with
  | nothing => simp [htells.1] at hphase
  | part replies => exact ⟨replies, rfl, htells.2⟩
  | whole =>
    change t.phase = _ at htells
    simp [htells] at hphase

/-- An event that a node is not about to send tells nothing. -/
theorem Hearing.Tells.hear_eq {h : Hearing} {t : Task} (htells : h.Tells t) {e : Event}
    (hphase : t.phase.awaits e = false) : h.hear e = h := by
  cases h with
  | nothing | part =>
    rw [htells.1] at hphase
    cases e <;> first | rfl | cases hphase
  | whole answer => exact hear_whole answer e

/-- What the task of a called node says, where so much was heard of it and its files are these. -/
structure Hearing.Fits (files : Option (Path × Path)) (h : Hearing) (t : Task) : Prop where
  tells : h.Tells t
  sink : t.sink = h.sink files

theorem Hearing.sink_hear_reply (files : Option (Path × Path)) (replies : List Reply) (r : Reply) {t : Task}
    (hsink : t.sink = (part replies).sink files) (output : Files) :
    (t.write output r).2 = (part (replies ++ [r])).sink files := by
  cases files with
  | none =>
    unfold Task.write
    rw [hsink]
    rfl
  | some p =>
    unfold Task.write
    rw [hsink]
    by_cases herr : r.stderr = ""
    · simp [Hearing.sink, Sink.write, herr, hasErrors, Hearing.replies]
    · simp [Hearing.sink, Sink.write, herr, hasErrors, Hearing.replies]

/-- What is heard goes with what an event makes of the task, and what is sent with what is offered. -/
theorem Hearing.Fits.answers {files : Option (Path × Path)} {h : Hearing} {t : Task} {output after : Files}
    {e : Event} {f : Task → Task} {frames : List Frame} (hfits : h.Fits files t)
    (ha : Answers t output e f frames after) :
    (h.hear e).Fits files (f t) ∧ (h.hear e).frames = h.frames ++ frames := by
  cases ha with
  | ignored hphase =>
    rw [hfits.tells.hear_eq hphase, List.append_nil]
    exact ⟨hfits, rfl⟩
  | accepted hphase =>
    obtain ⟨rfl, hcode⟩ := hfits.tells.of_calling hphase
    exact ⟨⟨⟨rfl, hcode⟩, hfits.sink⟩, rfl⟩
  | refused hphase =>
    obtain ⟨rfl, -⟩ := hfits.tells.of_calling hphase
    exact ⟨⟨rfl, rfl⟩, rfl⟩
  | @relayed _ _ r hphase =>
    obtain ⟨replies, rfl, hcode⟩ := hfits.tells.of_streaming hphase
    refine ⟨⟨⟨hphase, ?_⟩, sink_hear_reply files replies r hfits.sink output⟩, ?_⟩
    · change r.code t.code = lastCode (replies ++ [r])
      rw [lastCode_concat, hcode]
    · simp [hear, Hearing.frames, Hearing.replies]
  | ended hphase =>
    obtain ⟨replies, rfl, hcode⟩ := hfits.tells.of_streaming hphase
    have hlast : (Answer.stream replies).exitCode = t.code.getD exitUnreachable := by
      rw [hcode]
      rfl
    refine ⟨⟨congrArg TaskPhase.ended hlast.symm, rfl⟩, ?_⟩
    change replies.flatMap Reply.frames ++ [.exit (Answer.stream replies).exitCode] = _
    rw [hlast]
    rfl

/-- The task of a called node and the frames of it that were offered go with what was heard. -/
structure Follows (id : Int) (node : String) (files : Option (Path × Path)) (h : Hearing) (d : Dispatch) :
    Prop where
  run : ∀ run, d.run? id = some run → run.phase ≠ .accepted ∧ ∃ t, task? run node = some t ∧ h.Fits files t
  ended : d.run? id = none → ∃ answer, h = .whole answer
  stream : ∃ s, d.stream? id = some s ∧ s.Offers node h.frames

section steps

variable {job : Job} {id : Int} {node : String} {files : Option (Path × Path)} {h : Hearing} {d d' : Dispatch}
  {jobs : List Job}

theorem Uncalled.hasCalled (hd : Uncalled job d) : d.hasCalled job.id = false := by
  unfold Dispatch.hasCalled
  cases hrun : d.run? job.id with
  | none => rfl
  | some run => simp [(hd.run run hrun).1]

/-- Nothing is known of a node that is not called. -/
theorem Uncalled.fresh (hd : Uncalled job d) {run : Run} (hrun : d.run? job.id = some run) {t : Task}
    (htask : task? run node = some t) : t.phase = .waiting ∧ t.code = none ∧ t.sink = none := by
  have hmem := mem_of_task? htask
  rw [(hd.run run hrun).2] at hmem
  obtain ⟨o, -, rfl⟩ := List.mem_map.1 hmem
  exact ⟨rfl, rfl, rfl⟩

theorem Uncalled.kept (hd : Uncalled job d) (hrun : d'.run? job.id = d.run? job.id)
    (hstream : d'.stream? job.id = d.stream? job.id) : Uncalled job d' :=
  ⟨hrun ▸ hd.run, hstream ▸ hd.stream⟩

theorem Follows.kept (hd : Follows id node files h d) (hrun : d'.run? id = d.run? id)
    (hstream : d'.stream? id = d.stream? id) : Follows id node files h d' :=
  ⟨hrun ▸ hd.run, hrun ▸ hd.ended, hstream ▸ hd.stream⟩

theorem Follows.of_run {run : Run} (hrun : d.run? id = some run) (hphase : run.phase ≠ .accepted) {t : Task}
    (htask : task? run node = some t) (hfits : h.Fits files t) {s : Stream} (hstream : d.stream? id = some s)
    (hoffers : s.Offers node h.frames) : Follows id node files h d := by
  refine ⟨?_, ?_, s, hstream, hoffers⟩
  · intro other hother
    rw [hrun, Option.some.injEq] at hother
    subst hother
    exact ⟨hphase, t, htask, hfits⟩
  · intro hnone
    rw [hrun] at hnone
    cases hnone

theorem Follows.fits (hd : Follows id node files h d) {run : Run} (hrun : d.run? id = some run) {t : Task}
    (htask : task? run node = some t) : h.Fits files t := by
  obtain ⟨-, u, hu, hfits⟩ := hd.run run hrun
  rw [htask, Option.some.injEq] at hu
  exact hu ▸ hfits

theorem stream?_leave (now : Time) (d : Dispatch) (id : Int) :
    (step now d (.leave id)).stream? id = (d.stream? id).map fun s => { s with isLeft := true } :=
  changeStream_stream?_self id (f := fun s => { s with isLeft := true }) fun _ => rfl

/-- A run as its calls are made, each with its files. -/
def Run.begun (run : Run) (files : Files) : Run :=
  { run with tasks := (openSinks run.id run.keepsOutput files run.tasks).2, phase := .dispatching }

/-- The beginning of a run makes its calls, or ends it where the job was cancelled before. -/
theorem begin_step (hread : d.store.jobs = .ok jobs) (now : Time) {run : Run} (hrun : d.run? id = some run)
    (hphase : run.phase = .accepted) :
    (step now d (.begin id)).run? id = none ∧
        (step now d (.begin id)).stream? id = (d.stream? id).map (Stream.closed none) ∧
        (step now d (.begin id)).store.output = d.store.output ∨
      (step now d (.begin id)).run? id = some (run.begun d.store.output) ∧
        (step now d (.begin id)).stream? id = d.stream? id ∧
        (step now d (.begin id)).store.output =
          (openSinks run.id run.keepsOutput d.store.output run.tasks).1 := by
  obtain rfl := run?_id hrun
  simp only [step, hrun, if_pos hphase, beginRun, Store.changeState_eq hread]
  cases (Store.updateState run.id .created .dispatching jobs).2 with
  | false => exact .inl ⟨by simp, by simp, rfl⟩
  | true => exact .inr ⟨setRun_run?_self ((store_run? d _ run.id).trans hrun) rfl, by simp, rfl⟩

/-- An event of a run before its calls does nothing, unless it begins the run. -/
theorem Uncalled.step_eq (hd : Uncalled job d) (now : Time) {e : Event} (he : e.run? = some job.id)
    (hbegin : e ≠ .begin job.id) : step now d e = d := by
  cases hrun : d.run? job.id with
  | none =>
    cases e <;> simp only [Event.run?, Option.some.injEq, reduceCtorEq] at he <;> subst he
    case begin => exact absurd rfl hbegin
    all_goals simp only [step, hrun]
  | some run =>
    have hphase := (hd.run run hrun).1
    cases e <;> simp only [Event.run?, Option.some.injEq, reduceCtorEq] at he <;> subst he
    case begin => exact absurd rfl hbegin
    case launch => simp only [step, hrun, hphase, reduceCtorEq, false_and, if_false]
    case finish => simp only [step, hrun, hphase, reduceCtorEq, false_and, if_false]
    all_goals
      simp only [step, hrun]
      split
      · rename_i t ht
        simp only [(hd.fresh hrun ht).1, reduceCtorEq, if_false]
      · rfl

/-- Before the calls are made, the beginning of the run makes them, or else there are still none. -/
theorem Uncalled.stepAt (hd : Uncalled job d) (hread : d.store.jobs = .ok jobs) (hknown : job.id ≤ newestId jobs)
    (e : Moment × Event) : Uncalled job (d.stepAt e) ∨
      ∃ run, e.2 = .begin job.id ∧ d.run? job.id = some run ∧
        (d.stepAt e).run? job.id = some (run.begun d.store.output) ∧
        (d.stepAt e).stream? job.id = d.stream? job.id ∧
        (d.stepAt e).store.output = (openSinks run.id run.keepsOutput d.store.output run.tasks).1 := by
  obtain ⟨now, e⟩ := e
  obtain ⟨s, hstream, hframes⟩ := hd.stream
  by_cases he : e.run? = some job.id
  · by_cases hbegin : e = .begin job.id
    · subst hbegin
      cases hrun : d.run? job.id with
      | none =>
        left
        simp only [Dispatch.stepAt, step, hrun]
        exact hd
      | some run =>
        rcases begin_step hread now.1 hrun (hd.run run hrun).1 with ⟨hnone, hclosed, -⟩ | hbegun
        · refine .inl ⟨?_, s.closed none, ?_, hframes⟩
          · intro run hsome
            rw [Dispatch.stepAt, hnone] at hsome
            cases hsome
          · rw [Dispatch.stepAt, hclosed, hstream]
            rfl
        · exact .inr ⟨run, rfl, rfl, hbegun⟩
    · rw [Dispatch.stepAt, hd.step_eq now.1 he hbegin]
      exact .inl hd
  · by_cases hleave : e = .leave job.id
    · subst hleave
      refine .inl ⟨hd.run, { s with isLeft := true }, ?_, hframes⟩
      rw [Dispatch.stepAt, stream?_leave, hstream]
      rfl
    · have hother : e.job? ≠ some job.id := by
        cases e <;> simp_all [Event.job?, Event.run?]
      obtain ⟨hrun, hsame⟩ := way_step_of_ne hread hknown now.1 hother
      exact .inl (hd.kept hrun hsame)

/-! ### Steps after the calls -/

/-- A file for errors is made without anything in it. -/
theorem start_errWritten {files : Files} {k : Sink} (h : (Sink.start files id node).2 = some k) :
    k.errWritten = false := by
  unfold Sink.start at h
  simp only at h
  split at h
  · cases h
    rfl
  · cases h

theorem find?_openSinks (id : Int) (keepsOutput : Bool) (files : Files) {tasks : List Task} {t : Task}
    (h : tasks.find? (fun t => t.node == node) = some t) :
    ∃ sink, (∀ k, sink = some k → k.errWritten = false) ∧
      (openSinks id keepsOutput files tasks).2.find? (fun t => t.node == node) =
        some { t with phase := .calling, sink } := by
  induction tasks generalizing files with
  | nil => cases h
  | cons first rest ih =>
    simp only [openSinks, List.find?_cons] at h ⊢
    by_cases hnode : first.node == node
    · simp only [hnode, Option.some.injEq] at h
      subst h
      have hsame : ∀ sink, ({ first with phase := .calling, sink } : Task).node == node := fun _ => hnode
      simp only [hsame]
      refine ⟨_, ?_, rfl⟩
      intro k hk
      split at hk
      · exact start_errWritten hk
      · cases hk
    · simp only [hnode] at h
      have hother : ∀ sink, (({ first with phase := .calling, sink } : Task).node == node) = false :=
        fun _ => by simpa [Task.node] using hnode
      simp only [hother]
      exact ih _ h

/-- Nothing is heard of a node yet when its call is made. -/
theorem Follows.begun (hd : Uncalled job d) (hnode : node ∈ job.nodes) {run : Run}
    (hrun : d.run? job.id = some run) (output : Files)
    (hrun' : d'.run? job.id = some (run.begun output)) (hstream : d'.stream? job.id = d.stream? job.id) :
    ∃ files, Follows job.id node files .nothing d' := by
  obtain ⟨s, hs, hframes⟩ := hd.stream
  have hfound : (task? run node).isSome := by
    rw [← tasksOf_node job, ← (hd.run run hrun).2] at hnode
    obtain ⟨t, ht, heq⟩ := List.mem_map.1 hnode
    exact List.find?_isSome.2 ⟨t, ht, by simp [heq]⟩
  obtain ⟨t, htask⟩ := Option.isSome_iff_exists.1 hfound
  obtain ⟨sink, hfresh, hbegun⟩ := find?_openSinks run.id run.keepsOutput output htask
  have hsink : sink = Hearing.sink (sink.map fun k => (k.out, k.err)) .nothing := by
    cases sink with
    | none => rfl
    | some k =>
      have hnew := hfresh k rfl
      cases k
      simp_all [Hearing.sink, Hearing.hasErrors, Hearing.replies]
  have hoffers : s.Offers node [] := by
    have hnil : s.framesOf node = [] := by simp [Stream.framesOf, hframes]
    rw [Stream.Offers, hnil]
    exact ⟨List.prefix_rfl, fun _ => rfl⟩
  exact ⟨sink.map fun k => (k.out, k.err), .of_run hrun' (by simp [Run.begun]) hbegun
    ⟨⟨rfl, (hd.fresh hrun htask).2.1⟩, hsink⟩ (hstream.trans hs) hoffers⟩

/-- An event of the call of the node itself. -/
theorem Follows.answered (hd : Follows id node files h d) (now : Time) {e : Event} (he : e.call? = some (id, node)) :
    Follows id node files (h.hear e) (step now d e) := by
  cases hrun : d.run? id with
  | none =>
    obtain ⟨answer, rfl⟩ := hd.ended hrun
    rw [Hearing.hear_whole, step_of_task?_eq_none now he (by simp [hrun])]
    exact hd
  | some run =>
    obtain ⟨hphase, t, htask, hfits⟩ := hd.run run hrun
    obtain ⟨s, hstream, hoffers⟩ := hd.stream
    obtain ⟨f, frames, output, ha, hnext⟩ := answered_step now he hrun htask
    obtain ⟨hfits', hframes⟩ := hfits.answers ha
    have hsent : (step now d e).stream? id = some (s.sent node frames) := by
      rw [hnext.stream, hstream]
      rfl
    exact .of_run hnext.run hphase (task?_changeTask_self htask ha.node_eq) hfits' hsent (hframes ▸ hoffers.sent frames)

/-- An event of the call of another node of the job. -/
theorem Follows.answered_of_ne (hd : Follows id node files h d) (now : Time) {e : Event} {other : String}
    (he : e.call? = some (id, other)) (hne : node ≠ other) : Follows id node files h (step now d e) := by
  rcases step_call d now he with hsame | ⟨run, t, f, frames, output, hrun, -, ha, hnext⟩
  · rw [hsame]
    exact hd
  · obtain ⟨s, hstream, hoffers⟩ := hd.stream
    obtain ⟨hphase, u, hu, hfits⟩ := hd.run run hrun
    have hkept : task? (changeTask run other f) node = some u := by
      have hother : u.node ≠ other := (task?_node hu).trans_ne hne
      rw [task?_changeTask run other node ha.node_eq, hu, Option.map_some, if_neg hother]
    have hsent : (step now d e).stream? id = some (s.sent other frames) := by
      rw [hnext.stream, hstream]
      rfl
    exact .of_run hnext.run hphase hkept hfits hsent (hoffers.sent_of_ne hne frames)

theorem Follows.step_begin (hd : Follows id node files h d) (now : Time) : step now d (.begin id) = d := by
  cases hrun : d.run? id with
  | none => simp only [step, hrun]
  | some run => simp only [step, hrun, if_neg (hd.run run hrun).1]

theorem Follows.launched (hd : Follows id node files h d) (hread : d.store.jobs = .ok jobs) (now : Time) :
    Follows id node files h (step now d (.launch id)) := by
  cases hrun : d.run? id with
  | none =>
    simp only [step, hrun]
    exact hd
  | some run =>
    by_cases hp : run.phase = .dispatching ∧ run.tasks.all Task.isIssued
    · obtain rfl := run?_id hrun
      simp only [step, hrun, if_pos hp, launchRun, Store.changeState_eq hread]
      have hnext {store : Store} : ({ d with store }.setRun { run with phase := .running }).run? run.id =
          some { run with phase := .running } := setRun_run?_self ((store_run? d _ run.id).trans hrun) rfl
      obtain ⟨-, t, htask, hfits⟩ := hd.run run hrun
      obtain ⟨s, hstream, hoffers⟩ := hd.stream
      exact .of_run hnext (by simp) htask hfits hstream hoffers
    · simp only [step, hrun, if_neg hp]
      exact hd

/-- A run ends once all its nodes have been heard. -/
theorem Follows.finished (hd : Follows id node files h d) (now : Time) :
    Follows id node files h (step now d (.finish id)) := by
  cases hrun : d.run? id with
  | none =>
    simp only [step, hrun]
    exact hd
  | some run =>
    by_cases hp : run.phase = .running ∧ run.tasks.all (·.exitCode?.isSome)
    · obtain ⟨-, t, htask, hfits⟩ := hd.run run hrun
      obtain ⟨s, hstream, hoffers⟩ := hd.stream
      have hended := List.all_eq_true.1 hp.2 t (mem_of_task? htask)
      have hwhole : ∃ answer, h = .whole answer := by
        cases h with
        | nothing | part => simp [Task.exitCode?, hfits.tells.1] at hended
        | whole answer => exact ⟨answer, rfl⟩
      have hclosed {store : Store} {fault : Option Fault} :
          Follows id node files h ({ d with store }.close run.id fault) := by
        obtain rfl := run?_id hrun
        refine ⟨?_, fun _ => hwhole, s.closed fault, by simp [hstream], hoffers.closed fault⟩
        intro run' hsome
        rw [close_run?_self] at hsome
        cases hsome
      simp only [step, hrun, if_pos hp, finishRun]
      split
      · exact hclosed
      · exact hclosed
    · simp only [step, hrun, if_neg hp]
      exact hd

theorem Follows.left (hd : Follows id node files h d) (now : Time) : Follows id node files h (step now d (.leave id)) := by
  obtain ⟨s, hstream, hoffers⟩ := hd.stream
  refine ⟨hd.run, hd.ended, { s with isLeft := true }, ?_, hoffers.left⟩
  rw [stream?_leave, hstream]
  rfl

/-- What is heard of a called node tells its task and its frames, whatever happens. -/
theorem Follows.stepAt (hd : Follows id node files h d) (hread : d.store.jobs = .ok jobs) (hknown : id ≤ newestId jobs)
    (e : Moment × Event) : Follows id node files (h.heed id node e) (d.stepAt e) := by
  obtain ⟨now, e⟩ := e
  by_cases hown : e.call? = some (id, node)
  · rw [Hearing.heed, if_pos hown]
    exact hd.answered now.1 hown
  · rw [Hearing.heed_of_ne h hown]
    by_cases he : e.job? = some id
    · cases e <;> simp only [Event.job?, Option.some.injEq, reduceCtorEq] at he <;> subst he
      case begin =>
        rw [Dispatch.stepAt, hd.step_begin]
        exact hd
      case launch => exact hd.launched hread now.1
      case finish => exact hd.finished now.1
      case leave => exact hd.left now.1
      all_goals
        refine hd.answered_of_ne now.1 rfl ?_
        rintro rfl
        exact hown rfl
    · obtain ⟨hrun, hstream⟩ := way_step_of_ne hread hknown now.1 he
      exact hd.kept hrun hstream

end steps

/-! ### Whole runs -/

section runs

variable {d : Dispatch} {job : Job} {node : String} {events : History}

theorem known_of_accepted (hjob : d.Accepted job) {jobs : List Job} (hread : (d.runAt events).store.jobs = .ok jobs) :
    job.id ≤ newestId jobs := by
  obtain ⟨before, hbefore, hle⟩ := newestId_of_runAt hread
  exact Int.le_trans ((fresh_of_accepted hjob).listed before hbefore).1 hle

theorem uncalled_of_accepted (hjob : d.Accepted job) : Uncalled job d := by
  obtain ⟨keepsOutput, hrun, hstream⟩ := (fresh_of_accepted hjob).way
  refine ⟨?_, _, hstream, rfl⟩
  intro run hsome
  rw [hrun, Option.some.injEq] at hsome
  subst hsome
  exact ⟨rfl, rfl⟩

/-- The files of a node are open. -/
def Opens (id : Int) (node : String) (out err : Path) (d : Dispatch) : Prop :=
  ∃ run t k, d.run? id = some run ∧ task? run node = some t ∧ t.sink = some k ∧ k.out = out ∧ k.err = err

theorem Uncalled.not_opens (hd : Uncalled job d) (out err : Path) : ¬ Opens job.id node out err d := by
  rintro ⟨run, t, k, hrun, htask, hsink, -⟩
  rw [(hd.fresh hrun htask).2.2] at hsink
  cases hsink

section opens

variable {id : Int} {files : Option (Path × Path)} {h : Hearing} {out err : Path}

theorem Follows.files_of_opens (hd : Follows id node files h d) (hopens : Opens id node out err d) :
    files = some (out, err) := by
  obtain ⟨run, t, k, hrun, htask, hsink, rfl, rfl⟩ := hopens
  rw [(hd.fits hrun htask).sink] at hsink
  cases h with
  | whole => cases hsink
  | nothing | part =>
    obtain ⟨p, rfl, rfl⟩ := Option.map_eq_some_iff.1 hsink
    rfl

/-- The files of a node are open until all of it is heard. -/
theorem Follows.opens (hd : Follows id node (some (out, err)) h d) (hopen : ∀ answer, h ≠ .whole answer) :
    Opens id node out err d := by
  cases hrun : d.run? id with
  | none =>
    obtain ⟨answer, hwhole⟩ := hd.ended hrun
    exact absurd hwhole (hopen answer)
  | some run =>
    obtain ⟨-, t, htask, hfits⟩ := hd.run run hrun
    refine ⟨run, t, { out, err, errWritten := h.hasErrors }, hrun, htask, ?_, rfl, rfl⟩
    rw [hfits.sink]
    cases h with
    | whole answer => exact absurd rfl (hopen answer)
    | nothing | part => rfl

end opens

/-- Along every run, the calls of an accepted job are not made yet, or its nodes are what was heard of them. -/
theorem follows_of_accepted (hjob : d.Accepted job) (hnode : node ∈ job.nodes)
    (hstorage : (d.runAt events).store.Readable) :
    (¬ d.Reaches events fun d => d.hasCalled job.id) ∧
        (∀ out err, ¬ d.Reaches events (Opens job.id node out err)) ∧ Uncalled job (d.runAt events) ∨
      (d.Reaches events fun d => d.hasCalled job.id) ∧ ∃ files,
        (∀ out err, d.Reaches events (Opens job.id node out err) → files = some (out, err)) ∧
          Follows job.id node files (d.hearing job.id node events) (d.runAt events) := by
  induction events using List.reverseRecOn with
  | nil =>
    have huncalled := uncalled_of_accepted hjob
    simp only [reaches_nil, huncalled.hasCalled]
    exact .inl ⟨by simp, huncalled.not_opens, huncalled⟩
  | append_singleton events e ih =>
    rw [runAt_concat] at hstorage
    obtain ⟨jobs, hread⟩ := readable_of_stepAt hstorage
    have hknown := known_of_accepted hjob hread
    simp only [reaches_concat, runAt_concat]
    rcases ih ⟨jobs, hread⟩ with ⟨hno, hclosed, huncalled⟩ | ⟨hcalled, files, hfiles, hfollows⟩
    · rcases huncalled.stepAt hread hknown e with hstill | ⟨run, -, hrun, hbegun, hstream, -⟩
      · refine .inl ⟨?_, fun out err => not_or.2 ⟨hclosed out err, hstill.not_opens out err⟩, hstill⟩
        rw [hstill.hasCalled]
        simpa using hno
      · refine .inr ⟨.inr (by simp [hasCalled, hbegun, Run.begun]), ?_⟩
        rw [hearing_concat, if_neg hno]
        obtain ⟨files, hfollows⟩ := Follows.begun huncalled hnode hrun _ hbegun hstream
        refine ⟨files, ?_, hfollows⟩
        rintro out err (hopened | hopens)
        · exact absurd hopened (hclosed out err)
        · exact hfollows.files_of_opens hopens
    · rw [hearing_concat_of_called hcalled]
      have hnext := hfollows.stepAt hread hknown e
      refine .inr ⟨.inl hcalled, files, ?_, hnext⟩
      rintro out err (hopened | hopens)
      · exact hfiles out err hopened
      · exact hnext.files_of_opens hopens

/-- A node has ended with the code of its answer, once all of it was heard. -/
theorem reaches_hasEnded_iff (hjob : d.Accepted job) (hnode : node ∈ job.nodes)
    (hstorage : (d.runAt events).store.Readable) (code : Int) :
    d.Reaches events (HasEnded job.id node code) ↔
      ∃ answer, d.hearing job.id node events = .whole answer ∧ code = answer.exitCode := by
  constructor
  · rintro ⟨s, hs, run, t, hrun, htask, hcode⟩
    rcases follows_of_accepted hjob hnode (readable_of_runAt hs hstorage) with
      ⟨-, -, huncalled⟩ | ⟨-, files, -, hfollows⟩
    · simp [Task.exitCode?, (huncalled.fresh hrun htask).1] at hcode
    · have htells := (hfollows.fits hrun htask).tells
      cases h : d.hearing job.id node s with
      | nothing | part =>
        rw [h] at htells
        simp [Task.exitCode?, htells.1] at hcode
      | whole answer =>
        rw [h] at htells
        change t.phase = _ at htells
        simp only [Task.exitCode?, htells, Option.some.injEq] at hcode
        exact ⟨answer, hearing_of_prefix hs h, hcode.symm⟩
  · rintro ⟨answer, hwhole, rfl⟩
    induction events using List.reverseRecOn with
    | nil => cases hwhole
    | append_singleton events e ih =>
      rw [reaches_concat]
      have hbefore : (d.runAt events).store.Readable := by
        rw [runAt_concat] at hstorage
        exact readable_of_stepAt hstorage
      by_cases hover : ∃ before, d.hearing job.id node events = .whole before
      · obtain ⟨before, hover⟩ := hover
        have hsame := hearing_of_prefix (List.prefix_append events [e]) hover
        rw [hwhole, Hearing.whole.injEq] at hsame
        exact .inl (ih hbefore (hsame ▸ hover))
      · -- The run went on before the event, and an event of a node's call does not end it.
        right
        rcases follows_of_accepted hjob hnode hbefore with ⟨hno, -⟩ | ⟨hcalled, files, -, hfollows⟩
        · rw [hearing_concat, if_neg hno] at hwhole
          cases hwhole
        · rw [hearing_concat_of_called hcalled] at hwhole
          have hown : e.2.call? = some (job.id, node) := by
            by_contra hne
            rw [Hearing.heed_of_ne _ hne] at hwhole
            exact hover ⟨answer, hwhole⟩
          have hopen : (d.runAt events).run? job.id ≠ none := fun hnone => hover (hfollows.ended hnone)
          obtain ⟨run, hrun⟩ := Option.ne_none_iff_exists'.1 hopen
          obtain ⟨-, t, htask, hfits⟩ := hfollows.run run hrun
          obtain ⟨f, frames, output, ha, hnext⟩ := answered_step e.1.1 hown hrun htask
          have htells := (hfits.answers ha).1.tells
          rw [Hearing.heed, if_pos hown] at hwhole
          rw [hwhole] at htells
          change (f t).phase = _ at htells
          rw [runAt_concat]
          exact ⟨_, f t, hnext.run, task?_changeTask_self htask ha.node_eq, by simp [Task.exitCode?, htells]⟩

end runs

end Dispatch

end Muster
