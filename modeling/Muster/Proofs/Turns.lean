import Muster.Proofs.Listing

/-!
# The turns of a job

What belongs to one job in the state of a head node is its entry in the list, its run and its stream. An
event of the job changes them in one of a few ways, and an event of another job leaves them alone.
-/

namespace Muster.Dispatch

open Store (withId newestId enlist updateState markCanceling changeFirst finished cancelEnded mark)

/-- What there is of one job. -/
structure Part where
  listed : List Job
  run : Option Run
  stream : Option Stream

def part (id : Int) (d : Dispatch) (jobs : List Job) : Part := ⟨withId id jobs, d.run? id, d.stream? id⟩

/-- The job whose run or stream an event belongs to. -/
def Event.job? : Event → Option Int
  | .begin id | .answered id .. | .reply id .. | .ended id _ | .launch id | .finish id | .leave id =>
    some id
  | .submit .. | .cancel _ | .cancelAnswered .. | .cancelEnded .. => none

/-! ### Tasks -/

namespace Task

/-- A node that has answered with a stream. -/
def streamed (t : Task) : Task := { t with phase := .streaming }

/-- A node of which a reply was heard. -/
def heard (sink : Option Sink) (r : Reply) (t : Task) : Task := { t with sink, code := r.code t.code }

/-- A node that has ended. -/
def exited (code : Int) (t : Task) : Task := { t with phase := .ended code, sink := none }

@[simp] theorem streamed_node (t : Task) : t.streamed.node = t.node := rfl

@[simp] theorem heard_node (sink : Option Sink) (r : Reply) (t : Task) :
    (t.heard sink r).node = t.node := rfl

@[simp] theorem exited_node (code : Int) (t : Task) : (t.exited code).node = t.node := rfl

@[simp] theorem streamed_exitCode? (t : Task) : t.streamed.exitCode? = none := rfl

@[simp] theorem heard_exitCode? (sink : Option Sink) (r : Reply) (t : Task) :
    (t.heard sink r).exitCode? = t.exitCode? := rfl

@[simp] theorem exited_exitCode? (code : Int) (t : Task) : (t.exited code).exitCode? = some code := rfl

end Task

@[simp] theorem changeTask_id (run : Run) (node : String) (f : Task → Task) :
    (changeTask run node f).id = run.id := rfl

theorem task?_node {run : Run} {node : String} {t : Task} (h : task? run node = some t) : t.node = node := by
  simpa using List.find?_some h

theorem task?_changeTask (run : Run) (node other : String) {f : Task → Task}
    (hf : ∀ t, (f t).node = t.node) :
    task? (changeTask run node f) other =
      (task? run other).map fun t => if t.node = node then f t else t := by
  refine find?_map_key Task.node ?_ run.tasks other
  intro t
  split
  · exact hf t
  · rfl

theorem task?_changeTask_self {run : Run} {node : String} {t : Task} (h : task? run node = some t)
    {f : Task → Task} (hf : ∀ t, (f t).node = t.node) :
    task? (changeTask run node f) node = some (f t) := by
  rw [task?_changeTask run node node hf, h]
  simp [task?_node h]

theorem mem_of_task? {run : Run} {node : String} {t : Task} (h : task? run node = some t) :
    t ∈ run.tasks := List.mem_of_find?_eq_some h

/-- What is asked of the nodes does not change when their calls begin. -/
theorem openSinks_orders (id : Int) (keepsOutput : Bool) (files : Files) (tasks : List Task) :
    (openSinks id keepsOutput files tasks).2.map Task.order = tasks.map Task.order := by
  induction tasks generalizing files with
  | nil => rfl
  | cons t rest ih => simp only [openSinks, List.map_cons, ih]

theorem openSinks_phase (id : Int) (keepsOutput : Bool) (files : Files) (tasks : List Task) :
    ∀ t ∈ (openSinks id keepsOutput files tasks).2, t.phase = .calling := by
  induction tasks generalizing files with
  | nil => simp [openSinks]
  | cons t rest ih =>
    simp only [openSinks, List.mem_cons, forall_eq_or_imp, true_and]
    exact ih _

/-! ### The ways -/

/-- A job that is not cancelled runs from now on. -/
def launched (job : Job) : Job :=
  if job.state = .dispatching then { job with state := .running } else job

/-- The ways in which an event of a job changes what there is of it. -/
inductive Turn (now : Time) : Part → Part → Prop
  | stayed (p : Part) : Turn now p p
  | left (p : Part) : Turn now p { p with stream := p.stream.map fun s => { s with isLeft := true } }
  | begun {p : Part} {run : Run} {job : Job} {tasks : List Task} (hrun : p.run = some run)
      (hphase : run.phase = .accepted) (hlisted : p.listed = [job]) (hstate : job.state = .created)
      (horders : tasks.map Task.order = run.tasks.map Task.order)
      (hcalling : ∀ t ∈ tasks, t.phase = .calling) :
      Turn now p { p with
        listed := [{ job with state := .dispatching }]
        run := some { run with tasks, phase := .dispatching } }
  | dropped {p : Part} {run : Run} (hrun : p.run = some run) (hphase : run.phase = .accepted)
      (hlisted : ∀ job ∈ p.listed, job.state ≠ .created) :
      Turn now p { p with run := none, stream := p.stream.map (Stream.closed none) }
  | answered {p : Part} {run : Run} {node : String} {t : Task} (hrun : p.run = some run)
      (htask : task? run node = some t) (hphase : t.phase = .calling) :
      Turn now p { p with
        run := some (changeTask run node Task.streamed) }
  | relayed {p : Part} {run : Run} {node : String} {t : Task} (r : Reply) (sink : Option Sink)
      (hrun : p.run = some run) (htask : task? run node = some t) (hphase : t.phase = .streaming) :
      Turn now p { p with
        run := some (changeTask run node (Task.heard sink r))
        stream := p.stream.map (Stream.sent node r.frames) }
  | exited {p : Part} {run : Run} {node : String} {t : Task} {code : Int} (hrun : p.run = some run)
      (htask : task? run node = some t)
      (hphase : t.phase = .calling ∧ code = exitUnreachable ∨
        t.phase = .streaming ∧ code = t.code.getD exitUnreachable) :
      Turn now p { p with
        run := some (changeTask run node (Task.exited code))
        stream := p.stream.map (Stream.sent node [.exit code]) }
  | launched {p : Part} {run : Run} (hrun : p.run = some run) (hphase : run.phase = .dispatching)
      (hissued : ∀ t ∈ run.tasks, t.isIssued) :
      Turn now p { p with
        listed := p.listed.map launched
        run := some { run with phase := .running } }
  | finished {p : Part} {run : Run} {job : Job} (hrun : p.run = some run)
      (hphase : run.phase = .running) (hended : ∀ t ∈ run.tasks, t.exitCode?.isSome)
      (hlisted : p.listed = [job]) :
      Turn now p {
        listed := [Store.finished (failedNodes run) now job]
        run := none
        stream := p.stream.map (Stream.closed none) }
  | lost {p : Part} {run : Run} (hrun : p.run = some run) (hphase : run.phase = .running)
      (hended : ∀ t ∈ run.tasks, t.exitCode?.isSome) (hlisted : p.listed = []) :
      Turn now p { p with
        run := none
        stream := p.stream.map (Stream.closed (some (.unknownJob run.id))) }

section steps

variable {d : Dispatch} {jobs : List Job} {id : Int}

theorem nil_or_singleton {l : List Job} (hone : l.length ≤ 1) : l = [] ∨ ∃ job, l = [job] := by
  cases l with
  | nil => exact .inl rfl
  | cons job rest =>
    have hrest : rest = [] := List.length_eq_zero_iff.1 (by simpa using hone)
    exact .inr ⟨job, by rw [hrest]⟩

theorem singleton_of_mem {l : List Job} (hone : l.length ≤ 1) {job : Job} (h : job ∈ l) : l = [job] := by
  rcases nil_or_singleton hone with rfl | ⟨other, rfl⟩
  · cases h
  · rw [List.mem_singleton.1 h]

theorem turn_begin (h : d.store.jobs = .ok jobs) (hone : (withId id jobs).length ≤ 1) (now : Time) :
    Turn now (part id d jobs) (part id (step now d (.begin id)) (d.relist now jobs (.begin id))) := by
  cases hrun : d.run? id with
  | none =>
    simp only [step, relist, hrun]
    exact .stayed _
  | some run =>
    obtain rfl := run?_id hrun
    by_cases hp : run.phase = .accepted
    · simp only [step, relist, hrun, if_pos hp, beginRun, Store.changeState_eq h]
      by_cases hcreated : ∃ job ∈ withId run.id jobs, job.state = .created
      · obtain ⟨job, hjob, hstate⟩ := hcreated
        have hlisted := singleton_of_mem hone hjob
        obtain ⟨hchanged, hok⟩ := Store.updateState_self .dispatching hlisted hstate rfl
        simp only [hok, part, hchanged, setRun_stream?, store_stream?, setRun_run?, store_run?,
          hrun, Option.map_some, if_true]
        exact .begun rfl hp hlisted hstate (openSinks_orders _ _ _ _) (openSinks_phase _ _ _ _)
      · have hnot : ∀ job ∈ withId run.id jobs, job.state ≠ .created := fun job hjob hstate =>
          hcreated ⟨job, hjob, hstate⟩
        rw [Store.updateState_other hnot]
        simp only [part, close_run?_self, close_stream?_self, store_stream?]
        exact .dropped hrun hp hnot
    · simp only [step, relist, hrun, if_neg hp]
      exact .stayed _

theorem withId_launch (hone : (withId id jobs).length ≤ 1) :
    withId id (updateState id .dispatching .running jobs).1 = (withId id jobs).map launched := by
  by_cases hrunning : ∃ job ∈ withId id jobs, job.state = .dispatching
  · obtain ⟨job, hjob, hstate⟩ := hrunning
    have hlisted := singleton_of_mem hone hjob
    obtain ⟨hchanged, -⟩ := Store.updateState_self .running hlisted hstate rfl
    rw [hchanged, hlisted]
    simp [launched, hstate]
  · have hnot : ∀ job ∈ withId id jobs, job.state ≠ .dispatching := fun job hjob hstate =>
      hrunning ⟨job, hjob, hstate⟩
    rw [Store.updateState_other hnot]
    refine (List.map_id' _).symm.trans (List.map_congr_left fun job hjob => ?_)
    rw [launched, if_neg (hnot job hjob)]

theorem turn_launch (h : d.store.jobs = .ok jobs) (hone : (withId id jobs).length ≤ 1) (now : Time) :
    Turn now (part id d jobs) (part id (step now d (.launch id)) (d.relist now jobs (.launch id))) := by
  cases hrun : d.run? id with
  | none =>
    simp only [step, relist, hrun]
    exact .stayed _
  | some run =>
    obtain rfl := run?_id hrun
    by_cases hp : run.phase = .dispatching ∧ run.tasks.all Task.isIssued
    · simp only [step, relist, hrun, if_pos hp, launchRun, Store.changeState_eq h]
      simp only [part, withId_launch hone, setRun_stream?, store_stream?, setRun_run?, store_run?,
        hrun, Option.map_some, if_true]
      exact .launched rfl hp.1 (List.all_eq_true.1 hp.2)
    · simp only [step, relist, hrun, if_neg hp]
      exact .stayed _

theorem turn_finish (h : d.store.jobs = .ok jobs) (hone : (withId id jobs).length ≤ 1) (now : Time) :
    Turn now (part id d jobs) (part id (step now d (.finish id)) (d.relist now jobs (.finish id))) := by
  cases hrun : d.run? id with
  | none =>
    simp only [step, relist, hrun]
    exact .stayed _
  | some run =>
    obtain rfl := run?_id hrun
    by_cases hp : run.phase = .running ∧ run.tasks.all (·.exitCode?.isSome)
    · simp only [step, relist, hrun, if_pos hp, finishRun, Store.finishJob, Store.withJob_eq h]
      have hended := List.all_eq_true.1 hp.2
      have hkeeps : ∀ job, (finished (failedNodes run) now job).id = job.id :=
        Store.finished_id (failedNodes run) now
      rcases nil_or_singleton hone with hlisted | ⟨job, hlisted⟩
      · simp only [Store.find?_eq_none hlisted, part, close_run?_self, close_stream?_self, store_stream?,
          Store.withId_changeFirst run.id hkeeps, hlisted, changeFirst]
        exact .lost hrun hp.1 hended rfl
      · simp only [Store.find?_eq_some hlisted, part, close_run?_self, close_stream?_self, store_stream?,
          Store.withId_changeFirst_self hkeeps hlisted]
        exact .finished hrun hp.1 hended hlisted
    · simp only [step, relist, hrun, if_neg hp]
      exact .stayed _

theorem part_endTask (jobs : List Job) {run : Run} {node : String} {t : Task} (hrun : d.run? run.id = some run)
    (htask : task? run node = some t) (code : Int) :
    part run.id (d.endTask run t code) jobs =
      { part run.id d jobs with
        run := some (changeTask run node (Task.exited code))
        stream := (d.stream? run.id).map (Stream.sent node [.exit code]) } := by
  simp only [part, endTask, task?_node htask, send_run?, send_stream?_self, setRun_run?, setRun_stream?,
    store_run?, store_stream?, hrun, Option.map_some, changeTask_id, if_true]
  rfl

theorem part_relay (jobs : List Job) {run : Run} {node : String} {t : Task} (hrun : d.run? run.id = some run)
    (htask : task? run node = some t) (r : Reply) :
    ∃ sink, part run.id (d.relay run t r) jobs =
      { part run.id d jobs with
        run := some (changeTask run node (Task.heard sink r))
        stream := (d.stream? run.id).map (Stream.sent node r.frames) } := by
  cases hs : t.sink with
  | none =>
    refine ⟨none, ?_⟩
    simp only [part, relay, hs, task?_node htask, send_run?, send_stream?_self, setRun_run?,
      setRun_stream?, store_stream?, hrun, Option.map_some, changeTask_id, if_true]
    rfl
  | some sink =>
    refine ⟨some (sink.write d.store.output r).2, ?_⟩
    simp only [part, relay, hs, task?_node htask, send_run?, send_stream?_self, setRun_run?,
      setRun_stream?, store_run?, store_stream?, hrun, Option.map_some, changeTask_id, if_true]
    rfl

theorem turn_answered (now : Time) (node : String) (accepted : Bool) :
    Turn now (part id d jobs) (part id (step now d (.answered id node accepted)) jobs) := by
  cases hrun : d.run? id with
  | none =>
    simp only [step, hrun]
    exact .stayed _
  | some run =>
    obtain rfl := run?_id hrun
    cases htask : task? run node with
    | none =>
      simp only [step, hrun, htask]
      exact .stayed _
    | some t =>
      by_cases hp : t.phase = .calling
      · cases accepted with
        | true =>
          simp only [step, hrun, htask, if_pos hp, if_true, part, setRun_stream?, setRun_run?,
            Option.map_some, changeTask_id]
          exact .answered rfl htask hp
        | false =>
          simp only [step, hrun, htask, if_pos hp, Bool.false_eq_true, if_false]
          rw [part_endTask jobs hrun htask]
          exact .exited hrun htask (.inl ⟨hp, rfl⟩)
      · simp only [step, hrun, htask, if_neg hp]
        exact .stayed _

theorem turn_reply (now : Time) (node : String) (r : Reply) :
    Turn now (part id d jobs) (part id (step now d (.reply id node r)) jobs) := by
  cases hrun : d.run? id with
  | none =>
    simp only [step, hrun]
    exact .stayed _
  | some run =>
    obtain rfl := run?_id hrun
    cases htask : task? run node with
    | none =>
      simp only [step, hrun, htask]
      exact .stayed _
    | some t =>
      by_cases hp : t.phase = .streaming
      · simp only [step, hrun, htask, if_pos hp]
        obtain ⟨sink, hpart⟩ := part_relay jobs hrun htask r
        rw [hpart]
        exact .relayed r sink hrun htask hp
      · simp only [step, hrun, htask, if_neg hp]
        exact .stayed _

theorem turn_ended (now : Time) (node : String) :
    Turn now (part id d jobs) (part id (step now d (.ended id node)) jobs) := by
  cases hrun : d.run? id with
  | none =>
    simp only [step, hrun]
    exact .stayed _
  | some run =>
    obtain rfl := run?_id hrun
    cases htask : task? run node with
    | none =>
      simp only [step, hrun, htask]
      exact .stayed _
    | some t =>
      by_cases hp : t.phase = .streaming
      · simp only [step, hrun, htask, if_pos hp]
        rw [part_endTask jobs hrun htask]
        exact .exited hrun htask (.inr ⟨hp, rfl⟩)
      · simp only [step, hrun, htask, if_neg hp]
        exact .stayed _

theorem turn_leave (now : Time) :
    Turn now (part id d jobs) (part id (step now d (.leave id)) jobs) := by
  have hstream : (step now d (.leave id)).stream? id =
      (d.stream? id).map fun s => { s with isLeft := true } :=
    changeStream_stream?_self id (f := fun s => { s with isLeft := true }) fun _ => rfl
  simp only [part, hstream]
  exact .left (part id d jobs)

/-- An event of a job is one of its turns. -/
theorem turn_step (h : d.store.jobs = .ok jobs) (hone : (withId id jobs).length ≤ 1) (now : Time)
    {e : Event} (he : e.job? = some id) :
    Turn now (part id d jobs) (part id (step now d e) (d.relist now jobs e)) := by
  cases e <;> simp only [Event.job?, Option.some.injEq, reduceCtorEq] at he <;> subst he
  case begin => exact turn_begin h hone now
  case answered node accepted => exact turn_answered now node accepted
  case reply node r => exact turn_reply now node r
  case ended node => exact turn_ended now node
  case launch => exact turn_launch h hone now
  case finish => exact turn_finish h hone now
  case leave => exact turn_leave now

/-! ### Other jobs -/

theorem part_setRun_of_ne {run : Run} (hne : run.id ≠ id) : part id (d.setRun run) jobs = part id d jobs := by
  simp only [part, setRun_run?_of_ne hne, setRun_stream?]

theorem part_close_of_ne {other : Int} (hne : other ≠ id) (fault : Option Fault) :
    part id (d.close other fault) jobs = part id d jobs := by
  simp only [part, close_run?_of_ne hne, close_stream?_of_ne hne]

theorem part_send_of_ne {other : Int} (hne : other ≠ id) (node : String) (frames : List Frame) :
    part id (d.send other node frames) jobs = part id d jobs := by
  simp only [part, send_run?, send_stream?_of_ne hne]

@[simp] theorem part_store (store : Store) : part id { d with store } jobs = part id d jobs := rfl

theorem part_endTask_of_ne {run : Run} (hne : run.id ≠ id) (t : Task) (code : Int) :
    part id (d.endTask run t code) jobs = part id d jobs := by
  unfold endTask
  rw [part_send_of_ne hne, part_setRun_of_ne (by exact hne), part_store]

theorem part_relay_of_ne {run : Run} (hne : run.id ≠ id) (t : Task) (r : Reply) :
    part id (d.relay run t r) jobs = part id d jobs := by
  unfold relay
  simp only
  rw [part_send_of_ne hne, part_setRun_of_ne (by exact hne), part_store]

theorem part_beginRun_of_ne {run : Run} (hne : run.id ≠ id) :
    part id (d.beginRun run) jobs = part id d jobs := by
  unfold beginRun
  split
  · rw [part_close_of_ne hne, part_store]
  · rw [part_close_of_ne hne, part_store]
  · rw [part_setRun_of_ne (by exact hne), part_store]

theorem part_launchRun_of_ne {run : Run} (hne : run.id ≠ id) :
    part id (d.launchRun run) jobs = part id d jobs := by
  unfold launchRun
  split
  · rw [part_close_of_ne hne, part_store]
  · rw [part_setRun_of_ne (by exact hne), part_store]

theorem part_finishRun_of_ne {run : Run} (hne : run.id ≠ id) (now : Time) :
    part id (d.finishRun run now) jobs = part id d jobs := by
  unfold finishRun
  split
  · rw [part_close_of_ne hne, part_store]
  · rw [part_close_of_ne hne, part_store]

theorem part_leave_of_ne {now : Time} {other : Int} (hne : other ≠ id) :
    part id (step now d (.leave other)) jobs = part id d jobs := by
  have hstream : (step now d (.leave other)).stream? id = d.stream? id :=
    changeStream_stream?_of_ne hne (f := fun s => { s with isLeft := true }) fun _ => rfl
  simp only [part, hstream]
  rfl

theorem part_of_withId {more : List Job} (h : withId id more = withId id jobs) :
    part id d more = part id d jobs := by
  simp only [part, h]

/-- An event of a job leaves what there is of the others. -/
theorem part_step_of_ne (now : Time) {e : Event} {other : Int} (he : e.job? = some other)
    (hne : other ≠ id) : part id (step now d e) (d.relist now jobs e) = part id d jobs := by
  cases hrun : d.run? other with
  | none =>
    cases e <;> simp only [Event.job?, Option.some.injEq, reduceCtorEq] at he <;> subst he
    case leave => exact part_leave_of_ne hne
    all_goals simp only [step, relist, hrun]
  | some run =>
    obtain rfl := run?_id hrun
    cases e <;> simp only [Event.job?, Option.some.injEq, reduceCtorEq] at he <;> subst he
    case begin =>
      simp only [step, relist, hrun]
      split
      · rw [part_beginRun_of_ne hne, part_of_withId (Store.withId_updateState_of_ne hne _ _ jobs)]
      · rfl
    case launch =>
      simp only [step, relist, hrun]
      split
      · rw [part_launchRun_of_ne hne, part_of_withId (Store.withId_updateState_of_ne hne _ _ jobs)]
      · rfl
    case finish =>
      simp only [step, relist, hrun]
      split
      · rw [part_finishRun_of_ne hne]
        exact part_of_withId (Store.withId_changeFirst_of_ne hne (Store.finished_id _ now) jobs)
      · rfl
    case answered node accepted =>
      simp only [step, relist, hrun]
      repeat' split
      · exact part_setRun_of_ne hne
      · exact part_endTask_of_ne hne _ _
      all_goals rfl
    case reply node r =>
      simp only [step, relist, hrun]
      repeat' split
      · exact part_relay_of_ne hne _ _
      all_goals rfl
    case ended node =>
      simp only [step, relist, hrun]
      repeat' split
      · exact part_endTask_of_ne hne _ _
      all_goals rfl
    case leave => exact part_leave_of_ne hne

/-! ### Cancellations -/

/-- An event of a job leaves the cancellations alone. -/
theorem cancels_step (now : Time) {e : Event} (he : e.job? = some id) :
    (step now d e).cancels = d.cancels := by
  cases e <;> simp only [Event.job?, Option.some.injEq, reduceCtorEq] at he
  case begin =>
    simp only [step, beginRun]
    repeat' split
    all_goals rfl
  case launch =>
    simp only [step, launchRun]
    repeat' split
    all_goals rfl
  case finish =>
    simp only [step, finishRun]
    repeat' split
    all_goals rfl
  case leave => rfl
  all_goals
    simp only [step]
    repeat' split
    all_goals rfl

theorem part_cancel (h : d.store.jobs = .ok jobs) (now : Time) (ids : JobIds) :
    part id (step now d (.cancel ids)) (d.relist now jobs (.cancel ids)) =
      { part id d jobs with listed := (withId id jobs).map (mark ids jobs) } := by
  simp only [part, relist, Store.withId_markCanceling, step, startCancel, Store.planCancel_eq h]
  rfl

theorem part_cancelAnswered (d : Dispatch) (jobs : List Job) (now : Time) (call : Nat) (other : Int)
    (node : String) (accepted : Bool) :
    part id (step now d (.cancelAnswered call other node accepted)) jobs = part id d jobs := by
  simp only [step]
  split <;> rfl

theorem part_settle (d : Dispatch) (jobs : List Job) (call : Nat) (c : Cancel) (j : CancelJob) (now : Time) :
    part id (d.settle call c j now) jobs = part id d jobs := by
  unfold settle
  split <;> rfl

/-- The end of a cancellation of a job does nothing, or settles the job. -/
theorem step_cancelEnded (d : Dispatch) (jobs : List Job) (now : Time) (call : Nat) (other : Int) :
    (step now d (.cancelEnded call other) = d ∧ d.relist now jobs (.cancelEnded call other) = jobs) ∨
      ∃ c j, d.cancels[call]? = some c ∧ j ∈ c.jobs ∧ j.id = other ∧ j.waiting = [] ∧
        step now d (.cancelEnded call other) = d.settle call c j now ∧
        d.relist now jobs (.cancelEnded call other) = changeFirst j.id (cancelEnded j.failed now) jobs := by
  cases hc : d.cancels[call]? with
  | none => exact .inl (by simp only [step, relist, hc, and_self])
  | some c =>
    cases hj : c.jobs.find? fun j => j.id == other with
    | none => exact .inl (by simp only [step, relist, hc, hj, and_self])
    | some j =>
      have hid : j.id = other := by simpa using List.find?_some hj
      by_cases hw : j.waiting.isEmpty
      · refine .inr ⟨c, j, rfl, List.mem_of_find?_eq_some hj, hid, by simpa using hw, ?_⟩
        simp only [step, relist, hc, hj, if_pos hw, and_self]
      · exact .inl (by simp only [step, relist, hc, hj, if_neg hw, and_self])

/-- The settling of a job changes its entry. -/
theorem part_settle_self (d : Dispatch) (jobs : List Job) (call : Nat) (c : Cancel) (j : CancelJob)
    (now : Time) :
    part j.id (d.settle call c j now) (changeFirst j.id (cancelEnded j.failed now) jobs) =
      { part j.id d jobs with
        listed := changeFirst j.id (cancelEnded j.failed now) (withId j.id jobs) } := by
  rw [part_settle, part, Store.withId_changeFirst j.id (Store.cancelEnded_id j.failed now)]
  rfl

theorem part_settle_of_ne (d : Dispatch) (jobs : List Job) (call : Nat) (c : Cancel) {j : CancelJob}
    (hne : j.id ≠ id) (now : Time) :
    part id (d.settle call c j now) (changeFirst j.id (cancelEnded j.failed now) jobs) = part id d jobs := by
  rw [part_settle]
  exact part_of_withId (Store.withId_changeFirst_of_ne hne (Store.cancelEnded_id j.failed now) jobs)

/-! ### Submissions -/

theorem withId_enlist_of_evict (hknown : id ≤ newestId jobs) {kept : List Job} {capacity : Nat}
    {evicted : List Int} (hev : Store.evict jobs capacity = .ok (kept, evicted)) (spec : JobSpec)
    (nodes : List String) (now : Time) :
    withId id (enlist spec nodes capacity now jobs) = if id ∈ evicted then [] else withId id jobs := by
  have hlt := Store.newestId_lt_nextId hev
  have hnew : withId id [Job.new (Store.nextId kept evicted) spec nodes now] = [] := by
    rw [Store.withId_eq_nil]
    intro job hjob
    rw [List.mem_singleton.1 hjob]
    change Store.nextId kept evicted ≠ id
    omega
  rw [Store.enlist_eq hev, Store.withId_append, hnew, List.append_nil, Store.withId_evict hev]

theorem withId_enlist (hknown : id ≤ newestId jobs) (spec : JobSpec) (nodes : List String)
    (capacity : Nat) (now : Time) :
    withId id (enlist spec nodes capacity now jobs) = withId id jobs ∨
      (∃ job ∈ withId id jobs, job.state.isActive = false) ∧
        withId id (enlist spec nodes capacity now jobs) = [] := by
  cases hev : Store.evict jobs capacity with
  | error fault => exact .inl (by rw [enlist, hev])
  | ok r =>
    rw [withId_enlist_of_evict hknown hev]
    split
    · rename_i hmem
      rw [(Store.evict_eq_ok hev).1] at hmem
      obtain ⟨job, hjob, hid, hidle⟩ := Store.mem_evictable hmem
      exact .inr ⟨⟨job, Store.mem_withId.2 ⟨hjob, hid⟩, hidle⟩, rfl⟩
    · exact .inl rfl

/-- What is under way after a submission. -/
theorem submit_eq (h : d.store.jobs = .ok jobs) (now : Time) (spec : JobSpec) (nodes : List String)
    (capacity : Nat) (keepsOutput : Bool) :
    (step now d (.submit spec nodes capacity keepsOutput)).cancels = d.cancels ∧
      ((step now d (.submit spec nodes capacity keepsOutput)).runs = d.runs ∧
          (step now d (.submit spec nodes capacity keepsOutput)).streams = d.streams ∨
        ∃ job ∈ enlist spec nodes capacity now jobs, newestId jobs < job.id ∧
          (step now d (.submit spec nodes capacity keepsOutput)).runs =
            d.runs ++ [{ id := job.id, tasks := (orders job).map fun o => { order := o }, keepsOutput }] ∧
          (step now d (.submit spec nodes capacity keepsOutput)).streams =
            d.streams ++ [{ id := job.id, nodes := job.nodes }]) := by
  simp only [step, submit]
  split
  · exact ⟨rfl, .inl ⟨rfl, rfl⟩⟩
  · rename_i store job hcreate
    have hok : (d.store.createJob spec nodes capacity now).2 = .ok job := by rw [hcreate]
    obtain ⟨kept, evicted, hev, rfl⟩ := Store.createJob_ok h hok
    exact ⟨rfl, .inr ⟨_, by simp [Store.enlist_eq hev], Store.newestId_lt_nextId hev, rfl, rfl⟩⟩

/-- A submission leaves a job alone, or drives it out of the list. -/
theorem part_submit (h : d.store.jobs = .ok jobs) (hknown : id ≤ newestId jobs) (now : Time)
    (spec : JobSpec) (nodes : List String) (capacity : Nat) (keepsOutput : Bool) :
    part id (step now d (.submit spec nodes capacity keepsOutput))
        (d.relist now jobs (.submit spec nodes capacity keepsOutput)) = part id d jobs ∨
      (∃ job ∈ withId id jobs, job.state.isActive = false) ∧
        part id (step now d (.submit spec nodes capacity keepsOutput))
          (d.relist now jobs (.submit spec nodes capacity keepsOutput)) =
        { part id d jobs with listed := [] } := by
  have hway : (step now d (.submit spec nodes capacity keepsOutput)).run? id = d.run? id ∧
      (step now d (.submit spec nodes capacity keepsOutput)).stream? id = d.stream? id := by
    obtain ⟨-, ⟨hruns, hstreams⟩ | ⟨job, -, hlt, hruns, hstreams⟩⟩ :=
      submit_eq h now spec nodes capacity keepsOutput
    · exact ⟨by rw [run?, hruns, run?], by rw [stream?, hstreams, stream?]⟩
    · have hne : job.id ≠ id := by omega
      refine ⟨?_, ?_⟩
      · rw [run?, hruns, List.find?_append]
        simp [run?, hne]
      · rw [stream?, hstreams, List.find?_append]
        simp [stream?, hne]
  rcases withId_enlist hknown spec nodes capacity now with heq | ⟨hidle, heq⟩
  · exact .inl (by simp only [part, relist, hway, heq])
  · exact .inr ⟨hidle, by simp only [part, relist, hway, heq]⟩

end steps

end Muster.Dispatch
