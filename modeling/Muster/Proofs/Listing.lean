import Muster.Dispatch.Run
import Muster.Proofs.Storing

/-!
# The list of jobs along a run

Events come one after the other, each at a moment of its own. What an event makes of the list of jobs is a
function of the list, as long as the store can be read. A store that can be read at the end could be read
all the time.
-/

namespace Muster.Dispatch

open Store (Readable newestId enlist updateState markCanceling changeFirst finished cancelEnded)

/-- The events of a run, each with its moment. -/
abbrev History := List (Moment × Event)

/-- What happens at a moment. -/
def stepAt (d : Dispatch) (e : Moment × Event) : Dispatch := step e.1.1 d e.2

def runAt (d : Dispatch) (events : History) : Dispatch := events.foldl stepAt d

@[simp] theorem runAt_nil (d : Dispatch) : d.runAt [] = d := rfl

@[simp] theorem runAt_append (d : Dispatch) (s t : History) : d.runAt (s ++ t) = (d.runAt s).runAt t :=
  List.foldl_append

@[simp] theorem runAt_concat (d : Dispatch) (s : History) (e : Moment × Event) :
    d.runAt (s ++ [e]) = (d.runAt s).stepAt e := by
  rw [runAt_append]
  rfl

/-! ### What has happened -/

/-- An event of a run found the jobs in such a state. -/
def Happens (d : Dispatch) (events : History) (p : Dispatch → Moment × Event → Prop) : Prop :=
  ∃ s e, s ++ [e] <+: events ∧ p (d.runAt s) e

/-- The jobs were in such a state at some time. -/
def Reaches (d : Dispatch) (events : History) (p : Dispatch → Prop) : Prop :=
  ∃ s, s <+: events ∧ p (d.runAt s)

@[simp] theorem happens_nil (d : Dispatch) (p : Dispatch → Moment × Event → Prop) :
    ¬ d.Happens [] p := by
  rintro ⟨s, e, h, -⟩
  have := h.length_le
  simp at this

theorem happens_concat (d : Dispatch) (events : History) (e : Moment × Event)
    (p : Dispatch → Moment × Event → Prop) :
    d.Happens (events ++ [e]) p ↔ d.Happens events p ∨ p (d.runAt events) e := by
  constructor
  · rintro ⟨s, e', h, hp⟩
    rcases List.prefix_concat_iff.1 h with heq | h
    · obtain ⟨rfl, he⟩ := List.append_inj' heq rfl
      cases he
      exact .inr hp
    · exact .inl ⟨s, e', h, hp⟩
  · rintro (⟨s, e', h, hp⟩ | hp)
    · exact ⟨s, e', h.trans (List.prefix_append _ _), hp⟩
    · exact ⟨events, e, List.prefix_rfl, hp⟩

theorem reaches_nil (d : Dispatch) (p : Dispatch → Prop) : d.Reaches [] p ↔ p d := by
  constructor
  · rintro ⟨s, h, hp⟩
    rw [List.prefix_nil.1 h] at hp
    exact hp
  · intro hp
    exact ⟨[], List.prefix_rfl, hp⟩

theorem reaches_cons (d : Dispatch) (e : Moment × Event) (events : History) (p : Dispatch → Prop) :
    d.Reaches (e :: events) p ↔ p d ∨ (d.stepAt e).Reaches events p := by
  constructor
  · rintro ⟨s, hs, hp⟩
    cases s with
    | nil => exact .inl hp
    | cons first s =>
      obtain ⟨rfl, hrest⟩ := List.cons_prefix_cons.1 hs
      exact .inr ⟨s, hrest, hp⟩
  · rintro (hp | ⟨s, hs, hp⟩)
    · exact ⟨[], List.nil_prefix, hp⟩
    · exact ⟨e :: s, List.cons_prefix_cons.2 ⟨rfl, hs⟩, hp⟩

theorem reaches_concat (d : Dispatch) (events : History) (e : Moment × Event) (p : Dispatch → Prop) :
    d.Reaches (events ++ [e]) p ↔ d.Reaches events p ∨ p (d.runAt (events ++ [e])) := by
  constructor
  · rintro ⟨s, h, hp⟩
    rcases List.prefix_concat_iff.1 h with heq | h
    · rw [heq] at hp
      exact .inr hp
    · exact .inl ⟨s, h, hp⟩
  · rintro (⟨s, h, hp⟩ | hp)
    · exact ⟨s, h.trans (List.prefix_append _ _), hp⟩
    · exact ⟨events ++ [e], List.prefix_rfl, hp⟩

/-! ### Parts of the state -/

section parts

variable (d : Dispatch)

@[simp] theorem setRun_store (run : Run) : (d.setRun run).store = d.store := rfl

@[simp] theorem setRun_streams (run : Run) : (d.setRun run).streams = d.streams := rfl

@[simp] theorem setRun_cancels (run : Run) : (d.setRun run).cancels = d.cancels := rfl

@[simp] theorem setRun_stream? (run : Run) (id : Int) : (d.setRun run).stream? id = d.stream? id := rfl

@[simp] theorem changeStream_store (id : Int) (f : Stream → Stream) :
    (d.changeStream id f).store = d.store := rfl

@[simp] theorem changeStream_cancels (id : Int) (f : Stream → Stream) :
    (d.changeStream id f).cancels = d.cancels := rfl

@[simp] theorem changeStream_run? (id other : Int) (f : Stream → Stream) :
    (d.changeStream id f).run? other = d.run? other := rfl

@[simp] theorem send_store (id : Int) (node : String) (frames : List Frame) :
    (d.send id node frames).store = d.store := rfl

@[simp] theorem send_cancels (id : Int) (node : String) (frames : List Frame) :
    (d.send id node frames).cancels = d.cancels := rfl

@[simp] theorem send_run? (id other : Int) (node : String) (frames : List Frame) :
    (d.send id node frames).run? other = d.run? other := rfl

@[simp] theorem close_store (id : Int) (fault : Option Fault) : (d.close id fault).store = d.store := rfl

@[simp] theorem close_cancels (id : Int) (fault : Option Fault) :
    (d.close id fault).cancels = d.cancels := rfl

@[simp] theorem setCancel_store (call : Nat) (c : Cancel) : (d.setCancel call c).store = d.store := rfl

@[simp] theorem setCancel_cancels (call : Nat) (c : Cancel) :
    (d.setCancel call c).cancels = d.cancels.set call c := rfl

@[simp] theorem setCancel_run? (call : Nat) (c : Cancel) (id : Int) :
    (d.setCancel call c).run? id = d.run? id := rfl

@[simp] theorem setCancel_stream? (call : Nat) (c : Cancel) (id : Int) :
    (d.setCancel call c).stream? id = d.stream? id := rfl

@[simp] theorem store_run? (store : Store) (id : Int) : { d with store }.run? id = d.run? id := rfl

@[simp] theorem store_stream? (store : Store) (id : Int) :
    { d with store }.stream? id = d.stream? id := rfl

variable {d}

theorem run?_id {id : Int} {run : Run} (h : d.run? id = some run) : run.id = id := by
  simpa using List.find?_some h

theorem stream?_id {id : Int} {s : Stream} (h : d.stream? id = some s) : s.id = id := by
  simpa using List.find?_some h

/-- Where a change keeps the keys, what is found is what was there, changed. -/
theorem find?_map_key {α κ : Type} [BEq κ] (key : α → κ) {f : α → α} (hf : ∀ a, key (f a) = key a)
    (l : List α) (k : κ) :
    (l.map f).find? (fun a => key a == k) = (l.find? fun a => key a == k).map f := by
  rw [List.find?_map]
  have hp : ((fun a => key a == k) ∘ f) = fun a => key a == k := by
    funext a
    simp [hf]
  rw [hp]

theorem setRun_run? (run : Run) (id : Int) :
    (d.setRun run).run? id = (d.run? id).map fun r => if r.id = run.id then run else r := by
  refine find?_map_key Run.id ?_ d.runs id
  intro r
  split
  · rename_i h
    exact h.symm
  · rfl

theorem setRun_run?_self {id : Int} {run : Run} (h : d.run? id = some run) {changed : Run}
    (hid : changed.id = run.id) : (d.setRun changed).run? id = some changed := by
  rw [setRun_run?, h]
  simp [hid]

theorem setRun_run?_of_ne {id : Int} {run : Run} (hne : run.id ≠ id) :
    (d.setRun run).run? id = d.run? id := by
  rw [setRun_run?]
  cases h : d.run? id with
  | none => rfl
  | some r => simp [run?_id h, hne.symm]

theorem changeStream_stream? (id other : Int) {f : Stream → Stream} (hf : ∀ s, (f s).id = s.id) :
    (d.changeStream other f).stream? id = (d.stream? id).map fun s => if s.id = other then f s else s := by
  refine find?_map_key Stream.id ?_ d.streams id
  intro s
  split
  · exact hf s
  · rfl

theorem changeStream_stream?_self (id : Int) {f : Stream → Stream} (hf : ∀ s, (f s).id = s.id) :
    (d.changeStream id f).stream? id = (d.stream? id).map f := by
  rw [changeStream_stream? id id hf]
  cases h : d.stream? id with
  | none => rfl
  | some s => simp [stream?_id h]

theorem changeStream_stream?_of_ne {id other : Int} (hne : other ≠ id) {f : Stream → Stream}
    (hf : ∀ s, (f s).id = s.id) : (d.changeStream other f).stream? id = d.stream? id := by
  rw [changeStream_stream? id other hf]
  cases h : d.stream? id with
  | none => rfl
  | some s => simp [stream?_id h, hne.symm]

/-- The stream with frames of a node behind the others. -/
def Stream.sent (node : String) (frames : List Frame) (s : Stream) : Stream :=
  if s.isLeft then s else { s with frames := s.frames ++ frames.map fun f => (node, f) }

def Stream.closed (fault : Option Fault) (s : Stream) : Stream := { s with isClosed := true, fault }

theorem Stream.sent_id (node : String) (frames : List Frame) (s : Stream) :
    (s.sent node frames).id = s.id := by
  unfold sent
  split <;> rfl

theorem send_stream?_self (id : Int) (node : String) (frames : List Frame) :
    (d.send id node frames).stream? id = (d.stream? id).map (Stream.sent node frames) :=
  changeStream_stream?_self id (Stream.sent_id node frames)

theorem send_stream?_of_ne {id other : Int} (hne : other ≠ id) (node : String) (frames : List Frame) :
    (d.send other node frames).stream? id = d.stream? id :=
  changeStream_stream?_of_ne hne (Stream.sent_id node frames)

@[simp] theorem close_stream?_self (id : Int) (fault : Option Fault) :
    (d.close id fault).stream? id = (d.stream? id).map (Stream.closed fault) :=
  changeStream_stream?_self (d := { d with runs := _ }) id (f := Stream.closed fault) fun _ => rfl

theorem close_stream?_of_ne {id other : Int} (hne : other ≠ id) (fault : Option Fault) :
    (d.close other fault).stream? id = d.stream? id :=
  changeStream_stream?_of_ne (d := { d with runs := _ }) hne (f := Stream.closed fault) fun _ => rfl

@[simp] theorem close_run?_self (id : Int) (fault : Option Fault) : (d.close id fault).run? id = none := by
  unfold close run? changeStream
  simp

theorem close_run?_of_ne {id other : Int} (hne : other ≠ id) (fault : Option Fault) :
    (d.close other fault).run? id = d.run? id := by
  unfold close run? changeStream
  simp only [List.find?_filter]
  congr 1
  funext r
  by_cases h : r.id = id
  · simp [h, hne.symm]
  · simp [h]

end parts

/-! ### The list of jobs -/

/-- What an event makes of the list of jobs. -/
def relist (now : Time) (d : Dispatch) (jobs : List Job) : Event → List Job
  | .submit spec nodes capacity _ => enlist spec nodes capacity now jobs
  | .begin id =>
    match d.run? id with
    | some run =>
      if run.phase = .accepted then (updateState run.id .created .dispatching jobs).1 else jobs
    | none => jobs
  | .launch id =>
    match d.run? id with
    | some run =>
      if run.phase = .dispatching ∧ run.tasks.all Task.isIssued then
        (updateState run.id .dispatching .running jobs).1
      else jobs
    | none => jobs
  | .finish id =>
    match d.run? id with
    | some run =>
      if run.phase = .running ∧ run.tasks.all (·.exitCode?.isSome) then
        changeFirst run.id (finished (failedNodes run) now) jobs
      else jobs
    | none => jobs
  | .cancel ids => (markCanceling ids jobs).1
  | .cancelEnded call id =>
    match d.cancels[call]? with
    | some c =>
      match c.jobs.find? fun j => j.id == id with
      | some j => if j.waiting.isEmpty then changeFirst j.id (cancelEnded j.failed now) jobs else jobs
      | none => jobs
    | none => jobs
  | .answered .. | .reply .. | .ended .. | .leave _ | .cancelAnswered .. => jobs

section listing

variable {d : Dispatch} {jobs : List Job}

theorem timed_relist {now : Time} (hnow : now.IsValid) (h : ∀ job ∈ jobs, job.Timed) (e : Event) :
    ∀ job ∈ d.relist now jobs e, job.Timed := by
  cases e with
  | submit spec nodes capacity keepsOutput => exact Store.timed_enlist hnow spec nodes capacity h
  | cancel ids => exact Store.timed_mark h
  | begin id =>
    simp only [relist]
    split
    · split
      · exact Store.timed_updateState h
      · exact h
    · exact h
  | launch id =>
    simp only [relist]
    split
    · split
      · exact Store.timed_updateState h
      · exact h
    · exact h
  | finish id =>
    simp only [relist]
    split
    · split
      · exact Store.timed_changeFirst (fun job hjob => Store.timed_finished hnow _ hjob) h
      · exact h
    · exact h
  | cancelEnded call id =>
    simp only [relist]
    split
    · split
      · split
        · exact Store.timed_changeFirst (fun job hjob => Store.timed_cancelEnded hnow _ hjob) h
        · exact h
      · exact h
    · exact h
  | answered id node accepted => exact h
  | reply id node r => exact h
  | ended id node => exact h
  | leave id => exact h
  | cancelAnswered call id node accepted => exact h

theorem submit_file (h : d.store.jobs = .ok jobs) (spec : JobSpec) (nodes : List String)
    (capacity : Nat) (keepsOutput : Bool) (now : Time) :
    (d.submit spec nodes capacity keepsOutput now).1.store.file =
      JobDocument.save (enlist spec nodes capacity now jobs) := by
  rw [← Store.createJob_file h]
  unfold submit
  split <;> simp_all

theorem beginRun_file (h : d.store.jobs = .ok jobs) (run : Run) :
    (d.beginRun run).store.file = JobDocument.save (updateState run.id .created .dispatching jobs).1 := by
  unfold beginRun
  rw [Store.changeState_eq h]
  cases (updateState run.id .created .dispatching jobs).2 <;> rfl

theorem launchRun_file (h : d.store.jobs = .ok jobs) (run : Run) :
    (d.launchRun run).store.file = JobDocument.save (updateState run.id .dispatching .running jobs).1 := by
  unfold launchRun
  rw [Store.changeState_eq h]
  rfl

theorem finishRun_file (h : d.store.jobs = .ok jobs) (run : Run) (now : Time) :
    (d.finishRun run now).store.file =
      JobDocument.save (changeFirst run.id (finished (failedNodes run) now) jobs) := by
  unfold finishRun Store.finishJob
  rw [Store.withJob_eq h]
  cases Store.find? run.id jobs <;> rfl

theorem startCancel_file (h : d.store.jobs = .ok jobs) (ids : JobIds) :
    (d.startCancel ids).store.file = JobDocument.save (markCanceling ids jobs).1 := by
  unfold startCancel
  rw [Store.planCancel_eq h]

theorem settle_file (h : d.store.jobs = .ok jobs) (call : Nat) (c : Cancel) (j : CancelJob) (now : Time) :
    (d.settle call c j now).store.file =
      JobDocument.save (changeFirst j.id (cancelEnded j.failed now) jobs) := by
  unfold settle Store.finishCancel
  rw [Store.withJob_eq h]
  cases Store.find? j.id jobs <;> rfl

@[simp] theorem endTask_file (run : Run) (t : Task) (code : Int) :
    (d.endTask run t code).store.file = d.store.file := rfl

@[simp] theorem relay_file (run : Run) (t : Task) (r : Reply) :
    (d.relay run t r).store.file = d.store.file := rfl

/-- An event leaves the file as it is, or writes the list that it makes. -/
theorem step_file (h : d.store.jobs = .ok jobs) (now : Time) (e : Event) :
    (step now d e).store.file = d.store.file ∧ d.relist now jobs e = jobs ∨
      (step now d e).store.file = JobDocument.save (d.relist now jobs e) := by
  cases e with
  | submit spec nodes capacity keepsOutput =>
    exact .inr (submit_file h spec nodes capacity keepsOutput now)
  | cancel ids => exact .inr (startCancel_file h ids)
  | begin id =>
    cases hrun : d.run? id with
    | none => exact .inl (by simp only [step, relist, hrun, and_self])
    | some run =>
      by_cases hp : run.phase = .accepted
      · refine .inr ?_
        simp only [step, relist, hrun, if_pos hp]
        exact beginRun_file h run
      · exact .inl (by simp only [step, relist, hrun, if_neg hp, and_self])
  | launch id =>
    cases hrun : d.run? id with
    | none => exact .inl (by simp only [step, relist, hrun, and_self])
    | some run =>
      by_cases hp : run.phase = .dispatching ∧ run.tasks.all Task.isIssued
      · refine .inr ?_
        simp only [step, relist, hrun, if_pos hp]
        exact launchRun_file h run
      · exact .inl (by simp only [step, relist, hrun, if_neg hp, and_self])
  | finish id =>
    cases hrun : d.run? id with
    | none => exact .inl (by simp only [step, relist, hrun, and_self])
    | some run =>
      by_cases hp : run.phase = .running ∧ run.tasks.all (·.exitCode?.isSome)
      · refine .inr ?_
        simp only [step, relist, hrun, if_pos hp]
        exact finishRun_file h run now
      · exact .inl (by simp only [step, relist, hrun, if_neg hp, and_self])
  | cancelEnded call id =>
    cases hc : d.cancels[call]? with
    | none => exact .inl (by simp only [step, relist, hc, and_self])
    | some c =>
      cases hj : c.jobs.find? fun j => j.id == id with
      | none => exact .inl (by simp only [step, relist, hc, hj, and_self])
      | some j =>
        by_cases hw : j.waiting.isEmpty
        · refine .inr ?_
          simp only [step, relist, hc, hj, if_pos hw]
          exact settle_file h call c j now
        · refine .inl ?_
          simp only [step, relist, hc, hj, if_neg hw, and_self]
  | answered id node accepted =>
    refine .inl ⟨?_, rfl⟩
    simp only [step]
    repeat' split
    all_goals rfl
  | reply id node r =>
    refine .inl ⟨?_, rfl⟩
    simp only [step]
    repeat' split
    all_goals rfl
  | ended id node =>
    refine .inl ⟨?_, rfl⟩
    simp only [step]
    repeat' split
    all_goals rfl
  | leave id => exact .inl ⟨rfl, rfl⟩
  | cancelAnswered call id node accepted =>
    refine .inl ⟨?_, rfl⟩
    simp only [step]
    split <;> rfl

/-- The list after an event, where it can be read. -/
theorem jobs_stepAt (h : d.store.jobs = .ok jobs) (e : Moment × Event)
    (hr : (d.stepAt e).store.Readable) :
    (d.stepAt e).store.jobs = .ok (d.relist e.1.1 jobs e.2) := by
  rcases step_file h e.1.1 e.2 with ⟨hfile, hlist⟩ | hfile
  · rw [hlist, ← h]
    exact congrArg JobDocument.load hfile
  · exact Store.jobs_of_file hfile (timed_relist e.1.2 (Store.timed_of_jobs h) e.2) hr

/-- A store that cannot be read stays so. -/
theorem step_file_of_error {fault : Fault} (h : d.store.jobs = .error fault) (now : Time) (e : Event) :
    (step now d e).store.file = d.store.file := by
  cases e with
  | submit spec nodes capacity keepsOutput =>
    simp only [step, submit, Store.createJob_of_error h]
  | cancel ids => simp only [step, startCancel, Store.planCancel_of_error h]
  | begin id =>
    simp only [step, beginRun, Store.changeState_of_error h]
    repeat' split
    all_goals rfl
  | launch id =>
    simp only [step, launchRun, Store.changeState_of_error h]
    repeat' split
    all_goals rfl
  | finish id =>
    simp only [step, finishRun, Store.finishJob, Store.withJob_of_error h]
    repeat' split
    all_goals rfl
  | cancelEnded call id =>
    simp only [step, settle, Store.finishCancel, Store.withJob_of_error h]
    repeat' split
    all_goals rfl
  | answered id node accepted =>
    simp only [step]
    repeat' split
    all_goals rfl
  | reply id node r =>
    simp only [step]
    repeat' split
    all_goals rfl
  | ended id node =>
    simp only [step]
    repeat' split
    all_goals rfl
  | leave id => rfl
  | cancelAnswered call id node accepted =>
    simp only [step]
    split <;> rfl

theorem readable_of_stepAt {e : Moment × Event} (hr : (d.stepAt e).store.Readable) :
    d.store.Readable := by
  cases h : d.store.jobs with
  | ok jobs => exact ⟨jobs, h⟩
  | error fault =>
    obtain ⟨jobs, hjobs⟩ := hr
    have hfile : (d.stepAt e).store.jobs = d.store.jobs :=
      congrArg JobDocument.load (step_file_of_error h e.1.1 e.2)
    rw [hfile, h] at hjobs
    cases hjobs

/-- A list that is read after an event is what the event makes of the list before. -/
theorem jobs_of_stepAt {e : Moment × Event} {after : List Job} (h : (d.stepAt e).store.jobs = .ok after) :
    ∃ before, d.store.jobs = .ok before ∧ after = d.relist e.1.1 before e.2 := by
  obtain ⟨before, hbefore⟩ := readable_of_stepAt ⟨after, h⟩
  have hjobs := jobs_stepAt hbefore e ⟨after, h⟩
  rw [h, Except.ok.injEq] at hjobs
  exact ⟨before, hbefore, hjobs⟩

/-- A store that can be read at the end of a run could be read at any time. -/
theorem readable_of_runAt {s events : History} (hs : s <+: events)
    (hr : (d.runAt events).store.Readable) : (d.runAt s).store.Readable := by
  induction events using List.reverseRecOn with
  | nil =>
    rw [List.prefix_nil.1 hs]
    exact hr
  | append_singleton events e ih =>
    rcases List.prefix_concat_iff.1 hs with heq | hs
    · rw [heq]
      exact hr
    · rw [runAt_concat] at hr
      exact ih hs (readable_of_stepAt hr)

end listing

end Muster.Dispatch
