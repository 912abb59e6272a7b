import Muster.Execution
import Muster.Proofs.Sorted

/-!
# Executions under a label

An execution is pending until its process is there, and then as long as the process lives. A worker knows
an execution under its label only in the second part of that time, so that a cancellation can miss it.
-/

namespace Muster

namespace Execution

/-- The execution runs its command, or can still come to run it. -/
def isPending (e : Execution) : Bool :=
  match e.phase with
  | .accepted | .written => true
  | _ => e.isAlive

/-- The worker can know the execution under its label. -/
def isRegistered (e : Execution) : Bool :=
  match e.phase with
  | .running | .settled _ => true
  | _ => false

/-- Where a process has to be, there is one. -/
def HasProcess (e : Execution) : Prop := e.phase = .spawned ∨ e.phase = .running → e.process.isSome

/-- The execution may have gone on to the other one. -/
structure Follows (e e' : Execution) : Prop where
  label : e'.label = e.label
  pending : e'.isPending → e.isPending
  process : e.HasProcess → e'.HasProcess

section sending

variable (e : Execution)

@[simp] theorem send_label (f : Frame) : (e.send f).label = e.label := by
  unfold send
  split <;> rfl

@[simp] theorem send_phase (f : Frame) : (e.send f).phase = e.phase := by
  unfold send
  split <;> rfl

@[simp] theorem send_process (f : Frame) : (e.send f).process = e.process := by
  unfold send
  split <;> rfl

@[simp] theorem sendText_label (s : Source) (text : List Char) : (e.sendText s text).label = e.label := by
  unfold sendText
  split <;> simp

@[simp] theorem sendText_phase (s : Source) (text : List Char) : (e.sendText s text).phase = e.phase := by
  unfold sendText
  split <;> simp

@[simp] theorem sendText_process (s : Source) (text : List Char) :
    (e.sendText s text).process = e.process := by
  unfold sendText
  split <;> simp

@[simp] theorem sendText_pipe (s : Source) (text : List Char) (t : Source) :
    (e.sendText s text).pipe t = e.pipe t := by
  unfold sendText send
  split
  · rfl
  · cases t <;> split <;> rfl

theorem setPipe_pipe (s t : Source) (p : Pipe) :
    (e.setPipe s p).pipe t = if t = s then p else e.pipe t := by
  cases s <;> cases t <;> rfl

@[simp] theorem setPipe_label (s : Source) (p : Pipe) : (e.setPipe s p).label = e.label := by
  cases s <;> rfl

@[simp] theorem setPipe_phase (s : Source) (p : Pipe) : (e.setPipe s p).phase = e.phase := by
  cases s <;> rfl

@[simp] theorem setPipe_process (s : Source) (p : Pipe) : (e.setPipe s p).process = e.process := by
  cases s <;> rfl

end sending

variable {e : Execution}

theorem read_label (s : Source) (octets : List UInt8) : (e.read s octets).label = e.label := by
  unfold read
  split <;> simp

theorem read_phase (s : Source) (octets : List UInt8) : (e.read s octets).phase = e.phase := by
  unfold read
  split <;> simp

theorem read_process (s : Source) (octets : List UInt8) : (e.read s octets).process = e.process := by
  unfold read
  split <;> simp

theorem close_label (s : Source) : (e.close s).label = e.label := by
  unfold close
  split <;> simp

theorem close_phase (s : Source) : (e.close s).phase = e.phase := by
  unfold close
  split <;> simp

theorem close_process (s : Source) : (e.close s).process = e.process := by
  unfold close
  split <;> simp

theorem close_closed (hphase : e.phase = .running) (s t : Source) :
    ((e.close s).pipe t).closed = (t == s || (e.pipe t).closed) := by
  unfold close
  split
  · rename_i h
    have hclosed : (e.pipe s).closed := by simpa [hphase] using h
    by_cases hts : t = s
    · simp [hts, hclosed]
    · simp [hts]
  · by_cases hts : t = s
    · simp [setPipe_pipe, hts]
    · simp [setPipe_pipe, hts]

theorem die_isAlive (code : Option Int) : (e.die code).isAlive = false := by
  unfold die
  split
  · rfl
  · rename_i h
    simpa using h

theorem die_phase (code : Option Int) : (e.die code).phase = e.phase := by
  unfold die
  split <;> rfl

theorem die_label (code : Option Int) : (e.die code).label = e.label := by
  unfold die
  split <;> rfl

theorem die_process (code : Option Int) : (e.die code).process.isSome = e.process.isSome := by
  unfold die
  split
  · rename_i halive
    have hprocess : e.process = some .alive := by simpa [isAlive] using halive
    simp [hprocess]
  · rfl

theorem collect_label (waitFails : Bool) : (e.collect waitFails).label = e.label := by
  unfold collect
  split
  · split <;> rfl
  · rfl

theorem collect_phase (hphase : e.phase = .running) {code : Option Int} (hdead : e.process = some (.dead code))
    (hout : (e.pipe .out).closed) (herr : (e.pipe .err).closed) :
    (e.collect false).phase = .settled (code.getD exitFailed) := by
  have hall : e.phase = .running ∧ e.out.closed ∧ e.err.closed := ⟨hphase, hout, herr⟩
  simp only [collect, hdead, if_pos hall, Bool.false_eq_true, if_false]

end Execution

namespace Executor

open Execution (Source Writing)

variable {x : Executor} {i : Nat} {e : Execution}

@[simp] theorem change_running (i : Nat) (f : Execution → Execution) :
    (x.change i f).running = x.running := rfl

theorem getElem?_change (h : x.executions[i]? = some e) (f : Execution → Execution) (j : Nat) :
    (x.change i f).executions[j]? = if i = j then some (f e) else x.executions[j]? := by
  simp only [change, List.getElem?_modify]
  split
  · rename_i hij
    rw [← hij, h]
    rfl
  · simp

@[simp] theorem putScript_executions (label text : String) :
    (x.putScript label text).executions = x.executions := rfl

@[simp] theorem putScript_running (label text : String) : (x.putScript label text).running = x.running := rfl

theorem step_of_owner {event : Event} (hi : x.executions[i]? = some e) (howner : event.owner? = some i) :
    x.step event = x.stepOne i e event := by
  cases event <;> simp only [Event.owner?, Option.some.injEq, reduceCtorEq] at howner <;> subst howner <;>
    simp only [step, Event.owner?, hi]

theorem step_of_no_owner {event : Event} (hi : x.executions[i]? = none) (howner : event.owner? = some i) :
    x.step event = x := by
  cases event <;> simp only [Event.owner?, Option.some.injEq, reduceCtorEq] at howner <;> subst howner <;>
    simp only [step, Event.owner?, hi]

/-- The directory for scripts stays where it is. -/
@[simp] theorem step_home (x : Executor) (event : Event) : (x.step event).home = x.home := by
  have hone (i : Nat) (e : Execution) : (x.stepOne i e event).home = x.home := by
    cases event with
    | writeScript _ writing =>
      simp only [stepOne]
      split
      · cases writing with
        | done => rfl
        | failed reason leavesFile => cases leavesFile <;> rfl
      · rfl
    | spawn | register | unregister | removeScript | report =>
      simp only [stepOne]
      split <;> rfl
    | _ => rfl
  cases howner : event.owner? with
  | some i =>
    cases hi : x.executions[i]? with
    | none => rw [step_of_no_owner hi howner]
    | some e =>
      rw [step_of_owner hi howner]
      exact hone i e
  | none =>
    cases event <;> simp only [Event.owner?, reduceCtorEq] at howner
    case accept label command arguments =>
      simp only [step]
      split <;> rfl
    case cancel label isRefused =>
      simp only [step]
      split
      · split <;> rfl
      · rfl

/-! ### What an execution does next -/

/-- How an event changes an execution, the processes that are known, and the files. -/
inductive Advance (x : Executor) (i : Nat) (e : Execution) (event : Event) :
    Execution → SortedMap String Nat → Files → Prop
  | kept {e' : Execution} (hlabel : e'.label = e.label) (hphase : e'.phase = e.phase)
      (hprocess : e'.process.isSome = e.process.isSome) (halive : e'.isAlive → e.isAlive) :
      Advance x i e event e' x.running x.files
  | wrote {e' : Execution} {writing : Writing} {files : Files} (he : event = .writeScript i writing)
      (hphase : e.phase = .accepted) (hlabel : e'.label = e.label) (hprocess : e'.process = e.process)
      (hnext : e'.phase = .written ∨ ∃ code, e'.phase = .settled code)
      (hfiles : files = x.files ∨ ∃ text, files = (x.putScript e.label text).files) :
      Advance x i e event e' x.running files
  | spawned {e' : Execution} (hphase : e.phase = .written) (hlabel : e'.label = e.label)
      (hnext : e'.phase = .spawned ∧ e'.process = some .alive ∨
        e'.process = e.process ∧ ∃ code, e'.phase = .settled code) :
      Advance x i e event e' x.running x.files
  | registered (hphase : e.phase = .spawned) :
      Advance x i e event { e with phase := .running } (x.running.insert e.label i) x.files
  | collected {e' : Execution} {code : Int} {exit : Option Int} (hphase : e.phase = .running)
      (hlabel : e'.label = e.label) (hnext : e'.phase = .settled code) (hdead : e'.process = some (.dead exit)) :
      Advance x i e event e' x.running x.files
  | unregistered {code : Int} (hphase : e.phase = .settled code) :
      Advance x i e event { e with phase := .unregistered code } (x.running.erase e.label) x.files
  | cleared {code : Int} {isRefused : Bool} {files : Files} (he : event = .removeScript i isRefused)
      (hphase : e.phase = .unregistered code)
      (hfiles : files = if isRefused then x.files else x.files.removeFile (Execution.script x.home e.label)) :
      Advance x i e event { e with phase := .cleared code } x.running files
  | ended {e' : Execution} {code : Int} (hphase : e.phase = .cleared code) (hlabel : e'.label = e.label)
      (hprocess : e'.process = e.process) (hnext : e'.phase = .ended code) :
      Advance x i e event e' x.running x.files

/-- An execution has gone on, and the others are as they were. -/
def Advances (x : Executor) (i : Nat) (e : Execution) (event : Event) (x' : Executor) : Prop :=
  ∃ e', Advance x i e event e' x'.running x'.files ∧
    ∀ j, x'.executions[j]? = if i = j then some e' else x.executions[j]?

section advances

variable {event : Event}

theorem advances_self (h : x.executions[i]? = some e) : x.Advances i e event x := by
  refine ⟨e, .kept rfl rfl rfl fun h => h, ?_⟩
  intro j
  split
  · rename_i hij
    rw [← hij, h]
  · rfl

theorem advances_change {y : Executor} {f : Execution → Execution} (h : x.executions[i]? = some e)
    (hexecutions : y.executions = x.executions) (hadvance : Advance x i e event (f e) y.running y.files) :
    x.Advances i e event (y.change i f) := by
  refine ⟨f e, hadvance, ?_⟩
  intro j
  have hy : y.executions[i]? = some e := by rw [hexecutions, h]
  rw [getElem?_change hy, hexecutions]

theorem advances_die (h : x.executions[i]? = some e) (code : Option Int) :
    x.Advances i e event (x.change i fun e => e.die code) :=
  advances_change (f := fun e => e.die code) h rfl
    (.kept (Execution.die_label code) (Execution.die_phase code) (Execution.die_process code)
      (by simp [Execution.die_isAlive]))

/-- What an event of an execution does. -/
theorem advances_stepOne (h : x.executions[i]? = some e) (howner : event.owner? = some i) :
    x.Advances i e event (x.stepOne i e event) := by
  cases event <;> simp only [Event.owner?, Option.some.injEq, reduceCtorEq] at howner <;> subst howner
  case writeScript k writing =>
    by_cases hphase : e.phase = .accepted
    · simp only [stepOne, if_pos hphase, writeScript]
      cases writing with
      | done => exact advances_change h rfl (.wrote rfl hphase rfl rfl (.inl rfl) (.inr ⟨_, rfl⟩))
      | failed reason leavesFile =>
        refine advances_change h (by split <;> rfl) ?_
        cases leavesFile with
        | true =>
          exact .wrote rfl hphase (by simp [Execution.fail]) (by simp [Execution.fail]) (.inr ⟨_, rfl⟩)
            (.inr ⟨_, rfl⟩)
        | false =>
          exact .wrote rfl hphase (by simp [Execution.fail]) (by simp [Execution.fail]) (.inr ⟨_, rfl⟩) (.inl rfl)
    · simp only [stepOne, if_neg hphase]
      exact advances_self h
  case spawn k failure =>
    by_cases hphase : e.phase = .written
    · simp only [stepOne, if_pos hphase]
      cases failure with
      | none => exact advances_change h rfl (.spawned hphase rfl (.inl ⟨rfl, rfl⟩))
      | some reason =>
        exact advances_change h rfl
          (.spawned hphase (by simp [Execution.fail]) (.inr ⟨by simp [Execution.fail], _, rfl⟩))
    · simp only [stepOne, if_neg hphase]
      exact advances_self h
  case register k =>
    by_cases hphase : e.phase = .spawned
    · simp only [stepOne, if_pos hphase]
      exact advances_change (y := { x with running := _ }) h rfl (.registered hphase)
    · simp only [stepOne, if_neg hphase]
      exact advances_self h
  case read k source octets =>
    have hprocess := Execution.read_process (e := e) source octets
    exact advances_change h rfl (.kept (Execution.read_label source octets) (Execution.read_phase source octets)
      (by rw [hprocess]) (by simp [Execution.isAlive, hprocess]))
  case close k source =>
    have hprocess := Execution.close_process (e := e) source
    exact advances_change h rfl (.kept (Execution.close_label source) (Execution.close_phase source)
      (by rw [hprocess]) (by simp [Execution.isAlive, hprocess]))
  case exit k code => exact advances_die h code
  case collect k waitFails =>
    refine advances_change h rfl ?_
    unfold Execution.collect
    split
    · rename_i code hdead
      split
      · rename_i hall
        exact .collected hall.1 rfl rfl hdead
      · exact .kept rfl rfl rfl fun h => h
    · exact .kept rfl rfl rfl fun h => h
  case unregister k =>
    cases hphase : e.phase with
    | settled code =>
      simp only [stepOne, hphase]
      exact advances_change (y := { x with running := _ }) h rfl (.unregistered hphase)
    | _ =>
      simp only [stepOne, hphase]
      exact advances_self h
  case removeScript k isRefused =>
    cases hphase : e.phase with
    | unregistered code =>
      simp only [stepOne, hphase]
      exact advances_change (y := { x with files := _ }) h rfl (.cleared rfl hphase rfl)
    | _ =>
      simp only [stepOne, hphase]
      exact advances_self h
  case report k =>
    cases hphase : e.phase with
    | cleared code =>
      simp only [stepOne, hphase]
      exact advances_change h rfl (.ended hphase (by simp) (by simp) rfl)
    | _ =>
      simp only [stepOne, hphase]
      exact advances_self h
  case leave k => exact advances_change h rfl (.kept rfl rfl rfl fun h => h)

/-- What an event does: nothing, or one execution goes on, or there is one more. -/
theorem advances_step (x : Executor) (event : Event) :
    x.step event = x ∨
      (∃ i e, x.executions[i]? = some e ∧ (∀ j, event.owner? = some j → j = i) ∧ x.Advances i e event (x.step event)) ∨
        ∃ label command arguments, event = .accept label command arguments ∧ x.isRunning label = false ∧
          x.step event = { x with executions := x.executions ++ [{ label, command, arguments }] } := by
  cases howner : event.owner? with
  | some i =>
    cases h : x.executions[i]? with
    | none => exact .inl (step_of_no_owner h howner)
    | some e =>
      refine .inr (.inl ⟨i, e, h, fun j hj => (Option.some.inj hj).symm, ?_⟩)
      rw [step_of_owner h howner]
      exact advances_stepOne h howner
  | none =>
    cases event <;> simp only [Event.owner?, reduceCtorEq] at howner
    case accept label command arguments =>
      by_cases hrunning : x.isRunning label
      · exact .inl (by simp [step, hrunning])
      · exact .inr (.inr ⟨label, command, arguments, rfl, by simpa using hrunning, by simp [step, hrunning]⟩)
    case cancel label isRefused =>
      simp only [step]
      split
      · rename_i i hi
        split
        · exact .inl rfl
        · cases h : x.executions[i]? with
          | none =>
            refine .inl ?_
            simp only [change, List.modify_eq_self (List.getElem?_eq_none_iff.1 h)]
          | some e => exact .inr (.inl ⟨i, e, h, by simp, advances_die h none⟩)
      · exact .inl rfl

/-- An execution that has gone on follows what it was. -/
theorem Advance.follows {e' : Execution} {running : SortedMap String Nat} {files : Files}
    (h : Advance x i e event e' running files) : e.Follows e' := by
  cases h with
  | kept hlabel hphase hprocess halive =>
    refine ⟨hlabel, ?_, ?_⟩
    · unfold Execution.isPending
      rw [hphase]
      split
      · exact fun h => h
      · exact fun h => h
      · exact halive
    · simp only [Execution.HasProcess, hphase, hprocess, imp_self]
  | wrote _ hphase hlabel _ hnext =>
    refine ⟨hlabel, by simp [Execution.isPending, hphase], ?_⟩
    intro _ hlater
    rcases hnext with hwritten | ⟨code, hcode⟩ <;> simp_all
  | spawned hphase hlabel hnext =>
    refine ⟨hlabel, by simp [Execution.isPending, hphase], ?_⟩
    intro _ hlater
    rcases hnext with ⟨-, halive⟩ | ⟨-, code, hcode⟩
    · rw [halive]
      rfl
    · simp [hcode] at hlater
  | registered hphase =>
    refine ⟨rfl, ?_, fun hprocess _ => hprocess (.inl hphase)⟩
    simp [Execution.isPending, Execution.isAlive, hphase]
  | collected _ hlabel hnext hdead =>
    refine ⟨hlabel, ?_, ?_⟩
    · simp [Execution.isPending, Execution.isAlive, hnext, hdead]
    · simp [Execution.HasProcess, hnext]
  | unregistered hphase | cleared _ hphase =>
    refine ⟨rfl, ?_, ?_⟩
    · simp [Execution.isPending, Execution.isAlive, hphase]
    · simp [Execution.HasProcess]
  | ended hphase hlabel hprocess hnext =>
    refine ⟨hlabel, ?_, ?_⟩
    · simp [Execution.isPending, Execution.isAlive, hphase, hprocess, hnext]
    · simp [Execution.HasProcess, hnext]

end advances

/-- One execution of the worker has gone on; the worker may have noted or forgotten its label. -/
def GoesOn (x : Executor) (i : Nat) (e : Execution) (x' : Executor) : Prop :=
  ∃ e', e.Follows e' ∧ (∀ j, x'.executions[j]? = if i = j then some e' else x.executions[j]?) ∧
    (x'.running = x.running ∧ (e.isRegistered → e'.isRegistered) ∨
      x'.running = x.running.insert e.label i ∧ e'.isRegistered ∨ x'.running = x.running.erase e.label)

theorem Advances.goesOn {event : Event} {x' : Executor} (h : x.Advances i e event x') : x.GoesOn i e x' := by
  obtain ⟨e', hadvance, hexecutions⟩ := h
  refine ⟨e', hadvance.follows, hexecutions, ?_⟩
  generalize x'.running = running, x'.files = files at hadvance ⊢
  cases hadvance with
  | kept _ hphase => exact .inl ⟨rfl, by simp [Execution.isRegistered, hphase]⟩
  | wrote _ hphase | spawned hphase | cleared _ hphase | ended hphase =>
    exact .inl ⟨rfl, by simp [Execution.isRegistered, hphase]⟩
  | registered => exact .inr (.inl ⟨rfl, rfl⟩)
  | collected _ _ hnext => exact .inl ⟨rfl, by simp [Execution.isRegistered, hnext]⟩
  | unregistered => exact .inr (.inr rfl)

/-- What an event makes of the executions: nothing, or one of them goes on, or there is one more. -/
theorem step_cases (x : Executor) (event : Event) :
    x.step event = x ∨ (∃ i e, x.executions[i]? = some e ∧ x.GoesOn i e (x.step event)) ∨
      ∃ label command arguments, event = .accept label command arguments ∧ x.isRunning label = false ∧
        x.step event = { x with executions := x.executions ++ [{ label, command, arguments }] } := by
  refine (advances_step x event).imp_right (Or.imp_left ?_)
  rintro ⟨i, e, hi, -, hadvances⟩
  exact ⟨i, e, hi, hadvances.goesOn⟩

/-! ### What is pending -/

/-- An execution under the label runs, or can still come to run. -/
def Pending (label : String) (x : Executor) : Prop := ∃ e ∈ x.executions, e.label = label ∧ e.isPending

/-- What is pending under the label is known under it. -/
def Knows (label : String) (x : Executor) : Prop :=
  ∀ i e, x.executions[i]? = some e → e.label = label → e.isPending → x.running.get? label = some i

/-- A process runs under the label. -/
def Alive (label : String) (x : Executor) : Prop := ∃ e ∈ x.executions, e.label = label ∧ e.isAlive

instance (label : String) (x : Executor) : Decidable (x.Alive label) :=
  inferInstanceAs (Decidable (∃ e ∈ x.executions, e.label = label ∧ e.isAlive))

/-- What is known under the label is an execution whose process has been there. -/
structure Orderly (label : String) (x : Executor) : Prop where
  known : ∀ i, x.running.get? label = some i →
    ∃ e, x.executions[i]? = some e ∧ e.label = label ∧ e.isRegistered
  process : ∀ e ∈ x.executions, e.label = label → e.HasProcess

variable {label : String}

/-- An execution under the label was there before, or a new command has come. -/
theorem exists_label_of_step {event : Event} {u : Execution} (hu : u ∈ (x.step event).executions)
    (hlabel : u.label = label) :
    (∃ e ∈ x.executions, e.label = label) ∨ ∃ command arguments, event = .accept label command arguments := by
  rcases step_cases x event with hstep | ⟨i, e, hi, e', hf, hexecutions, -⟩ |
    ⟨other, command, arguments, rfl, -, hstep⟩
  · exact .inl ⟨u, hstep ▸ hu, hlabel⟩
  · obtain ⟨j, hj⟩ := List.getElem?_of_mem hu
    rw [hexecutions] at hj
    split at hj
    · cases hj
      exact .inl ⟨e, List.mem_of_getElem? hi, hf.label ▸ hlabel⟩
    · exact .inl ⟨u, List.mem_of_getElem? hj, hlabel⟩
  · rw [hstep] at hu
    rcases List.mem_append.1 hu with hu | hu
    · exact .inl ⟨u, hu, hlabel⟩
    · rw [List.mem_singleton.1 hu] at hlabel
      exact .inr ⟨command, arguments, by rw [← hlabel]⟩

/-- Only a new command makes something pending again. -/
theorem pending_step (h : ¬ x.Pending label) {event : Event}
    (hother : ∀ command arguments, event ≠ .accept label command arguments) :
    ¬ (x.step event).Pending label := by
  rcases step_cases x event with hstep | ⟨i, e, hi, e', hf, hexecutions, -⟩ |
    ⟨other, command, arguments, rfl, -, hstep⟩
  · rw [hstep]
    exact h
  · rintro ⟨u, hu, hlabel, hpending⟩
    obtain ⟨j, hj⟩ := List.getElem?_of_mem hu
    rw [hexecutions] at hj
    split at hj
    · cases hj
      exact h ⟨e, List.mem_of_getElem? hi, hf.label ▸ hlabel, hf.pending hpending⟩
    · exact h ⟨u, List.mem_of_getElem? hj, hlabel, hpending⟩
  · rw [hstep]
    rintro ⟨u, hu, hlabel, hpending⟩
    rcases List.mem_append.1 hu with hu | hu
    · exact h ⟨u, hu, hlabel, hpending⟩
    · rw [List.mem_singleton.1 hu] at hlabel
      subst hlabel
      exact hother command arguments rfl

theorem orderly_step (h : x.Orderly label) (event : Event) : (x.step event).Orderly label := by
  rcases step_cases x event with hstep | ⟨i, e, hi, e', hf, hexecutions, hrunning⟩ |
    ⟨other, command, arguments, rfl, -, hstep⟩
  · rw [hstep]
    exact h
  · have hprocess : ∀ u ∈ (x.step event).executions, u.label = label → u.HasProcess := by
      intro u hu hlabel
      obtain ⟨j, hj⟩ := List.getElem?_of_mem hu
      rw [hexecutions] at hj
      split at hj
      · cases hj
        exact hf.process (h.process e (List.mem_of_getElem? hi) (hf.label ▸ hlabel))
      · exact h.process u (List.mem_of_getElem? hj) hlabel
    refine ⟨?_, hprocess⟩
    intro k hk
    -- Another execution is the one that is known, and it stays as it was.
    have hkept (hold : x.running.get? label = some k) (hne : i ≠ k) :
        ∃ u, (x.step event).executions[k]? = some u ∧ u.label = label ∧ u.isRegistered := by
      obtain ⟨u, hu, hlabel, hregistered⟩ := h.known k hold
      exact ⟨u, by rw [hexecutions, if_neg hne, hu], hlabel, hregistered⟩
    rcases hrunning with ⟨hsame, hregistered⟩ | ⟨hinsert, hregistered⟩ | herase
    · rw [hsame] at hk
      by_cases hik : i = k
      · subst hik
        obtain ⟨u, hu, hlabel, hold⟩ := h.known i hk
        rw [hi, Option.some.injEq] at hu
        subst hu
        exact ⟨e', by rw [hexecutions, if_pos rfl], hf.label.trans hlabel, hregistered hold⟩
      · exact hkept hk hik
    · rw [hinsert] at hk
      by_cases hlabel : label = e.label
      · subst hlabel
        rw [SortedMap.get?_insert_self, Option.some.injEq] at hk
        subst hk
        exact ⟨e', by rw [hexecutions, if_pos rfl], hf.label, hregistered⟩
      · rw [SortedMap.get?_insert_of_ne _ _ hlabel] at hk
        refine hkept hk ?_
        rintro rfl
        obtain ⟨u, hu, hname, -⟩ := h.known i hk
        rw [hi, Option.some.injEq] at hu
        subst hu
        exact hlabel hname.symm
    · rw [herase, SortedMap.get?_erase_eq_some_iff] at hk
      refine hkept hk.2 ?_
      rintro rfl
      obtain ⟨u, hu, hname, -⟩ := h.known i hk.2
      rw [hi, Option.some.injEq] at hu
      subst hu
      exact hk.1 hname.symm
  · rw [hstep]
    refine ⟨?_, ?_⟩
    · intro k hk
      obtain ⟨u, hu, hlabel, hregistered⟩ := h.known k hk
      exact ⟨u, List.getElem?_append_left (List.getElem?_eq_some_iff.1 hu).1 ▸ hu, hlabel, hregistered⟩
    · intro u hu hlabel
      rcases List.mem_append.1 hu with hu | hu
      · exact h.process u hu hlabel
      · rw [List.mem_singleton.1 hu]
        simp [Execution.HasProcess]

/-- A cancellation ends what is known under the label. -/
theorem not_pending_cancel (h : x.Orderly label) (hknows : x.Knows label) :
    ¬ (x.step (.cancel label false)).Pending label := by
  rintro ⟨u, hu, hlabel, hpending⟩
  obtain ⟨j, hj⟩ := List.getElem?_of_mem hu
  cases hi : x.running.get? label with
  | none =>
    simp only [step, hi] at hj
    have hknown := hknows j u hj hlabel hpending
    rw [hi] at hknown
    cases hknown
  | some i =>
    obtain ⟨e, he, -, hregistered⟩ := h.known i hi
    simp only [step, hi, Bool.false_eq_true, if_false] at hj
    rw [getElem?_change he] at hj
    split at hj
    · cases hj
      unfold Execution.isPending at hpending
      unfold Execution.isRegistered at hregistered
      rw [Execution.die_phase, Execution.die_isAlive] at hpending
      cases hphase : e.phase <;> simp_all
    · rename_i hne
      have hknown := hknows j u hj hlabel hpending
      rw [hi, Option.some.injEq] at hknown
      exact hne hknown

/-! ### What can still come -/

/-- The events are all of executions that there are. -/
def Own (events : List Event) : Prop := ∀ event ∈ events, event.owner?.isSome

theorem alive_spawn (hi : x.executions[i]? = some e) (hlabel : e.label = label) (hphase : e.phase = .written) :
    (x.step (.spawn i none)).Alive label := by
  rw [step_of_owner hi rfl]
  simp only [stepOne, if_pos hphase]
  have hafter := getElem?_change hi (fun e => { e with phase := .spawned, process := some .alive }) i
  rw [if_pos rfl] at hafter
  exact ⟨_, List.mem_of_getElem? hafter, hlabel, rfl⟩

theorem alive_write_spawn (hi : x.executions[i]? = some e) (hlabel : e.label = label)
    (hphase : e.phase = .accepted) : (x.run [.writeScript i .done, .spawn i none]).Alive label := by
  have hstep : x.step (.writeScript i .done) = x.writeScript i e .done := by
    rw [step_of_owner hi rfl]
    simp only [stepOne, if_pos hphase]
  have hafter :=
    getElem?_change (x := x.putScript e.label e.command) hi (fun e => { e with phase := .written }) i
  rw [if_pos rfl] at hafter
  change ((x.step (.writeScript i .done)).step (.spawn i none)).Alive label
  rw [hstep]
  exact alive_spawn hafter hlabel rfl

/-- What is pending can come to run. -/
theorem exists_alive_of_pending (h : x.Pending label) : ∃ events, Own events ∧ (x.run events).Alive label := by
  obtain ⟨e, he, hlabel, hpending⟩ := h
  obtain ⟨i, hi⟩ := List.getElem?_of_mem he
  cases hphase : e.phase with
  | accepted => exact ⟨_, by simp [Own, Event.owner?], alive_write_spawn hi hlabel hphase⟩
  | written => exact ⟨[.spawn i none], by simp [Own, Event.owner?], alive_spawn hi hlabel hphase⟩
  | _ =>
    refine ⟨[], by simp [Own], e, he, hlabel, ?_⟩
    simpa [Execution.isPending, hphase] using hpending

theorem isRunning_unregister (hi : x.executions[i]? = some e) (hlabel : e.label = label) {code : Int}
    (hphase : e.phase = .settled code) : (x.step (.unregister i)).isRunning label = false := by
  rw [step_of_owner hi rfl]
  simp only [stepOne, hphase]
  subst hlabel
  simp [isRunning, SortedMap.contains]

theorem isRunning_collect (hi : x.executions[i]? = some e) (hlabel : e.label = label)
    (hphase : e.phase = .running) {code : Option Int} (hdead : e.process = some (.dead code)) :
    (x.run [.close i .out, .close i .err, .collect i false, .unregister i]).isRunning label = false := by
  have hout := getElem?_change hi (fun e => e.close .out) i
  rw [if_pos rfl] at hout
  have herr := getElem?_change hout (fun e => e.close .err) i
  rw [if_pos rfl] at herr
  have hcollect := getElem?_change herr (fun e => e.collect false) i
  rw [if_pos rfl] at hcollect
  have hclosing : x.step (.close i .out) = x.change i fun e => e.close .out := step_of_owner hi rfl
  have hclosing' : (x.step (.close i .out)).step (.close i .err) = (x.change i fun e => e.close .out).change i
      fun e => e.close .err := by
    rw [hclosing]
    exact step_of_owner hout rfl
  have hcollecting : ((x.step (.close i .out)).step (.close i .err)).step (.collect i false) =
      ((x.change i fun e => e.close .out).change i fun e => e.close .err).change i
        fun e => e.collect false := by
    rw [hclosing']
    exact step_of_owner herr rfl
  have hphase' : (e.close .out).phase = .running := (Execution.close_phase .out).trans hphase
  have hsettled : (((e.close .out).close .err).collect false).phase =
      .settled (code.getD Execution.exitFailed) := by
    refine Execution.collect_phase ((Execution.close_phase .err).trans hphase') ?_ ?_ ?_
    · rw [Execution.close_process, Execution.close_process, hdead]
    · rw [Execution.close_closed hphase', Execution.close_closed hphase]
      rfl
    · rw [Execution.close_closed hphase']
      rfl
  have hname : (((e.close .out).close .err).collect false).label = label :=
    (Execution.collect_label false).trans ((Execution.close_label .err).trans
      ((Execution.close_label .out).trans hlabel))
  change ((((x.step (.close i .out)).step (.close i .err)).step (.collect i false)).step
    (.unregister i)).isRunning label = false
  rw [hcollecting]
  exact isRunning_unregister hcollect hname hsettled

/-- A label under which no process runs can be forgotten. -/
theorem exists_not_running (h : x.Orderly label) (hdead : ¬ x.Alive label) :
    ∃ events, Own events ∧ (x.run events).isRunning label = false := by
  cases hi : x.running.get? label with
  | none => exact ⟨[], by simp [Own], by simp [run, isRunning, SortedMap.contains, hi]⟩
  | some i =>
    obtain ⟨e, he, hlabel, hregistered⟩ := h.known i hi
    cases hphase : e.phase with
    | settled code =>
      exact ⟨[.unregister i], by simp [Own, Event.owner?], isRunning_unregister he hlabel hphase⟩
    | running =>
      have hmem := List.mem_of_getElem? he
      obtain ⟨process, hprocess⟩ := Option.isSome_iff_exists.1 (h.process e hmem hlabel (.inr hphase))
      cases process with
      | alive => exact absurd ⟨e, hmem, hlabel, by simp [Execution.isAlive, hprocess]⟩ hdead
      | dead code => exact ⟨_, by simp [Own, Event.owner?], isRunning_collect he hlabel hphase hprocess⟩
    | _ => simp [Execution.isRegistered, hphase] at hregistered

/-- A command that is accepted can come to run. -/
theorem exists_alive_of_accept (hrunning : x.isRunning label = false) (command : String)
    (arguments : List String) :
    ∃ events, Own events ∧ ((x.step (.accept label command arguments)).run events).Alive label := by
  refine exists_alive_of_pending ⟨{ label, command, arguments }, ?_, rfl, rfl⟩
  simp [step, hrunning]

end Executor

end Muster
