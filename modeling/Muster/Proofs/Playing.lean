import Mathlib.Logic.Relation
import Muster.Proofs.Ending
import Muster.Workbench

/-!
# Commands at work

The workbench lets the shell play the processes of a worker. Whatever it does is a run of the executions, so all that
holds of every run holds of what is played. A command that is begun on it and let go on comes to its end, as whatever
a script does includes its exit.
-/

namespace Muster

namespace Shell

/-- A script exits, whatever else it does. -/
theorem exists_exit_run (script : String) (args : List String) : ∃ code, Action.exit code ∈ run script args := by
  simp only [run]
  exact ⟨_, List.mem_append_left _ (List.mem_append_right _ (List.mem_singleton_self _))⟩

end Shell

namespace Workbench

open Execution (Source Writing)
open Executor (Event fresh lastSteps)

variable {b b' : Workbench} {x : Executor} {i : Nat} {e : Execution}

/-! ### Plays are runs -/

/-- One thing that is done on the bench. -/
inductive Plays (b : Workbench) : Workbench → Prop
  | accepted (label command : String) (arguments : List String) :
      Plays b { b with executor := b.executor.step (.accept label command arguments) }
  | began (writing : Writing) : Plays b (b.begin writing)
  | worked (i : Nat) (part : String) : Plays b (b.workUntil i part)
  | finished (i : Nat) : Plays b (b.finish i)
  | cancelled (label : String) : Plays b (b.cancel label)
  | left (i : Nat) : Plays b { b with executor := b.executor.step (.leave i) }

theorem exists_run_playUntil (b : Workbench) (i : Nat) (part : List Char) (actions : List Shell.Action) :
    ∃ events, (b.playUntil i part actions).executor = b.executor.run events := by
  induction actions generalizing b with
  | nil => exact ⟨[], rfl⟩
  | cons a rest ih =>
    unfold playUntil
    split
    · exact ⟨[], rfl⟩
    · obtain ⟨events, hevents⟩ := ih (b.playOne i a rest)
      have hone : (b.playOne i a rest).executor = b.executor.run (event? i a).toList := by
        unfold playOne
        cases event? i a <;> rfl
      rw [hone, ← Executor.run_append] at hevents
      exact ⟨_, hevents⟩

theorem exists_run_finish (b : Workbench) (i : Nat) : ∃ events, (b.finish i).executor = b.executor.run events :=
  ⟨_, (Executor.run_append _ _ _).symm⟩

theorem exists_run_cancel (b : Workbench) (label : String) :
    ∃ events, (b.cancel label).executor = b.executor.run events := by
  unfold cancel
  split
  · rename_i i hi
    obtain ⟨events, hevents⟩ := exists_run_finish
      { executor := b.executor.step (.cancel label false), todo := b.todo.insert i [] } i
    exact ⟨.cancel label false :: events, hevents⟩
  · exact ⟨[], rfl⟩

theorem Plays.exists_run (h : Plays b b') : ∃ events, b'.executor = b.executor.run events := by
  cases h with
  | accepted label command arguments => exact ⟨[.accept label command arguments], rfl⟩
  | began writing => exact ⟨_, rfl⟩
  | worked i part => exact exists_run_playUntil b i part.toList _
  | finished i => exact exists_run_finish b i
  | cancelled label => exact exists_run_cancel b label
  | left i => exact ⟨[.leave i], rfl⟩

/-- What was done on a bench, one thing after the other, is a run of its executions. -/
theorem exists_run_of_plays (h : Relation.ReflTransGen Plays b b') : ∃ events, b'.executor = b.executor.run events := by
  induction h with
  | refl => exact ⟨[], rfl⟩
  | tail _ hplays ih =>
    obtain ⟨events, hevents⟩ := ih
    obtain ⟨more, hmore⟩ := hplays.exists_run
    rw [hevents, ← Executor.run_append] at hmore
    exact ⟨_, hmore⟩

/-! ### To the end -/

/-- The execution runs, and its process is there. -/
def Runs (x : Executor) (i : Nat) (e : Execution) : Prop :=
  x.executions[i]? = some e ∧ e.phase = .running ∧ e.process.isSome

theorem runs_step {a : Shell.Action} {event : Event} (h : Runs x i e) (hevent : event? i a = some event) :
    ∃ e', Runs (x.step event) i e' ∧ (e'.isAlive → e.isAlive ∧ ∀ code, a ≠ .exit code) := by
  obtain ⟨hi, hphase, hprocess⟩ := h
  have hchange (f : Execution → Execution) : (x.change i f).executions[i]? = some (f e) := by
    rw [Executor.getElem?_change hi, if_pos rfl]
  have hread (source : Source) (octets : List UInt8) (hsame : event = .read i source octets)
      (hexit : ∀ code, a ≠ .exit code) :
      ∃ e', Runs (x.step event) i e' ∧ (e'.isAlive → e.isAlive ∧ ∀ code, a ≠ .exit code) := by
    subst hsame
    rw [Executor.step_of_owner hi rfl]
    refine ⟨e.read source octets, ⟨hchange _, (Execution.read_phase ..).trans hphase, ?_⟩, fun halive => ⟨?_, hexit⟩⟩
    · rwa [Execution.read_process]
    · rwa [Execution.isAlive, Execution.read_process] at halive
  cases a with
  | pause time => cases hevent
  | out octets => exact hread .out octets (Option.some.inj hevent).symm fun code => by simp
  | err octets => exact hread .err octets (Option.some.inj hevent).symm fun code => by simp
  | exit code =>
    cases hevent
    rw [Executor.step_of_owner hi rfl]
    refine ⟨e.die (code.map Int.ofNat), ⟨hchange _, (Execution.die_phase _).trans hphase, ?_⟩, fun halive => ?_⟩
    · rwa [Execution.die_process]
    · rw [Execution.die_isAlive] at halive
      cases halive

theorem runs_run (h : Runs x i e) (actions : List Shell.Action) :
    ∃ e', Runs (x.run (actions.filterMap (event? i))) i e' ∧
      (e'.isAlive → e.isAlive ∧ ∀ code, .exit code ∉ actions) := by
  induction actions generalizing x e with
  | nil => exact ⟨e, h, fun halive => ⟨halive, by simp⟩⟩
  | cons a rest ih =>
    cases hevent : event? i a with
    | none =>
      rw [List.filterMap_cons_none hevent]
      obtain ⟨e', hruns, halive⟩ := ih h
      refine ⟨e', hruns, fun h => ⟨(halive h).1, fun code => ?_⟩⟩
      rw [List.mem_cons, not_or]
      refine ⟨?_, (halive h).2 code⟩
      rintro rfl
      cases hevent
    | some event =>
      rw [List.filterMap_cons_some hevent]
      obtain ⟨e₁, hruns₁, halive₁⟩ := runs_step h hevent
      obtain ⟨e', hruns, halive⟩ := ih hruns₁
      refine ⟨e', hruns, fun h => ?_⟩
      obtain ⟨hbefore, hexit⟩ := halive₁ (halive h).1
      refine ⟨hbefore, fun code => ?_⟩
      rw [List.mem_cons, not_or]
      exact ⟨(hexit code).symm, (halive h).2 code⟩

/-- With its pipes at their ends, a process that is dead leaves nothing to wait for. -/
theorem exists_drained (h : Runs x i e) (hdead : e.isAlive = false) :
    ∃ e', (x.run [.close i .out, .close i .err]).executions[i]? = some e' ∧ e'.IsDrained := by
  obtain ⟨hi, hphase, hprocess⟩ := h
  have hout := Executor.getElem?_change hi (fun e => e.close .out) i
  rw [if_pos rfl] at hout
  have herr := Executor.getElem?_change hout (fun e => e.close .err) i
  rw [if_pos rfl] at herr
  have hphase' : (e.close .out).phase = .running := (Execution.close_phase .out).trans hphase
  have hrun : x.run [.close i .out, .close i .err] = (x.change i fun e => e.close .out).change i fun e => e.close .err := by
    change (x.step (.close i .out)).step (.close i .err) = _
    rw [show x.step (.close i .out) = x.change i fun e => e.close .out from Executor.step_of_owner hi rfl]
    exact Executor.step_of_owner hout rfl
  refine ⟨(e.close .out).close .err, hrun ▸ herr, (Execution.close_phase .err).trans hphase', ?_, ?_⟩
  · intro source
    rw [Execution.close_closed hphase', Execution.close_closed hphase]
    cases source <;> rfl
  · obtain ⟨process, hsome⟩ := Option.isSome_iff_exists.1 hprocess
    cases process with
    | alive => simp [Execution.isAlive, hsome] at hdead
    | dead code => exact ⟨code, by rw [Execution.close_process, Execution.close_process, hsome]⟩

/-- An execution that runs on the bench ends when it is let go on, if its process is dead or is still to exit. -/
theorem ended_of_finish (h : Runs b.executor i e)
    (hexit : e.isAlive = false ∨ ∃ code, .exit code ∈ (b.todo.get? i).getD []) :
    ∃ e' code, (b.finish i).executor.executions[i]? = some e' ∧ e'.phase = .ended code := by
  obtain ⟨e₁, hruns, halive⟩ := runs_run h ((b.todo.get? i).getD [])
  have hdead : e₁.isAlive = false := by
    rw [Bool.eq_false_iff]
    intro hstill
    obtain ⟨hbefore, hnone⟩ := halive hstill
    rcases hexit with hdead | ⟨code, hcode⟩
    · rw [hdead] at hbefore
      cases hbefore
    · exact hnone code hcode
  obtain ⟨e₂, hi, hdrained⟩ := exists_drained hruns hdead
  have hlast : Executor.endEvents i = [.close i .out, .close i .err] ++ lastSteps i false false := rfl
  obtain ⟨e', he', hpassed⟩ :=
    Executor.passed_run (List.Sublist.refl (lastSteps i false false)) rfl hi ⟨.inl hdrained, Nat.zero_le _⟩
  obtain ⟨code, hphase⟩ := hpassed.exists_ended
  refine ⟨e', code, ?_, hphase⟩
  rw [finish, hlast, Executor.run_append]
  exact he'

/-- The process of an accepted command is there once its start is played. -/
theorem runs_startEvents (hi : x.executions[i]? = some e) (hphase : e.phase = .accepted) :
    ∃ e', Runs (x.run (Executor.startEvents i .done)) i e' := by
  have hwritten : (x.step (.writeScript i .done)).executions[i]? = some { e with phase := .written } := by
    rw [Executor.step_of_owner hi rfl, Executor.stepOne, if_pos hphase, Executor.writeScript,
      Executor.getElem?_change (x := x.putScript e.label e.command) hi, if_pos rfl]
  have hspawned : ((x.step (.writeScript i .done)).step (.spawn i none)).executions[i]? =
      some { e with phase := .spawned, process := some .alive } := by
    rw [Executor.step_of_owner hwritten rfl, Executor.stepOne, if_pos rfl, Executor.getElem?_change hwritten, if_pos rfl]
  refine ⟨{ e with phase := .running, process := some .alive }, ?_, rfl, rfl⟩
  change (((x.step (.writeScript i .done)).step (.spawn i none)).step (.register i)).executions[i]? = _
  rw [Executor.step_of_owner hspawned rfl, Executor.stepOne, if_pos rfl]
  exact (Executor.getElem?_change (e := { e with phase := .spawned, process := some .alive }) hspawned
    (fun e => { e with phase := .running }) i).trans (if_pos rfl)

/-- A command that is accepted and begun comes to its end when it is let go on. -/
theorem ended_of_begin (b : Workbench) {label : String} (hfree : b.executor.isRunning label = false) (command : String)
    (arguments : List String) :
    ∃ e code, ((({ b with executor := b.executor.step (.accept label command arguments) } : Workbench).begin .done).finish
        b.executor.executions.length).executor.executions[b.executor.executions.length]? = some e ∧
      e.phase = .ended code := by
  have hstep : (b.executor.step (.accept label command arguments)).executions =
      b.executor.executions ++ [({ label, command, arguments } : Execution)] := by
    simp [Executor.step, hfree]
  have hnew : (b.executor.step (.accept label command arguments)).executions[b.executor.executions.length]? =
      some ({ label, command, arguments } : Execution) := by
    simp [hstep]
  have hlast : (b.executor.step (.accept label command arguments)).executions.length - 1 =
      b.executor.executions.length := by
    simp [hstep]
  obtain ⟨e, hruns⟩ := runs_startEvents hnew rfl
  refine ended_of_finish (e := e) ?_ (.inr ?_)
  · simpa only [begin, hlast] using hruns
  · obtain ⟨code, hcode⟩ := Shell.exists_exit_run command arguments
    refine ⟨code, ?_⟩
    simpa only [begin, hlast, hnew, SortedMap.get?_insert_self, Option.getD_some] using hcode

end Workbench

end Muster
