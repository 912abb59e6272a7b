import Muster.Proofs.Frames

/-!
# The end of an execution

Once its pipes and its process have ended, an execution goes on to its end by itself, whatever happens in between. It
does the same whether its receiver is there or not; and when it has ended, neither its label nor its script is left of
it.
-/

namespace Muster

namespace Execution

open Executor (Event)
open Text.Utf8 (relayed)

variable {i k : Nat} {event : Event} {e e' : Execution}

/-! ### What has been sent in the end -/

/-- Nobody gets a code before the end. -/
theorem Course.ended_of_exit {code : Int} (h : Course e) (hexit : .exit code ∈ e.frames) : e.phase = .ended code := by
  have hnot : ¬ IsOutput (.exit code) := by
    rintro ⟨source, text, -, heq⟩
    cases source <;> cases heq
  obtain ⟨outputs, houtputs, hsent⟩ := h.frames
  have hmem : Frame.exit code ∈ e.exits := by
    rcases hsent with hsent | ⟨-, hsent⟩ <;> rw [hsent] at hexit
    · exact (List.mem_append.1 hexit).resolve_left fun hmem => hnot (houtputs _ hmem)
    · exact absurd (houtputs _ hexit) hnot
  unfold exits at hmem
  cases hphase : e.phase <;> simp [hphase] at hmem
  rw [hmem]

/-- In the end a receiver that is still there has got the code, and before it the output or the reason why there is
none. -/
theorem Course.sent_of_ended {code : Int} (h : Course e) (hphase : e.phase = .ended code) (hstays : e.isLeft = false) :
    ∃ outputs, e.frames = outputs ++ [.exit code] ∧ (∀ f ∈ outputs, IsOutput f) ∧
      (e.process = none → ∃ reason, outputs = [.err reason]) := by
  have hcode : e.code? = some code := by rw [code?, hphase]
  have hexits : e.exits = [.exit code] := by rw [exits, hphase]
  obtain ⟨outputs, houtputs, hsent⟩ := h.frames
  have hframes : e.frames = outputs ++ [.exit code] := by
    rw [hexits, hstays] at hsent
    simpa using hsent
  refine ⟨outputs, hframes, houtputs, fun hnone => ?_⟩
  obtain ⟨reason, -, hreason⟩ := (h.failed code hcode hnone).2 hstays
  rw [hframes, hexits] at hreason
  exact ⟨reason, (List.append_left_inj [Frame.exit code]).1 hreason⟩

/-- The texts of a pipe that was read up to its end, as they were sent before the code. -/
theorem Reads.texts_of_closed {source : Source} {chunks : List (List UInt8)} {outputs : List Frame} {code : Int}
    (h : Reads e source chunks) (hstays : e.isLeft = false) (hthere : e.process.isSome)
    (hclosed : (e.pipe source).closed) (hframes : e.frames = outputs ++ [.exit code]) :
    outputs.filterMap (textOf? source) = relayed chunks := by
  have hparts := h.sent hstays hthere
  have hnone : textOf? source (.exit code) = none := by cases source <;> rfl
  rw [parts, hframes, List.filterMap_append, hclosed] at hparts
  simpa [hnone, relayed] using hparts

/-! ### On the way to the end -/

/-- How many of the last steps are done. -/
def stage (e : Execution) : Nat :=
  match e.phase with
  | .settled _ => 1
  | .unregistered _ => 2
  | .cleared _ => 3
  | .ended _ => 4
  | _ => 0

/-- The execution can take the first of its last steps, and so many are done. -/
def Passed (k : Nat) (e : Execution) : Prop := (e.IsDrained ∨ e.code?.isSome) ∧ k ≤ e.stage

theorem Passed.of_stage (h : k + 1 ≤ e.stage) : Passed (k + 1) e := by
  refine ⟨.inr ?_, h⟩
  unfold stage at h
  unfold code?
  cases hphase : e.phase <;> simp [hphase] at h ⊢

theorem Passed.exists_ended (h : Passed 4 e) : ∃ code, e.phase = .ended code := by
  have hstage := h.2
  unfold stage at hstage
  cases hphase : e.phase <;> simp [hphase] at hstage
  exact ⟨_, rfl⟩

theorem Passed.not_open (h : Passed k e) {source : Source} (hphase : e.phase = .running) :
    (e.pipe source).closed := by
  rcases h.1 with hdrained | hcode
  · exact hdrained.2.1 source
  · simp [code?, hphase] at hcode

theorem Passed.isDrained (h : Passed k e) (hstage : e.stage = 0) : e.IsDrained := by
  refine h.1.resolve_right fun hcode => ?_
  unfold code? at hcode
  unfold stage at hstage
  cases hphase : e.phase <;> simp [hphase] at hcode hstage

theorem IsDrained.stage_collect (h : e.IsDrained) (waitFails : Bool) : (e.collect waitFails).stage = 1 := by
  obtain ⟨hphase, hclosed, exit, hdead⟩ := h
  have hall : e.phase = .running ∧ e.out.closed ∧ e.err.closed := ⟨hphase, hclosed .out, hclosed .err⟩
  simp only [collect, hdead, if_pos hall, stage]

/-- No move goes back. -/
theorem Passed.moves (h : Passed k e) (hmoves : Moves i event e e') : Passed k e' := by
  obtain ⟨hnext, hstage⟩ := h
  cases hmoves with
  | idle | left => exact ⟨hnext, hstage⟩
  | written hphase | spawned hphase | registered hphase => simp [IsDrained, code?, hphase] at hnext
  | failed _ hphase => rcases hphase with hphase | hphase <;> simp [IsDrained, code?, hphase] at hnext
  | closed source hphase hopen => simp [Passed.not_open ⟨hnext, hstage⟩ hphase] at hopen
  | died exit halive =>
    refine ⟨.inr ?_, hstage⟩
    rcases hnext with ⟨-, -, exit', hdead⟩ | hcode
    · rw [halive] at hdead
      cases hdead
    · exact hcode
  | collected _ hdrained =>
    refine ⟨.inr rfl, hstage.trans ?_⟩
    simp [stage, hdrained.1]
  | unregistered hphase | cleared hphase | reported hphase =>
    refine ⟨.inr rfl, hstage.trans ?_⟩
    simp [stage, hphase]

end Execution

namespace Executor

open Execution (Source Passed)

variable {x : Executor} {i k : Nat} {e : Execution} {event : Event}

/-- The last steps of an execution, whether its process can be waited for and its script removed or not. -/
def lastSteps (i : Nat) (waitFails isRefused : Bool) : List Event :=
  [.collect i waitFails, .unregister i, .removeScript i isRefused, .report i]

theorem passed_step (hi : x.executions[i]? = some e) (h : Passed k e) (event : Event) :
    ∃ e', (x.step event).executions[i]? = some e' ∧ Passed k e' := by
  obtain ⟨e', he', ⟨hmoves, -⟩ | ⟨source, octets, hphase, hopen, -⟩⟩ := moves_step hi event
  · exact ⟨e', he', h.moves hmoves⟩
  · rw [h.not_open hphase] at hopen
    cases hopen

/-- Each of the last steps is taken when its turn comes. -/
theorem passed_lastStep {waitFails isRefused : Bool} (hi : x.executions[i]? = some e) (h : Passed k e)
    (hk : (lastSteps i waitFails isRefused)[k]? = some event) :
    ∃ e', (x.step event).executions[i]? = some e' ∧ Passed (k + 1) e' := by
  by_cases hdone : k + 1 ≤ e.stage
  · exact passed_step hi ⟨h.1, hdone⟩ event
  · have hstage : e.stage = k := by
      have hle := h.2
      omega
    -- It has not been taken yet, so it is the one to be taken.
    have hchange {y : Executor} (f : Execution → Execution) (hy : y.executions = x.executions)
        (hnext : (f e).stage = k + 1) : ∃ e', (y.change i f).executions[i]? = some e' ∧ Passed (k + 1) e' := by
      have hyi : y.executions[i]? = some e := by rw [hy, hi]
      exact ⟨f e, by rw [getElem?_change hyi, if_pos rfl], .of_stage hnext.ge⟩
    match k with
    | 0 =>
      cases hk
      rw [step_of_owner hi rfl]
      exact hchange _ rfl ((h.isDrained hstage).stage_collect waitFails)
    | 1 | 2 | 3 =>
      cases hk
      rw [step_of_owner hi rfl, stepOne]
      cases hphase : e.phase <;> simp only [Execution.stage, hphase] at hstage <;> try cases hstage
      exact hchange _ rfl rfl

/-- Whatever happens in between, the last steps lead to the end. -/
theorem passed_run {waitFails isRefused : Bool} {steps more : List Event} (hsub : steps.Sublist more)
    (hsteps : steps = (lastSteps i waitFails isRefused).drop k) (hi : x.executions[i]? = some e) (h : Passed k e) :
    ∃ e', (x.run more).executions[i]? = some e' ∧ Passed 4 e' := by
  induction hsub generalizing x e k with
  | slnil =>
    have hall : 4 ≤ k := by simpa [lastSteps] using hsteps
    exact ⟨e, hi, h.1, hall.trans h.2⟩
  | @cons steps more event _ ih =>
    obtain ⟨e', he', hnext⟩ := passed_step hi h event
    exact ih hsteps he' hnext
  | @cons_cons steps more event _ ih =>
    have hk : (lastSteps i waitFails isRefused)[k]? = some event := by
      rw [← List.head?_drop, ← hsteps, List.head?_cons]
    have hrest : steps = (lastSteps i waitFails isRefused).drop (k + 1) := by
      rw [← List.tail_drop, ← hsteps, List.tail_cons]
    obtain ⟨e', he', hnext⟩ := passed_lastStep hi h hk
    exact ih hrest he' hnext

end Executor

/-! ### A receiver that leaves -/

namespace Execution

/-- The execution without its receiver. -/
def mute (e : Execution) : Execution := { e with frames := [], isLeft := true }

/-- What becomes of an execution by a function does not depend on its receiver. -/
def IsDeaf (f : Execution → Execution) : Prop := ∀ e, (f e.mute).mute = (f e).mute

theorem mute_send (e : Execution) (f : Frame) : (e.send f).mute = e.mute := by
  unfold send
  split <;> rfl

theorem mute_sendText (e : Execution) (source : Source) (text : List Char) :
    (e.sendText source text).mute = e.mute := by
  unfold sendText
  split
  · rfl
  · exact mute_send e _

theorem pipe_mute (e : Execution) (source : Source) : e.mute.pipe source = e.pipe source := by cases source <;> rfl

theorem mute_setPipe (e : Execution) (source : Source) (p : Pipe) :
    (e.mute.setPipe source p).mute = (e.setPipe source p).mute := by cases source <;> rfl

theorem isDeaf_fail (reason : String) : IsDeaf fun e => e.fail reason := by
  intro e
  have hsend (e : Execution) :
      ({ e.send (.err reason) with phase := .settled exitFailed } : Execution).mute =
        { e.mute with phase := .settled exitFailed } := by
    unfold send
    split <;> rfl
  simp only [fail, hsend]
  rfl

theorem isDeaf_read (source : Source) (octets : List UInt8) : IsDeaf fun e => e.read source octets := by
  intro e
  simp only [read, pipe_mute]
  have hphase : e.mute.phase = e.phase := rfl
  rw [hphase]
  split
  · rfl
  · rw [mute_sendText, mute_sendText, mute_setPipe]

theorem isDeaf_close (source : Source) : IsDeaf fun e => e.close source := by
  intro e
  simp only [close, pipe_mute]
  have hphase : e.mute.phase = e.phase := rfl
  rw [hphase]
  split
  · rfl
  · rw [mute_sendText, mute_sendText, mute_setPipe]

theorem isDeaf_die (exit : Option Int) : IsDeaf fun e => e.die exit := by
  intro e
  simp only [die]
  have halive : e.mute.isAlive = e.isAlive := rfl
  rw [halive]
  split <;> rfl

theorem isDeaf_collect (waitFails : Bool) : IsDeaf fun e => e.collect waitFails := by
  intro e
  have hprocess : e.mute.process = e.process := rfl
  simp only [collect, hprocess]
  split
  · by_cases hall : e.phase = .running ∧ e.out.closed ∧ e.err.closed
    · have hmute : e.mute.phase = .running ∧ e.mute.out.closed ∧ e.mute.err.closed := hall
      rw [if_pos hall, if_pos hmute]
      rfl
    · have hmute : ¬ (e.mute.phase = .running ∧ e.mute.out.closed ∧ e.mute.err.closed) := hall
      rw [if_neg hall, if_neg hmute]
      rfl
  · rfl

theorem isDeaf_report (code : Int) : IsDeaf fun e => { e.send (.exit code) with phase := .ended code } := by
  intro e
  have hsend (e : Execution) :
      ({ e.send (.exit code) with phase := .ended code } : Execution).mute = { e.mute with phase := .ended code } := by
    unfold send
    split <;> rfl
  simp only [hsend]
  rfl

end Execution

namespace Executor

open Execution (IsDeaf Source)

variable {x y : Executor} {i : Nat} {e : Execution} {event : Event}

/-- The worker with one execution without its receiver. -/
def deaf (x : Executor) (i : Nat) : Executor := x.change i Execution.mute

theorem deaf_deaf (x : Executor) (i : Nat) : (x.deaf i).deaf i = x.deaf i := by
  simp only [deaf, change, List.modify_modify_eq]
  rfl

theorem deaf_change {f : Execution → Execution} (hf : IsDeaf f) (x : Executor) (i j : Nat) :
    ((x.deaf i).change j f).deaf i = (x.change j f).deaf i := by
  simp only [deaf, change]
  congr 1
  refine List.ext_getElem? fun k => ?_
  simp only [List.getElem?_modify]
  cases x.executions[k]? with
  | none => rfl
  | some e =>
    by_cases hi : i = k <;> by_cases hj : j = k <;> simp [hi, hj]
    · exact hf e
    · rfl

theorem getElem?_deaf (x : Executor) (i j : Nat) :
    (x.deaf i).executions[j]? = x.executions[j]?.map fun e => if i = j then e.mute else e := by
  simp only [deaf, change, List.getElem?_modify]
  rfl

/-- An event does the same where the receiver of one execution is not heard. -/
theorem deaf_stepOne {e' : Execution} (hphase : e'.phase = e.phase) (hlabel : e'.label = e.label)
    (hcommand : e'.command = e.command) (x : Executor) (i j : Nat) (event : Event) :
    ((x.deaf i).stepOne j e' event).deaf i = (x.stepOne j e event).deaf i := by
  have hkept : (x.deaf i).deaf i = x.deaf i := deaf_deaf x i
  cases event with
  | writeScript _ writing =>
    simp only [stepOne, hphase, writeScript, hlabel, hcommand]
    split
    · cases writing with
      | done => exact deaf_change (fun _ => rfl) (x.putScript e.label e.command) i j
      | failed reason leavesFile =>
        cases leavesFile with
        | true => exact deaf_change (Execution.isDeaf_fail _) (x.putScript e.label "") i j
        | false => exact deaf_change (Execution.isDeaf_fail _) x i j
    · exact hkept
  | spawn _ failure =>
    simp only [stepOne, hphase]
    split
    · cases failure with
      | none => exact deaf_change (fun _ => rfl) x i j
      | some reason => exact deaf_change (Execution.isDeaf_fail _) x i j
    · exact hkept
  | register =>
    simp only [stepOne, hphase, hlabel]
    split
    · exact deaf_change (fun _ => rfl) { x with running := x.running.insert e.label j } i j
    · exact hkept
  | read _ source octets => exact deaf_change (Execution.isDeaf_read source octets) x i j
  | close _ source => exact deaf_change (Execution.isDeaf_close source) x i j
  | exit _ exit => exact deaf_change (Execution.isDeaf_die exit) x i j
  | collect _ waitFails => exact deaf_change (Execution.isDeaf_collect waitFails) x i j
  | unregister =>
    simp only [stepOne, hphase, hlabel]
    split
    · exact deaf_change (fun _ => rfl) { x with running := x.running.erase e.label } i j
    · exact hkept
  | removeScript _ isRefused =>
    simp only [stepOne, hphase, hlabel]
    split
    · exact deaf_change (fun _ => rfl) { x with files := _ } i j
    · exact hkept
  | report =>
    simp only [stepOne, hphase]
    split
    · exact deaf_change (Execution.isDeaf_report _) x i j
    · exact hkept
  | leave => exact deaf_change (fun _ => rfl) x i j
  | accept | cancel => exact hkept

theorem deaf_step (x : Executor) (i : Nat) (event : Event) :
    ((x.deaf i).step event).deaf i = (x.step event).deaf i := by
  cases howner : event.owner? with
  | some j =>
    have hdeaf := getElem?_deaf x i j
    cases hj : x.executions[j]? with
    | none =>
      rw [hj] at hdeaf
      rw [step_of_no_owner hdeaf howner, step_of_no_owner hj howner, deaf_deaf]
    | some e =>
      rw [hj, Option.map_some] at hdeaf
      rw [step_of_owner hdeaf howner, step_of_owner hj howner]
      split
      · exact deaf_stepOne rfl rfl rfl x i j event
      · exact deaf_stepOne rfl rfl rfl x i j event
  | none =>
    cases event <;> simp only [Event.owner?, reduceCtorEq] at howner
    case accept label command arguments =>
      simp only [step]
      have hrunning : (x.deaf i).isRunning label = x.isRunning label := rfl
      rw [hrunning]
      split
      · exact deaf_deaf x i
      · simp only [deaf, change]
        congr 1
        refine List.ext_getElem? fun k => ?_
        simp only [List.getElem?_modify, List.getElem?_append, List.length_modify]
        by_cases hk : i = k <;> by_cases hlt : k < x.executions.length <;> simp [hk, hlt, Execution.mute]
    case cancel label isRefused =>
      simp only [step]
      have hrunning : (x.deaf i).running = x.running := rfl
      rw [hrunning]
      split
      · split
        · exact deaf_deaf x i
        · exact deaf_change (Execution.isDeaf_die none) x i _
      · exact deaf_deaf x i

theorem deaf_leave (x : Executor) (i : Nat) : (x.step (.leave i)).deaf i = x.deaf i := by
  cases hi : x.executions[i]? with
  | none => rw [step_of_no_owner hi rfl]
  | some e =>
    rw [step_of_owner hi rfl]
    simp only [stepOne, deaf, change, List.modify_modify_eq]
    rfl

/-- The chunks that an execution takes do not depend on its receiver. -/
theorem took_deaf (x : Executor) (i : Nat) (source : Source) (event : Event) :
    (x.deaf i).took i source event = x.took i source event := by
  cases event <;> simp only [took]
  rename_i j other octets
  rw [getElem?_deaf]
  cases x.executions[i]? with
  | none => rfl
  | some e =>
    simp only [Option.map_some, if_true, Execution.pipe_mute]
    rfl

/-- Whether its receiver leaves or not, an execution reads the same and comes to the same. -/
theorem deaf_run (x : Executor) (i : Nat) (events : List Event) :
    ((x.run events).deaf i = (x.run (events.filter (· ≠ .leave i))).deaf i) ∧
      ∀ source, x.chunks i source events = x.chunks i source (events.filter (· ≠ .leave i)) := by
  suffices hall : ∀ y : Executor, x.deaf i = y.deaf i →
      ((x.run events).deaf i = (y.run (events.filter (· ≠ .leave i))).deaf i) ∧
        ∀ source, x.chunks i source events = y.chunks i source (events.filter (· ≠ .leave i)) from hall x rfl
  induction events generalizing x with
  | nil => exact fun y hsame => ⟨hsame, fun _ => rfl⟩
  | cons event rest ih =>
    intro y hsame
    by_cases hleave : event = .leave i
    · have hstep : (x.step event).deaf i = y.deaf i := by
        rw [← hsame, hleave, deaf_leave]
      have htook (source : Source) : x.took i source event = [] := by
        rw [hleave]
        rfl
      rw [List.filter_cons_of_neg (by simp [hleave])]
      obtain ⟨hrun, hchunks⟩ := ih (x.step event) y hstep
      refine ⟨hrun, fun source => ?_⟩
      rw [chunks, htook, List.nil_append, hchunks]
    · rw [List.filter_cons_of_pos (by simp [hleave])]
      have hstep : (x.step event).deaf i = (y.step event).deaf i := by
        rw [← deaf_step x, hsame, deaf_step]
      obtain ⟨hrun, hchunks⟩ := ih (x.step event) (y.step event) hstep
      refine ⟨hrun, fun source => ?_⟩
      rw [chunks, chunks, hchunks, ← took_deaf x, hsame, took_deaf]

end Executor

/-! ### What is left in the end -/

namespace Files

theorem not_file_removeFile (files : Files) (path : Path) (text : String) :
    (files.removeFile path).get? path ≠ some (.file text) := by
  intro h
  cases hget : files.get? path with
  | none => simp [removeFile, hget] at h
  | some entry =>
    cases entry with
    | directory => simp [removeFile, hget] at h
    | file before =>
      rw [get?_removeFile_self hget] at h
      cases h

end Files

namespace Executor

open Execution (Source Passed IsOutput textOf? exitFailed)
open Text.Utf8 (relayed)

variable {x : Executor} {i : Nat} {e : Execution} {event : Event}

/-- Another execution writes its script, at the place where an execution has removed its own. -/
def Rewrites (i : Nat) (x : Executor) (event : Event) : Prop :=
  ∃ e, x.executions[i]? = some e ∧ e.isOver ∧ ∃ k writing u, event = .writeScript k writing ∧ k ≠ i ∧
    x.executions[k]? = some u ∧ Execution.script x.home u.label = Execution.script x.home e.label

/-- The system refuses to remove the script of an execution. -/
def Retains (i : Nat) (x : Executor) (event : Event) : Prop :=
  event = .removeScript i true ∧ ∃ e code, x.executions[i]? = some e ∧ e.phase = .unregistered code

section advance

variable {e' : Execution} {running : SortedMap String Nat} {files : Files} {text : String}

/-- An execution that is over has no script but one that stood there when it was over already, or one that the system
has just refused to remove. -/
theorem Advance.file_of_own (h : Advance x i e event e' running files) (hi : x.executions[i]? = some e)
    (hover : e'.isOver) (hfile : files.get? (Execution.script x.home e'.label) = some (.file text)) :
    e.isOver ∧ x.files.get? (Execution.script x.home e.label) = some (.file text) ∨ Retains i x event := by
  unfold Execution.isOver at hover
  cases h with
  | kept hlabel hphase =>
    rw [hphase] at hover
    rw [hlabel] at hfile
    exact .inl ⟨hover, hfile⟩
  | wrote _ _ _ _ hnext => rcases hnext with hnext | ⟨code, hnext⟩ <;> simp [hnext] at hover
  | spawned _ _ hnext => rcases hnext with ⟨hnext, -⟩ | ⟨-, code, hnext⟩ <;> simp [hnext] at hover
  | registered | unregistered => cases hover
  | collected _ _ hnext => simp [hnext] at hover
  | @cleared code isRefused _ he hphase hfiles =>
    cases isRefused with
    | true => exact .inr ⟨he, e, code, hi, hphase⟩
    | false =>
      rw [hfiles] at hfile
      exact absurd hfile (Files.not_file_removeFile _ _ _)
  | ended hphase hlabel =>
    rw [hlabel] at hfile
    exact .inl ⟨by simp [Execution.isOver, hphase], hfile⟩

/-- While another execution goes on, what stands at the script of one that is over stood there before, or the other
one writes it. -/
theorem Advance.file_of_other {j : Nat} {u : Execution} (h : Advance x j u event e' running files)
    (hj : x.executions[j]? = some u) (hne : j ≠ i) (hi : x.executions[i]? = some e) (hover : e.isOver)
    (hfile : files.get? (Execution.script x.home e.label) = some (.file text)) :
    x.files.get? (Execution.script x.home e.label) = some (.file text) ∨ Rewrites i x event := by
  by_cases hplace : Execution.script x.home u.label = Execution.script x.home e.label
  · cases h with
    | wrote he => exact .inr ⟨e, hi, hover, j, _, u, he, hne, hj, hplace⟩
    | @cleared _ isRefused _ _ _ hfiles =>
      cases isRefused with
      | true =>
        subst hfiles
        exact .inl hfile
      | false =>
        rw [hfiles, hplace] at hfile
        exact absurd hfile (Files.not_file_removeFile _ _ _)
    | _ => exact .inl hfile
  · exact .inl ((h.file_iff fun _ heq => hplace heq.symm).1 hfile)

end advance

/-- A script that stands there after the execution has come to remove its own is another one's, or was not removed. -/
theorem rewrites_of_file (home : Path) (files : Files) (events : List Event)
    (hi : ((fresh home files).run events).executions[i]? = some e) (hover : e.isOver) {text : String}
    (hfile : ((fresh home files).run events).files.get? (Execution.script home e.label) = some (.file text)) :
    (fresh home files).Happens events (Rewrites i) ∨ (fresh home files).Happens events (Retains i) := by
  induction events using List.reverseRecOn generalizing e text with
  | nil => simp [run, fresh] at hi
  | append_singleton events event ih =>
    rw [run_concat] at hi hfile
    rw [happens_concat, happens_concat, or_or_or_comm]
    have hhome : ((fresh home files).run events).home = home := run_home _ _
    generalize (fresh home files).run events = x at hi hfile ih hhome ⊢
    rcases advances_step x event with hsame | ⟨j, u, hj, -, e', hadvance, hothers⟩ |
      ⟨label, command, arguments, -, -, hstep⟩
    · rw [hsame] at hi hfile
      exact .inl (ih hi hover hfile)
    · rw [hothers] at hi
      rw [← hhome] at hfile
      by_cases hji : j = i
      · subst hji
        rw [if_pos rfl, Option.some.injEq] at hi
        subst hi
        rcases hadvance.file_of_own hj hover hfile with ⟨hbefore, hstood⟩ | hretains
        · exact .inl (ih hj hbefore (hhome ▸ hstood))
        · exact .inr (.inr hretains)
      · rw [if_neg hji] at hi
        rcases hadvance.file_of_other hj hji hi hover hfile with hstood | hrewrites
        · exact .inl (ih hi hover (hhome ▸ hstood))
        · exact .inr (.inl hrewrites)
    · rw [hstep] at hi hfile
      rcases getElem?_concat_eq_some.1 hi with hbefore | ⟨-, rfl⟩
      · exact .inl (ih hbefore hover hfile)
      · cases hover

theorem orderly_of_run (home : Path) (files : Files) (events : List Event) (label : String) :
    ((fresh home files).run events).Orderly label := by
  induction events using List.reverseRecOn with
  | nil => exact ⟨fun _ hknown => (by cases hknown), by simp [run, fresh]⟩
  | append_singleton events event ih =>
    rw [run_concat]
    exact orderly_step ih event

/-- How an execution of a worker ends, whatever the system does, in whatever order the pipes are read and whenever the
receiver leaves. Once both pipes and the process have ended, or the start has failed, its last steps lead to the end.
When it has ended, its code is that of the process, or none of its own if there is no process or none could be waited
for; a receiver that stayed has got the output, each stream's texts as they were read, or the reason why there is none,
and then the code, which nobody gets before the end. Without its receiver the execution would have read the same and
come to the same. Its label is known for another execution if at all, and a file where its script was is one that
another execution wrote after it was removed, or its own that the system refused to remove. -/
theorem end_of_execution (home : Path) (files : Files) (events : List Event) {i : Nat} {e : Execution}
    (hi : ((fresh home files).run events).executions[i]? = some e) :
    let x := (fresh home files).run events
    (e.IsDrained ∨ e.code?.isSome → ∀ waitFails isRefused more, (lastSteps i waitFails isRefused).Sublist more →
      ∃ e' code, (x.run more).executions[i]? = some e' ∧ e'.phase = .ended code) ∧
    (∀ code, e.phase = .ended code →
      (e.process = none ∧ code = exitFailed ∨ (∀ source, (e.pipe source).closed) ∧ ∃ exit waitFails,
        e.process = some (.dead exit) ∧ (fresh home files).Happens events (Settles i waitFails) ∧
          code = if waitFails then exitFailed else exit.getD exitFailed) ∧
      (e.isLeft = false → ∃ outputs, e.frames = outputs ++ [.exit code] ∧ (∀ f ∈ outputs, IsOutput f) ∧
        (e.process = none → ∃ reason, outputs = [.err reason]) ∧
        (e.process.isSome → ∀ source,
          outputs.filterMap (textOf? source) = relayed ((fresh home files).chunks i source events))) ∧
      (∀ k, x.running.get? e.label = some k → k ≠ i ∧ ∃ u, x.executions[k]? = some u ∧ u.label = e.label) ∧
      (∀ text, x.files.get? (Execution.script home e.label) = some (.file text) →
        (fresh home files).Happens events (Rewrites i) ∨ (fresh home files).Happens events (Retains i))) ∧
    (∀ code, .exit code ∈ e.frames → e.phase = .ended code) ∧
    x.deaf i = ((fresh home files).run (events.filter (· ≠ .leave i))).deaf i ∧
    ∀ source, (fresh home files).chunks i source events =
      (fresh home files).chunks i source (events.filter (· ≠ .leave i)) := by
  intro x
  obtain ⟨hcourse, hsettled, hreads⟩ := (accounts_of_some hi).1 (accounts_run home files events i)
  obtain ⟨hdeaf, hchunks⟩ := deaf_run (fresh home files) i events
  refine ⟨fun hnext waitFails isRefused more hsub => ?_, fun code hphase => ?_, fun code => hcourse.ended_of_exit, hdeaf,
    hchunks⟩
  · obtain ⟨e', he', hpassed⟩ := passed_run hsub rfl hi ⟨hnext, Nat.zero_le _⟩
    obtain ⟨code, hphase⟩ := hpassed.exists_ended
    exact ⟨e', code, he', hphase⟩
  have hcode : e.code? = some code := by rw [Execution.code?, hphase]
  refine ⟨?_, fun hstays => ?_, fun k hk => ?_, fun text hfile => ?_⟩
  · cases hprocess : e.process with
    | none => exact .inl ⟨rfl, (hcourse.failed code hcode hprocess).1⟩
    | some process =>
      obtain ⟨hclosed, exit, waitFails, hdead, hwaits, heq⟩ := hsettled code hcode (by simp [hprocess])
      rw [hprocess] at hdead
      exact .inr ⟨hclosed, exit, waitFails, hdead, hwaits, heq⟩
  · obtain ⟨outputs, hframes, houtputs, hreason⟩ := hcourse.sent_of_ended hphase hstays
    refine ⟨outputs, hframes, houtputs, hreason, fun hthere source => ?_⟩
    exact (hreads source).texts_of_closed hstays hthere ((hsettled code hcode hthere).1 source) hframes
  · obtain ⟨u, hu, hlabel, hregistered⟩ := (orderly_of_run home files events e.label).known k hk
    refine ⟨?_, u, hu, hlabel⟩
    rintro rfl
    rw [hi, Option.some.injEq] at hu
    subst hu
    simp [Execution.isRegistered, hphase] at hregistered
  · exact rewrites_of_file home files events hi (by simp [Execution.isOver, hphase]) hfile

/-- The pipes are read by turns, the process ends by itself before they do, and what is left of it goes. -/
def spoken : List Event :=
  [.accept "H.1" "run" []] ++ startEvents 0 .done ++
    [.read 0 .out [0x61, 0xE2], .read 0 .err [0x21], .read 0 .out [0x82, 0xAC], .exit 0 (some 3), .close 0 .err,
      .close 0 .out] ++ lastSteps 0 false false

theorem end_of_spoken :
    ∃ e, ((fresh ["command"] ∅).run spoken).executions[0]? = some e ∧ e.phase = .ended 3 ∧ e.isLeft = false ∧
      (∃ outputs, e.frames = outputs ++ [.exit 3] ∧ outputs.filterMap (textOf? .out) = ["a", "€"] ∧
        outputs.filterMap (textOf? .err) = ["!"]) ∧
      ((fresh ["command"] ∅).run spoken).isRunning "H.1" = false ∧
      ((fresh ["command"] ∅).run spoken).files.get? (Execution.script ["command"] "H.1") = none := by
  have hrun : ∃ e, ((fresh ["command"] ∅).run spoken).executions[0]? = some e ∧ e.phase = .ended 3 ∧ e.isLeft = false ∧
      e.process.isSome := ⟨_, rfl, by decide +kernel⟩
  obtain ⟨e, hi, hphase, hstays, hthere⟩ := hrun
  obtain ⟨-, hended, -⟩ := end_of_execution ["command"] ∅ spoken hi
  obtain ⟨-, hframes, -⟩ := hended 3 hphase
  obtain ⟨outputs, hsent, -, -, htexts⟩ := hframes hstays
  have hout : relayed ((fresh ["command"] ∅).chunks 0 .out spoken) = ["a", "€"] := by decide +kernel
  have herr : relayed ((fresh ["command"] ∅).chunks 0 .err spoken) = ["!"] := by decide +kernel
  exact ⟨e, hi, hphase, hstays, ⟨outputs, hsent, (htexts hthere .out).trans hout, (htexts hthere .err).trans herr⟩,
    by decide +kernel, by decide +kernel⟩

end Executor

end Muster
