import Muster.Proofs.Doubling
import Muster.Proofs.Streaming

/-!
# The frames of an execution

What is sent of an execution while its receiver is there: a frame for each chunk that gives a text, in the order in
which the chunks of a pipe were read, and in the end one frame with the code. An execution that could not be started
has sent the reason instead. All of it is kept by each event that concerns the execution, whichever comes next.
-/

namespace Muster

/-! ### The texts of chunks -/

namespace Text.Utf8

/-- Chunks that are decoded one after the other: what is pending in the end, and the text of each chunk. -/
def decodeEach (chunks : List (List UInt8)) : Pending × List (List Char) :=
  chunks.foldl (fun r chunk => ((decode r.1 chunk).1, r.2 ++ [(decode r.1 chunk).2])) ({}, [])

theorem decodeEach_concat (chunks : List (List UInt8)) (chunk : List UInt8) :
    decodeEach (chunks ++ [chunk]) = ((decode (decodeEach chunks).1 chunk).1,
      (decodeEach chunks).2 ++ [(decode (decodeEach chunks).1 chunk).2]) := by
  simp only [decodeEach, List.foldl_append, List.foldl_cons, List.foldl_nil]

/-- The texts that are not empty. -/
def shown (texts : List (List Char)) : List String := (texts.filter (· ≠ [])).map String.ofList

theorem shown_append (s t : List (List Char)) : shown (s ++ t) = shown s ++ shown t := by
  simp [shown]

/-- What is sent of a pipe that was read in these chunks up to its end. -/
def relayed (chunks : List (List UInt8)) : List String :=
  shown ((decodeEach chunks).2 ++ [flush (decodeEach chunks).1])

end Text.Utf8

namespace Execution

open Text.Utf8 (decodeEach decodeEach_concat decode flush shown shown_append)

variable {i : Nat} {e e' : Execution} {source other : Source} {text : List Char} {code : Int}

/-! ### Frames -/

/-- The text of a frame of this source. -/
def textOf? : Source → Frame → Option String
  | .out, .out text => some text
  | .err, .err text => some text
  | _, _ => none

/-- The texts of a source that were sent, frame by frame. -/
def parts (e : Execution) (source : Source) : List String := e.frames.filterMap (textOf? source)

/-- A frame of output, which is not empty. -/
def IsOutput (f : Frame) : Prop := ∃ source text, text ≠ [] ∧ f = frame source text

/-- The code, once it is known. -/
def code? (e : Execution) : Option Int :=
  match e.phase with
  | .settled code | .unregistered code | .cleared code | .ended code => some code
  | _ => none

/-- What is sent of the end of an execution. -/
def exits (e : Execution) : List Frame :=
  match e.phase with
  | .ended code => [.exit code]
  | _ => []

/-- Both pipes and the process have ended. -/
def IsDrained (e : Execution) : Prop :=
  e.phase = .running ∧ (∀ source, (e.pipe source).closed) ∧ ∃ exit, e.process = some (.dead exit)

theorem isLeft_send (e : Execution) (f : Frame) : (e.send f).isLeft = e.isLeft := by
  unfold send
  split <;> rfl

theorem pipe_send (e : Execution) (f : Frame) (source : Source) : (e.send f).pipe source = e.pipe source := by
  unfold send
  split
  · rfl
  · cases source <;> rfl

theorem pipe_phase (e : Execution) (phase : Phase) (source : Source) :
    ({ e with phase } : Execution).pipe source = e.pipe source := by cases source <;> rfl

theorem frames_send (e : Execution) (f : Frame) :
    (e.send f).frames = e.frames ++ if e.isLeft then [] else [f] := by
  unfold send
  split <;> simp_all

theorem frames_sendText (e : Execution) (source : Source) (text : List Char) :
    (e.sendText source text).frames = e.frames ++ if text = [] ∨ e.isLeft then [] else [frame source text] := by
  unfold sendText
  split
  · rename_i hempty
    simp [List.isEmpty_iff.1 hempty]
  · rename_i hempty
    rw [frames_send]
    simp [List.isEmpty_iff.not.1 hempty]

theorem frames_setPipe (e : Execution) (source : Source) (p : Pipe) : (e.setPipe source p).frames = e.frames := by
  cases source <;> rfl

theorem textOf?_frame_self (source : Source) (text : List Char) :
    textOf? source (frame source text) = some (String.ofList text) := by cases source <;> rfl

theorem textOf?_frame_of_ne (h : source ≠ other) (text : List Char) : textOf? source (frame other text) = none := by
  cases source <;> cases other <;> first | exact absurd rfl h | rfl

theorem parts_sendText_self (h : e.isLeft = false) (source : Source) (text : List Char) :
    (e.sendText source text).parts source = e.parts source ++ shown [text] := by
  rw [parts, frames_sendText, List.filterMap_append, parts, h]
  by_cases hempty : text = []
  · simp [hempty, shown]
  · simp [hempty, shown, textOf?_frame_self]

theorem parts_sendText_of_ne (h : source ≠ other) (e : Execution) (text : List Char) :
    (e.sendText other text).parts source = e.parts source := by
  rw [parts, frames_sendText, List.filterMap_append, parts]
  split
  · simp
  · simp [textOf?_frame_of_ne h]

/-! ### What an event makes of an execution -/

/-- The moves of an execution other than to read. -/
inductive Moves (i : Nat) (event : Executor.Event) (e : Execution) : Execution → Prop
  | idle : Moves i event e e
  | written (hphase : e.phase = .accepted) : Moves i event e { e with phase := .written }
  | failed {reason : String} (hreason : reason.toList ≠ []) (hphase : e.phase = .accepted ∨ e.phase = .written) :
    Moves i event e (e.fail reason)
  | spawned (hphase : e.phase = .written) : Moves i event e { e with phase := .spawned, process := some .alive }
  | registered (hphase : e.phase = .spawned) : Moves i event e { e with phase := .running }
  | closed (source : Source) (hphase : e.phase = .running) (hopen : (e.pipe source).closed = false) :
    Moves i event e ((e.setPipe source { closed := true }).sendText source (flush (e.pipe source).pending))
  | died (exit : Option Int) (halive : e.process = some .alive) :
    Moves i event e { e with process := some (.dead exit) }
  | collected {waitFails : Bool} {exit : Option Int} (hevent : event = .collect i waitFails) (hdrained : e.IsDrained)
      (hdead : e.process = some (.dead exit)) :
    Moves i event e { e with phase := .settled (if waitFails then exitFailed else exit.getD exitFailed) }
  | unregistered {code : Int} (hphase : e.phase = .settled code) :
    Moves i event e { e with phase := .unregistered code }
  | cleared {code : Int} (hphase : e.phase = .unregistered code) : Moves i event e { e with phase := .cleared code }
  | reported {code : Int} (hphase : e.phase = .cleared code) :
    Moves i event e { e.send (.exit code) with phase := .ended code }
  | left : Moves i event e { e with isLeft := true }

/-- What is read from a pipe, for a pipe that is. -/
theorem read_of_open (hphase : e.phase = .running) (hopen : (e.pipe source).closed = false) (octets : List UInt8) :
    e.read source octets = (e.setPipe source { pending := (decode (e.pipe source).pending octets).1 }).sendText source
      (decode (e.pipe source).pending octets).2 := if_neg (by simp [hphase, hopen])

theorem moves_close (e : Execution) (source : Source) (event : Executor.Event) :
    Moves i event e (e.close source) := by
  unfold close
  split
  · exact .idle
  · rename_i hidle
    simp only [not_or, ne_eq, not_not, Bool.not_eq_true] at hidle
    exact .closed source hidle.1 hidle.2

theorem moves_die (e : Execution) (exit : Option Int) (event : Executor.Event) : Moves i event e (e.die exit) := by
  unfold die
  split
  · rename_i halive
    exact .died exit (by simpa [isAlive] using halive)
  · exact .idle

theorem moves_collect (e : Execution) (waitFails : Bool) : Moves i (.collect i waitFails) e (e.collect waitFails) := by
  unfold collect
  split
  · rename_i exit hdead
    split
    · rename_i hall
      refine .collected rfl ⟨hall.1, fun source => ?_, exit, hdead⟩ hdead
      cases source with
      | out => exact hall.2.1
      | err => exact hall.2.2
    · exact .idle
  · exact .idle

/-! ### What every move keeps -/

/-- How far an execution is tells what there is of it: nothing before there is a process, and nothing but output before
the end. -/
structure Course (e : Execution) : Prop where
  early : e.phase = .accepted ∨ e.phase = .written → e.process = none ∧ e.frames = []
  process : e.phase = .spawned ∨ e.phase = .running → e.process.isSome
  failed : ∀ code, e.code? = some code → e.process = none → code = exitFailed ∧
    (e.isLeft = false → ∃ reason : String, reason.toList ≠ [] ∧ e.frames = .err reason :: e.exits)
  frames : ∃ outputs, (∀ f ∈ outputs, IsOutput f) ∧
    (e.frames = outputs ++ e.exits ∨ e.isLeft ∧ e.frames = outputs)

theorem course_new (label command : String) (arguments : List String) :
    Course { label, command, arguments } :=
  ⟨fun _ => ⟨rfl, rfl⟩, by simp, by simp [code?], [], by simp, .inl rfl⟩

/-- Before the end nothing but output was sent. -/
theorem Course.isOutput (h : Course e) (hexits : e.exits = []) : ∀ f ∈ e.frames, IsOutput f := by
  obtain ⟨outputs, houtputs, hsent⟩ := h.frames
  rw [hexits, List.append_nil] at hsent
  have hframes : e.frames = outputs := hsent.elim id And.right
  rwa [hframes]

/-- Output that is sent before the end is sent behind the output before it. -/
theorem Course.sendText (h : Course e) (hphase : e.phase = .running) (other : Source) (p : Pipe) (text : List Char) :
    Course ((e.setPipe other p).sendText other text) := by
  have hbefore : e.exits = [] := by rw [exits, hphase]
  have hafter : ((e.setPipe other p).sendText other text).exits = [] := by simp [exits, hphase]
  refine ⟨by simp [hphase], fun _ => ?_, fun code hcode => ?_, ?_⟩
  · simpa using h.process (.inr hphase)
  · simp [code?, hphase] at hcode
  · rw [hafter, frames_sendText, frames_setPipe]
    refine ⟨e.frames ++ if text = [] ∨ (e.setPipe other p).isLeft then [] else [frame other text], ?_, .inl (by simp)⟩
    intro f hf
    rcases List.mem_append.1 hf with hf | hf
    · exact h.isOutput hbefore f hf
    · split at hf
      · simp at hf
      · rename_i hne
        rw [List.mem_singleton.1 hf]
        exact ⟨other, text, fun hempty => hne (.inl hempty), rfl⟩

/-- A move that sends nothing, before the end and not to it. -/
theorem Course.unsaid (h : Course e) (hframes : e'.frames = e.frames) (hleft : e.isLeft → e'.isLeft)
    (hexits : e'.exits = e.exits) : ∃ outputs, (∀ f ∈ outputs, IsOutput f) ∧
      (e'.frames = outputs ++ e'.exits ∨ e'.isLeft ∧ e'.frames = outputs) := by
  rw [hframes, hexits]
  obtain ⟨outputs, houtputs, hsent⟩ := h.frames
  exact ⟨outputs, houtputs, hsent.imp_right (And.imp_left hleft)⟩

theorem Course.moves {event : Executor.Event} (h : Course e) (hmoves : Moves i event e e') : Course e' := by
  cases hmoves with
  | idle => exact h
  | written hphase =>
    exact ⟨fun _ => h.early (.inl hphase), by simp, by simp [code?], h.unsaid rfl id (by simp [exits, hphase])⟩
  | @failed reason hreason hphase =>
    obtain ⟨hnone, hframes⟩ := h.early hphase
    have hsent : (e.fail reason).frames = if e.isLeft then [] else [.err reason] := by
      rw [fail, frames_send, hframes, List.nil_append]
    have hcode : (e.fail reason).code? = some exitFailed := rfl
    have hleft : (e.fail reason).isLeft = e.isLeft := isLeft_send e _
    have hexits : (e.fail reason).exits = [] := rfl
    refine ⟨by simp [fail], by simp [fail], fun code hsome _ => ⟨?_, fun hstays => ⟨reason, hreason, ?_⟩⟩, ?_⟩
    · rw [hcode, Option.some.injEq] at hsome
      exact hsome.symm
    · rw [hsent, ← hleft, hstays, hexits]
      rfl
    · rw [hsent, hexits]
      refine ⟨if e.isLeft then [] else [.err reason], fun f hf => ?_, .inl (by simp)⟩
      split at hf
      · simp at hf
      · rw [List.mem_singleton.1 hf]
        exact ⟨.err, reason.toList, hreason, by simp [frame]⟩
  | spawned hphase => exact ⟨by simp, by simp, by simp [code?], h.unsaid rfl id (by simp [exits, hphase])⟩
  | registered hphase =>
    exact ⟨by simp, fun _ => h.process (.inl hphase), by simp [code?], h.unsaid rfl id (by simp [exits, hphase])⟩
  | closed source hphase => exact h.sendText hphase source _ _
  | died exit halive =>
    refine ⟨fun hphase => ?_, by simp, by simp, h.unsaid rfl id rfl⟩
    rw [(h.early hphase).1] at halive
    cases halive
  | collected _ hdrained hdead =>
    exact ⟨by simp, by simp, by simp [hdead], h.unsaid rfl id (by simp [exits, hdrained.1])⟩
  | @unregistered code hphase | @cleared code hphase =>
    have hcode : e.code? = some code := by rw [code?, hphase]
    have hexits : e.exits = [] := by rw [exits, hphase]
    refine ⟨by simp, by simp, fun code' hsome hnone => ?_, h.unsaid rfl id hexits.symm⟩
    obtain ⟨hfailed, hreason⟩ := h.failed code hcode hnone
    rw [hexits] at hreason
    cases hsome
    exact ⟨hfailed, hreason⟩
  | @reported code hphase =>
    have hcode : e.code? = some code := by rw [code?, hphase]
    have hexits : e.exits = [] := by rw [exits, hphase]
    refine ⟨by simp, by simp, fun code' hsome hnone => ?_, ?_⟩
    · obtain ⟨hfailed, hreason⟩ := h.failed code hcode (by simpa using hnone)
      cases hsome
      refine ⟨hfailed, fun hstays => ?_⟩
      have hleft : e.isLeft = false := (isLeft_send e _).symm.trans hstays
      obtain ⟨reason, hne, hframes⟩ := hreason hleft
      rw [hexits] at hframes
      exact ⟨reason, hne, by simp [frames_send, hframes, hleft, exits]⟩
    · refine ⟨e.frames, h.isOutput hexits, ?_⟩
      simp only [frames_send, isLeft_send, exits]
      cases e.isLeft <;> simp
  | left =>
    refine ⟨h.early, h.process, fun code hcode hnone => ⟨(h.failed code hcode hnone).1, by simp⟩, ?_⟩
    exact h.unsaid rfl (fun _ => rfl) rfl

/-- A code that is known with a process is the code of the process, unless to wait for it has failed. -/
def Settled (e : Execution) (waits : Bool → Prop) : Prop :=
  ∀ code, e.code? = some code → e.process.isSome → (∀ source, (e.pipe source).closed) ∧
    ∃ exit waitFails, e.process = some (.dead exit) ∧ waits waitFails ∧
      code = if waitFails then exitFailed else exit.getD exitFailed

theorem Settled.moves {event : Executor.Event} {waits waits' : Bool → Prop} (h : Settled e waits) (hcourse : Course e)
    (hmoves : Moves i event e e') (hkept : ∀ waitFails, waits waitFails → waits' waitFails)
    (hcollect : ∀ waitFails, event = .collect i waitFails → e.IsDrained → waits' waitFails) : Settled e' waits' := by
  -- The code and what it depends on are as they were.
  have hsame (hcode : e'.code? = e.code?) (hprocess : e'.process = e.process)
      (hpipe : ∀ source, e'.pipe source = e.pipe source) : Settled e' waits' := by
    intro code hsome hthere
    rw [hcode] at hsome
    rw [hprocess] at hthere ⊢
    obtain ⟨hclosed, exit, waitFails, hdead, hwaits, heq⟩ := h code hsome hthere
    exact ⟨fun source => by rw [hpipe, hclosed], exit, waitFails, hdead, hkept _ hwaits, heq⟩
  cases hmoves with
  | idle => exact hsame rfl rfl fun _ => rfl
  | written | spawned | registered => simp [Settled, code?]
  | closed source hphase => simp [Settled, code?, hphase]
  | failed hreason hphase => simp [Settled, fail, (hcourse.early hphase).1]
  | died exit halive =>
    intro code hsome _
    obtain ⟨-, exit', -, hdead, -⟩ := h code hsome (by simp [halive])
    rw [halive] at hdead
    cases hdead
  | @collected waitFails exit hevent hdrained hdead =>
    intro code hsome _
    cases hsome
    exact ⟨hdrained.2.1, exit, waitFails, hdead, hcollect waitFails hevent hdrained, rfl⟩
  | unregistered hphase | cleared hphase => exact hsame (by simp [code?, hphase]) rfl fun _ => rfl
  | reported hphase =>
    refine hsame (by simp [code?, hphase]) (by simp) fun source => ?_
    rw [pipe_phase, pipe_send]
  | left => exact hsame rfl rfl fun _ => rfl

/-- How the reader of a pipe stands after it has read these chunks. -/
structure Reads (e : Execution) (source : Source) (chunks : List (List UInt8)) : Prop where
  unread : e.process = none → e.pipe source = {} ∧ chunks = []
  pending : (e.pipe source).closed = false → (e.pipe source).pending = (decodeEach chunks).1
  sent : e.isLeft = false → e.process.isSome → e.parts source =
    shown ((decodeEach chunks).2 ++ if (e.pipe source).closed then [flush (decodeEach chunks).1] else [])

variable {chunks : List (List UInt8)}

theorem reads_new (label command : String) (arguments : List String) (source : Source) :
    Reads { label, command, arguments } source [] := by
  refine ⟨fun _ => ⟨?_, rfl⟩, fun _ => ?_, by simp⟩
  · cases source <;> rfl
  · cases source <;> rfl

/-- What neither touches a pipe nor sends its text leaves its reader as it is. -/
theorem Reads.kept (h : Reads e source chunks) (hpipe : e'.pipe source = e.pipe source)
    (hparts : e'.parts source = e.parts source) (hleft : e'.isLeft = false → e.isLeft = false)
    (hprocess : e'.process.isSome = e.process.isSome) : Reads e' source chunks := by
  refine ⟨fun hnone => ?_, fun hopen => ?_, fun hstays hthere => ?_⟩
  · rw [hpipe]
    refine h.unread ?_
    simpa [hnone] using hprocess.symm
  · rw [hpipe] at hopen ⊢
    exact h.pending hopen
  · rw [hparts, hpipe]
    exact h.sent (hleft hstays) (hprocess ▸ hthere)

/-- What goes on at the other pipe. -/
theorem Reads.aside (h : Reads e source chunks) (hne : source ≠ other) (p : Pipe) (text : List Char) :
    Reads ((e.setPipe other p).sendText other text) source chunks := by
  refine h.kept ?_ ?_ ?_ (by simp)
  · rw [sendText_pipe, setPipe_pipe, if_neg hne]
  · rw [parts_sendText_of_ne hne, parts, frames_setPipe, parts]
  · rw [isLeft_sendText, isLeft_setPipe]
    exact id

/-- A pipe that is open, at its own reader: what is sent next. -/
theorem Reads.next (h : Reads e source chunks) (hthere : e.process.isSome) (hopen : (e.pipe source).closed = false)
    (p : Pipe) (text : List Char) (hstays : ((e.setPipe source p).sendText source text).isLeft = false) :
    ((e.setPipe source p).sendText source text).parts source = shown ((decodeEach chunks).2 ++ [text]) := by
  rw [isLeft_sendText, isLeft_setPipe] at hstays
  have hleft : (e.setPipe source p).isLeft = false := by rw [isLeft_setPipe, hstays]
  have hsent := h.sent hstays hthere
  rw [hopen] at hsent
  rw [parts_sendText_self hleft, parts, frames_setPipe, ← parts, hsent, shown_append, shown_append]
  simp [shown]

theorem Reads.read (h : Reads e source chunks) (hthere : e.process.isSome) (hphase : e.phase = .running)
    (hopen : (e.pipe other).closed = false) (octets : List UInt8) :
    Reads (e.read other octets) source (chunks ++ if source = other then [octets] else []) := by
  rw [read_of_open hphase hopen]
  by_cases hsame : source = other
  · subst hsame
    rw [if_pos rfl, h.pending hopen]
    refine ⟨fun hnone => ?_, fun _ => ?_, fun hstays _ => ?_⟩
    · simp only [sendText_process, setPipe_process] at hnone
      simp [hnone] at hthere
    · rw [sendText_pipe, setPipe_pipe, if_pos rfl, decodeEach_concat]
    · rw [h.next hthere hopen _ _ hstays, sendText_pipe, setPipe_pipe, if_pos rfl, decodeEach_concat]
      simp
  · rw [if_neg hsame, List.append_nil]
    exact h.aside hsame _ _

theorem Reads.moves {event : Executor.Event} (h : Reads e source chunks) (hcourse : Course e)
    (hmoves : Moves i event e e') : Reads e' source chunks := by
  cases hmoves with
  | idle => exact h
  | written hphase | registered hphase | unregistered hphase | cleared hphase => exact h.kept rfl rfl id rfl
  | collected => exact h.kept rfl rfl id rfl
  | failed hreason hphase =>
    have hnone := (hcourse.early hphase).1
    rw [fail]
    refine ⟨fun _ => ?_, fun hopen => ?_, by simp [hnone]⟩
    · rw [pipe_phase, pipe_send]
      exact h.unread hnone
    · rw [pipe_phase, pipe_send] at hopen ⊢
      exact h.pending hopen
  | spawned hphase =>
    obtain ⟨hnone, hframes⟩ := hcourse.early (.inr hphase)
    obtain ⟨hpipe, rfl⟩ := h.unread hnone
    have hnew : ({ e with phase := .spawned, process := some .alive } : Execution).pipe source = {} := hpipe
    refine ⟨by simp, fun _ => ?_, fun _ _ => ?_⟩
    · rw [hnew]
      rfl
    · rw [hnew, parts, hframes]
      rfl
  | closed other hphase hopen =>
    have hthere : e.process.isSome := hcourse.process (.inr hphase)
    by_cases hsame : source = other
    · subst hsame
      refine ⟨fun hnone => ?_, fun hstill => ?_, fun hstays _ => ?_⟩
      · simp only [sendText_process, setPipe_process] at hnone
        simp [hnone] at hthere
      · simp [setPipe_pipe] at hstill
      · rw [h.next hthere hopen _ _ hstays, sendText_pipe, setPipe_pipe, if_pos rfl, h.pending hopen]
        rfl
    · exact h.aside hsame _ _
  | died exit halive => exact h.kept rfl rfl id (by simp [halive])
  | reported hphase =>
    refine h.kept ?_ ?_ (fun hstays => ?_) (by simp)
    · rw [pipe_phase, pipe_send]
    · have hexit (code : Int) : textOf? source (.exit code) = none := by cases source <;> rfl
      rw [parts, frames_send, List.filterMap_append, parts]
      split <;> simp [hexit]
    · rwa [← isLeft_send e]
  | left => exact ⟨h.unread, h.pending, by simp⟩

end Execution

namespace Executor

open Execution (Source Moves)

variable {x : Executor} {i : Nat} {e : Execution} {event : Event}

/-- The chunk that an execution takes from a pipe with an event. -/
def took (x : Executor) (i : Nat) (source : Source) : Event → List (List UInt8)
  | .read j other octets =>
    match x.executions[i]? with
    | some e => if j = i ∧ other = source ∧ e.phase = .running ∧ (e.pipe source).closed = false then [octets] else []
    | none => []
  | _ => []

/-- The chunks that an execution takes from a pipe. -/
def chunks (x : Executor) (i : Nat) (source : Source) : List Event → List (List UInt8)
  | [] => []
  | event :: rest => x.took i source event ++ (x.step event).chunks i source rest

theorem took_of_ne {source : Source} (h : event.owner? ≠ some i) : x.took i source event = [] := by
  cases event <;> simp only [took]
  rename_i j other octets
  have hne : j ≠ i := fun heq => h (congrArg some heq)
  cases x.executions[i]? <;> simp [hne]

theorem chunks_concat (x : Executor) (i : Nat) (source : Source) (events : List Event) (event : Event) :
    x.chunks i source (events ++ [event]) = x.chunks i source events ++ (x.run events).took i source event := by
  induction events generalizing x with
  | nil => simp [chunks, run]
  | cons first rest ih =>
    rw [List.cons_append, chunks, chunks, ih, List.append_assoc]
    rfl

/-- An event of another execution, or of none, leaves an execution as it is or kills its process. -/
theorem getElem?_step_of_ne (hi : x.executions[i]? = some e) (howner : event.owner? ≠ some i) :
    (x.step event).executions[i]? = some e ∨ (x.step event).executions[i]? = some (e.die none) := by
  cases hother : event.owner? with
  | some j =>
    have hne : j ≠ i := fun heq => howner (heq ▸ hother)
    cases hj : x.executions[j]? with
    | none => exact .inl (by rw [step_of_no_owner hj hother, hi])
    | some u =>
      obtain ⟨_, -, hothers⟩ := advances_stepOne hj hother
      exact .inl (by rw [step_of_owner hj hother, hothers, if_neg hne, hi])
  | none =>
    cases event <;> simp only [Event.owner?, reduceCtorEq] at hother
    case accept label command arguments =>
      rw [step]
      split
      · exact .inl hi
      · exact .inl ((List.getElem?_append_left (List.getElem?_eq_some_iff.1 hi).1).trans hi)
    case cancel label isRefused =>
      simp only [step]
      split
      · rename_i j _
        split
        · exact .inl hi
        · by_cases hsame : j = i
          · subst hsame
            exact .inr (by rw [getElem?_change hi, if_pos rfl])
          · exact .inl (by simp [change, hsame, hi])
      · exact .inl hi

/-- The move that an event of an execution makes; to read is none. -/
theorem moves_stepOne (hi : x.executions[i]? = some e) (howner : event.owner? = some i)
    (hread : ∀ source octets, event ≠ .read i source octets) :
    ∃ e', (x.stepOne i e event).executions[i]? = some e' ∧ Moves i event e e' := by
  have hself : x.executions[i]? = some e ∧ Moves i event e e := ⟨hi, .idle⟩
  have hchange {y : Executor} (f : Execution → Execution) (hy : y.executions = x.executions)
      (hmove : Moves i event e (f e)) :
      ∃ e', (y.change i f).executions[i]? = some e' ∧ Moves i event e e' := by
    have hyi : y.executions[i]? = some e := by rw [hy, hi]
    exact ⟨f e, by rw [getElem?_change hyi, if_pos rfl], hmove⟩
  cases event <;> simp only [Event.owner?, Option.some.injEq, reduceCtorEq] at howner <;> subst howner
  case writeScript writing =>
    rw [stepOne]
    split
    · rename_i hphase
      cases writing with
      | done => exact hchange _ (putScript_executions _ _) (.written hphase)
      | failed reason leavesFile =>
        refine hchange _ (by cases leavesFile <;> rfl) (.failed ?_ (.inl hphase))
        simp [String.toList_append]
    · exact ⟨e, hself⟩
  case spawn failure =>
    rw [stepOne]
    split
    · rename_i hphase
      cases failure with
      | none => exact hchange _ rfl (.spawned hphase)
      | some reason =>
        refine hchange _ rfl (.failed ?_ (.inr hphase))
        simp [String.toList_append]
    · exact ⟨e, hself⟩
  case register =>
    rw [stepOne]
    split
    · rename_i hphase
      exact hchange _ rfl (.registered hphase)
    · exact ⟨e, hself⟩
  case read source octets => exact absurd rfl (hread source octets)
  case close source => exact hchange _ rfl (Execution.moves_close e source _)
  case exit code => exact hchange _ rfl (Execution.moves_die e code _)
  case collect waitFails => exact hchange _ rfl (Execution.moves_collect e waitFails)
  case unregister =>
    rw [stepOne]
    split
    · rename_i hphase
      exact hchange _ rfl (.unregistered hphase)
    · exact ⟨e, hself⟩
  case removeScript =>
    rw [stepOne]
    split
    · rename_i hphase
      exact hchange _ rfl (.cleared hphase)
    · exact ⟨e, hself⟩
  case report =>
    rw [stepOne]
    split
    · rename_i hphase
      exact hchange _ rfl (.reported hphase)
    · exact ⟨e, hself⟩
  case leave => exact hchange _ rfl .left

/-- An event makes one move of an execution, or a chunk is read. -/
theorem moves_step (hi : x.executions[i]? = some e) (event : Event) :
    ∃ e', (x.step event).executions[i]? = some e' ∧
      (Moves i event e e' ∧ (∀ source, x.took i source event = []) ∨
        ∃ source octets, e.phase = .running ∧ (e.pipe source).closed = false ∧ e' = e.read source octets ∧
          ∀ other, x.took i other event = if other = source then [octets] else []) := by
  by_cases howner : event.owner? = some i
  · rw [step_of_owner hi howner]
    by_cases hread : ∃ source octets, event = .read i source octets
    · obtain ⟨source, octets, rfl⟩ := hread
      refine ⟨e.read source octets, by rw [stepOne, getElem?_change hi, if_pos rfl], ?_⟩
      by_cases hopen : e.phase = .running ∧ (e.pipe source).closed = false
      · refine .inr ⟨source, octets, hopen.1, hopen.2, rfl, fun other => ?_⟩
        by_cases hsame : other = source
        · simp [took, hi, hsame, hopen]
        · simp [took, hi, hsame, Ne.symm hsame]
      · have hidle : e.read source octets = e := if_pos (by simpa [or_iff_not_imp_left] using hopen)
        rw [hidle]
        refine .inl ⟨.idle, fun other => ?_⟩
        simp only [took, hi]
        rw [if_neg]
        rintro ⟨-, rfl, hrunning⟩
        exact hopen hrunning
    · obtain ⟨e', he', hmoves⟩ := moves_stepOne hi howner fun source octets heq => hread ⟨source, octets, heq⟩
      refine ⟨e', he', .inl ⟨hmoves, fun source => ?_⟩⟩
      cases event <;> first | rfl | skip
      cases howner
      exact absurd ⟨_, _, rfl⟩ hread
  · have htook (source : Source) : x.took i source event = [] := took_of_ne howner
    rcases getElem?_step_of_ne hi howner with hsame | hdead
    · exact ⟨e, hsame, .inl ⟨.idle, htook⟩⟩
    · exact ⟨e.die none, hdead, .inl ⟨Execution.moves_die e none event, htook⟩⟩

/-! ### Whole runs -/

/-- The wait for an execution whose pipes and process have ended is over, and may have failed. -/
def Settles (i : Nat) (waitFails : Bool) (x : Executor) (event : Event) : Prop :=
  event = .collect i waitFails ∧ ∃ e, x.executions[i]? = some e ∧ e.IsDrained

/-- How an execution stands after these chunks and waits, if there is one yet. -/
def Accounts (x : Executor) (i : Nat) (chunks : Source → List (List UInt8)) (waits : Bool → Prop) : Prop :=
  match x.executions[i]? with
  | some e => e.Course ∧ e.Settled waits ∧ ∀ source, e.Reads source (chunks source)
  | none => ∀ source, chunks source = []

theorem accounts_of_some {chunks : Source → List (List UInt8)} {waits : Bool → Prop} (hi : x.executions[i]? = some e) :
    x.Accounts i chunks waits ↔ e.Course ∧ e.Settled waits ∧ ∀ source, e.Reads source (chunks source) := by
  rw [Accounts, hi]

/-- An execution that is not there comes in anew, if it does. -/
theorem getElem?_step_of_none (hi : x.executions[i]? = none) (event : Event) :
    (x.step event).executions[i]? = none ∨ ∃ label command arguments,
      (x.step event).executions[i]? = some { label, command, arguments } := by
  rcases advances_step x event with hsame | ⟨j, u, hj, -, _, -, hothers⟩ | ⟨label, command, arguments, -, -, hstep⟩
  · exact .inl (by rw [hsame, hi])
  · have hne : j ≠ i := by
      rintro rfl
      rw [hi] at hj
      cases hj
    exact .inl (by rw [hothers, if_neg hne, hi])
  · rw [hstep, List.getElem?_append_right (List.getElem?_eq_none_iff.1 hi)]
    cases i - x.executions.length with
    | zero => exact .inr ⟨label, command, arguments, rfl⟩
    | succ n => exact .inl rfl

theorem accounts_step {chunks : Source → List (List UInt8)} {waits waits' : Bool → Prop} (h : x.Accounts i chunks waits)
    (hkept : ∀ waitFails, waits waitFails → waits' waitFails)
    (hsettles : ∀ waitFails, Settles i waitFails x event → waits' waitFails) :
    (x.step event).Accounts i (fun source => chunks source ++ x.took i source event) waits' := by
  cases hi : x.executions[i]? with
  | none =>
    have hchunks (source : Source) : chunks source ++ x.took i source event = [] := by
      rw [Accounts, hi] at h
      have htook : x.took i source event = [] := by cases event <;> simp [took, hi]
      rw [h source, htook, List.append_nil]
    rcases getElem?_step_of_none hi event with hnone | ⟨label, command, arguments, hnew⟩
    · rw [Accounts, hnone]
      exact hchunks
    · rw [accounts_of_some hnew]
      refine ⟨Execution.course_new label command arguments, by simp [Execution.Settled, Execution.code?], ?_⟩
      intro source
      rw [hchunks]
      exact Execution.reads_new label command arguments source
  | some e =>
    obtain ⟨hcourse, hsettled, hreads⟩ := (accounts_of_some hi).1 h
    obtain ⟨e', he', ⟨hmoves, htook⟩ | ⟨source, octets, hphase, hopen, rfl, htook⟩⟩ := moves_step hi event
    · rw [accounts_of_some he']
      refine ⟨hcourse.moves hmoves, hsettled.moves hcourse hmoves hkept ?_, fun source => ?_⟩
      · exact fun waitFails hevent hdrained => hsettles waitFails ⟨hevent, e, hi, hdrained⟩
      · rw [htook, List.append_nil]
        exact (hreads source).moves hcourse hmoves
    · rw [accounts_of_some he']
      have hthere : e.process.isSome := hcourse.process (.inr hphase)
      refine ⟨?_, ?_, fun other => ?_⟩
      · rw [Execution.read_of_open hphase hopen]
        exact hcourse.sendText hphase source _ _
      · have hrunning : (e.read source octets).phase = .running := (Execution.read_phase source octets).trans hphase
        simp [Execution.Settled, Execution.code?, hrunning]
      · rw [htook]
        exact (hreads other).read hthere hphase hopen octets

theorem accounts_run (home : Path) (files : Files) (events : List Event) (i : Nat) :
    ((fresh home files).run events).Accounts i (fun source => (fresh home files).chunks i source events)
      fun waitFails => (fresh home files).Happens events (Settles i waitFails) := by
  induction events using List.reverseRecOn with
  | nil => simp [Accounts, run, fresh, chunks]
  | append_singleton events event ih =>
    rw [run_concat]
    simp only [chunks_concat, happens_concat]
    exact accounts_step ih (fun _ hbefore => .inl hbefore) fun _ hsettles => .inr hsettles

end Executor

end Muster
