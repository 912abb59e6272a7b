import Muster.Proofs.Encoding
import Muster.Proofs.Executing

/-!
# The text of a stream

The output of a process comes in chunks that may end within a character. Each chunk is decoded behind the octets
that the one before left over, in rounds, each of which ends at the next broken part. However the output is cut,
the texts that are sent are together the text of all of it.
-/

namespace Muster

/-! ### The rounds over a buffer -/

namespace Text.Utf8

/-- Where octets stop to be a text: how many at the front are one, and how many behind those belong to no character;
none where the octets only end too early. -/
structure Flaw where
  validUpTo : Nat
  length : Option Nat
  deriving DecidableEq, Repr

/-- Checks octets one after the other, behind those of a character that is not complete yet. -/
def check (valid : List Char) (upTo : Nat) (part : List UInt8) : List UInt8 → Except Flaw (List Char)
  | [] => if part = [] then .ok valid else .error ⟨upTo, none⟩
  | b :: rest =>
    match owed? (part ++ [b]) with
    | some [] => check (valid ++ [character (part ++ [b])]) (upTo + (part ++ [b]).length) [] rest
    | some _ => check valid upTo (part ++ [b]) rest
    | none => .error ⟨upTo, some (max part.length 1)⟩

/-- Octets as a text, if they are one. -/
def fromUtf8 (octets : List UInt8) : Except Flaw (List Char) := check [] 0 [] octets

/-- The octets of a buffer between two places; none if the buffer has no such part. -/
def slice? (buffer : List UInt8) (start stop : Nat) : Option (List UInt8) :=
  if start ≤ stop ∧ stop ≤ buffer.length then some ((buffer.take stop).drop start) else none

/-- So many rounds over a buffer, from a place in it: the text with what is left over in the end, or none if more
rounds are needed or a round goes beyond the buffer. -/
def rounds (buffer : List UInt8) : Nat → Nat → List Char → Option (List Char × List UInt8)
  | 0, _, _ => none
  | more + 1, start, out =>
    match (slice? buffer start buffer.length).map fromUtf8 with
    | none => none
    | some (.ok valid) => some (out ++ valid, [])
    | some (.error flaw) =>
      let stop := start + flaw.validUpTo
      match (slice? buffer start stop).map fromUtf8 with
      | none => none
      | some front =>
        let out := out ++ front.toOption.getD []
        match flaw.length with
        | some n => rounds buffer more (stop + n) (out ++ [replacement])
        | none => some (out, buffer.drop stop)

/-- Takes the text out of a buffer, and leaves what may still become a character. -/
def takeText (buffer : List UInt8) : Option (List Char × List UInt8) := rounds buffer (buffer.length + 1) 0 []

/-! ### What a check finds -/

/-- The octets of a text. -/
def encodeAll (text : List Char) : List UInt8 := text.flatMap String.utf8EncodeChar

@[simp] theorem encodeAll_nil : encodeAll [] = [] := rfl

@[simp] theorem encodeAll_concat (text : List Char) (c : Char) :
    encodeAll (text ++ [c]) = encodeAll text ++ String.utf8EncodeChar c := by
  simp [encodeAll]

/-- What a check tells of octets. -/
inductive Checked : List UInt8 → Except Flaw (List Char) → Prop
  | whole (text : List Char) : Checked (encodeAll text) (.ok text)
  | cut (text : List Char) {part : List UInt8} (h : Begins part) :
      Checked (encodeAll text ++ part) (.error ⟨(encodeAll text).length, none⟩)
  | broken (text : List Char) {part rest : List UInt8} (h : IsBroken part rest) :
      Checked (encodeAll text ++ (part ++ rest)) (.error ⟨(encodeAll text).length, some part.length⟩)

theorem checked_check (valid : List Char) {part : List UInt8} (hpart : part = [] ∨ Begins part) (s : List UInt8) :
    Checked (encodeAll valid ++ (part ++ s)) (check valid (encodeAll valid).length part s) := by
  induction s generalizing valid part with
  | nil =>
    rw [check, List.append_nil]
    split
    · rename_i hnil
      rw [hnil, List.append_nil]
      exact .whole valid
    · rename_i hne
      exact .cut valid (hpart.resolve_left hne)
  | cons b rest ih =>
    rw [check]
    split
    · rename_i howed
      have hchar := encode_character (wellFormed_of_owed? howed)
      have hrest := ih (valid ++ [character (part ++ [b])]) (.inl rfl)
      rw [encodeAll_concat, hchar, List.length_append] at hrest
      simpa [List.append_assoc] using hrest
    · rename_i owed hne howed
      have hrest := ih valid (.inr (begins_iff.2 ⟨owed, howed, hne⟩))
      simpa [List.append_assoc] using hrest
    · rename_i howed
      have hno := not_leads_iff.2 howed
      rcases hpart with rfl | hbegins
      · exact .broken valid (.stray rest hno)
      · have hlength : max part.length 1 = part.length := by
          have hpos := List.length_pos_iff.2 hbegins.1
          omega
        rw [hlength]
        exact .broken valid (.left rest hbegins hno)

theorem checked_fromUtf8 (octets : List UInt8) : Checked octets (fromUtf8 octets) :=
  checked_check [] (.inl rfl) octets

/-- A check goes over the octets of a character. -/
theorem check_append {part s : List UInt8} (hs : s ≠ []) (h : owed? (part ++ s) = some []) (valid : List Char)
    (upTo : Nat) (rest : List UInt8) :
    check valid upTo part (s ++ rest) =
      check (valid ++ [character (part ++ s)]) (upTo + (part ++ s).length) [] rest := by
  induction s generalizing part with
  | nil => exact absurd rfl hs
  | cons b s ih =>
    by_cases hlast : s = []
    · subst hlast
      rw [List.singleton_append, check, h]
    · have hsame : part ++ b :: s = part ++ [b] ++ s := by simp
      rw [hsame] at h ⊢
      obtain ⟨owed, howed, hafter⟩ := Option.bind_eq_some_iff.1 ((owed?_append (by simp) s).symm.trans h)
      rw [List.cons_append, check, howed]
      cases owed with
      | nil => exact absurd ((after?_nil_iff s).1 hafter) hlast
      | cons range ranges => exact ih hlast h

theorem check_encodeAll (text valid : List Char) (upTo : Nat) :
    check valid upTo [] (encodeAll text) = .ok (valid ++ text) := by
  induction text generalizing valid upTo with
  | nil => simp [check]
  | cons c rest ih =>
    have hwhole : owed? ([] ++ String.utf8EncodeChar c) = some [] := owed?_eq_nil_iff.2 ⟨c, rfl⟩
    have hcons : encodeAll (c :: rest) = String.utf8EncodeChar c ++ encodeAll rest := rfl
    rw [hcons, check_append String.utf8EncodeChar_ne_nil hwhole, ih]
    simp

/-- The octets of a text are that text. -/
theorem fromUtf8_encodeAll (text : List Char) : fromUtf8 (encodeAll text) = .ok text :=
  check_encodeAll text [] 0

/-! ### The rounds end, and give what the reader gives -/

theorem decode_encodeAll (text : List Char) (rest : List UInt8) :
    decode {} (encodeAll text ++ rest) = ((decode {} rest).1, text ++ (decode {} rest).2) := by
  induction text with
  | nil => rfl
  | cons c more ih =>
    have hcons : encodeAll (c :: more) = String.utf8EncodeChar c ++ encodeAll more := rfl
    rw [hcons, List.append_assoc, decode_encode, ih]
    rfl

/-- A round for each octet that is left, and one more, are enough. -/
theorem rounds_eq (buffer : List UInt8) {more : Nat} (start : Nat) (hstart : start ≤ buffer.length)
    (hmore : buffer.length - start < more) (out : List Char) :
    rounds buffer more start out =
      some (out ++ (decode {} (buffer.drop start)).2, (decode {} (buffer.drop start)).1.octets) := by
  induction more generalizing start out with
  | zero => omega
  | succ more ih =>
    have hslice : slice? buffer start buffer.length = some (buffer.drop start) := by
      rw [slice?, if_pos ⟨hstart, Nat.le_refl _⟩, List.take_length]
    have hlength : (buffer.drop start).length = buffer.length - start := List.length_drop
    -- What a check finds at the front of the rest can be cut out of the buffer.
    have hfront {text : List Char} {rest : List UInt8} (hdrop : encodeAll text ++ rest = buffer.drop start) :
        slice? buffer start (start + (encodeAll text).length) = some (encodeAll text) ∧
          buffer.drop (start + (encodeAll text).length) = rest := by
      have hle : start + (encodeAll text).length ≤ buffer.length := by
        rw [← hdrop, List.length_append] at hlength
        omega
      refine ⟨?_, by rw [← List.drop_drop, ← hdrop, List.drop_left]⟩
      rw [slice?, if_pos ⟨Nat.le_add_right _ _, hle⟩, List.drop_take, ← hdrop, Nat.add_sub_cancel_left,
        List.take_left]
    have hchecked := checked_fromUtf8 (buffer.drop start)
    rw [rounds, hslice, Option.map_some]
    generalize hrest : buffer.drop start = rest at hchecked
    generalize fromUtf8 rest = result at hchecked
    cases hchecked with
    | whole text =>
      have hdecode := decode_encodeAll text []
      rw [List.append_nil] at hdecode
      simp [hdecode]
    | @cut text part hbegins =>
      obtain ⟨hcut, hleft⟩ := hfront hrest.symm
      obtain ⟨owed, -, -, hpart⟩ := decode_begins hbegins
      simp [hcut, hleft, fromUtf8_encodeAll, Except.toOption, decode_encodeAll, hpart]
    | @broken text part rest hbroken =>
      obtain ⟨hcut, hleft⟩ := hfront hrest.symm
      have hdrop : buffer.drop (start + (encodeAll text).length + part.length) = rest := by
        rw [← List.drop_drop, hleft, List.drop_left]
      have hpos : 0 < part.length := by
        cases hbroken with
        | stray => exact Nat.one_pos
        | left rest hbegins _ => exact List.length_pos_iff.2 hbegins.1
      have hle : (encodeAll text).length + (part.length + rest.length) = buffer.length - start := by
        rw [← hlength, hrest, List.length_append, List.length_append]
      have hnext := ih (start + (encodeAll text).length + part.length) (by omega) (by omega)
        (out ++ text ++ [replacement])
      simp only [hcut, Option.map_some, fromUtf8_encodeAll, Except.toOption, Option.getD_some]
      rw [hnext, hdrop, decode_encodeAll, decode_broken hbroken]
      simp

/-- The rounds over what was left and a chunk give what the reader gives of the chunk. -/
theorem takeText_eq {p : Pending} (hp : p.Fits) (chunk : List UInt8) :
    takeText (p.octets ++ chunk) = some ((decode p chunk).2, (decode p chunk).1.octets) := by
  have hleft : decode {} p.octets = (p, []) := by
    rcases hp with rfl | ⟨howed, hne⟩
    · rfl
    · rw [decode_of_owed? howed, if_neg hne]
  have hrounds := rounds_eq (p.octets ++ chunk) 0 (Nat.zero_le _) (Nat.lt_succ_self _) []
  rw [List.drop_zero, decode_append, hleft] at hrounds
  exact hrounds

end Text.Utf8

/-! ### What an execution has sent -/

namespace Execution

open Text.Utf8 (decode flush Lossy Begins takeText)

/-- The text of a frame, if it is of this source. -/
def textOf : Source → Frame → List Char
  | .out, .out text => text.toList
  | .err, .err text => text.toList
  | _, _ => []

/-- All the text of a source that was sent. -/
def texts (e : Execution) (source : Source) : List Char := e.frames.flatMap (textOf source)

/-- How an execution stands after its process wrote these octets to a pipe. -/
structure Relays (e : Execution) (source : Source) (octets : List UInt8) : Prop where
  early : e.phase = .accepted ∨ e.phase = .written →
    e.process = none ∧ e.pipe source = {} ∧ e.texts source = [] ∧ octets = []
  fits : (e.pipe source).pending.Fits
  opened : e.process.isSome → e.isLeft = false → (e.pipe source).closed = false →
    decode {} octets = ((e.pipe source).pending, e.texts source)
  closed : e.process.isSome → e.isLeft = false → (e.pipe source).closed →
    e.texts source = (decode {} octets).2 ++ flush (decode {} octets).1

variable {e e' : Execution} {source other : Source} {octets : List UInt8}

theorem texts_sendText_self (e : Execution) (source : Source) (text : List Char) (h : e.isLeft = false) :
    (e.sendText source text).texts source = e.texts source ++ text := by
  unfold sendText
  split
  · rename_i hempty
    simp [List.isEmpty_iff.1 hempty]
  · have hframe : textOf source (frame source text) = text := by cases source <;> simp [frame, textOf]
    simp [send, h, texts, hframe]

theorem texts_sendText_of_ne (e : Execution) (h : source ≠ other) (text : List Char) :
    (e.sendText other text).texts source = e.texts source := by
  have hframe : textOf source (frame other text) = [] := by
    cases source <;> cases other <;> first | exact absurd rfl h | rfl
  unfold sendText send
  split
  · rfl
  · split
    · rfl
    · simp [texts, hframe]

theorem isLeft_sendText (e : Execution) (source : Source) (text : List Char) :
    (e.sendText source text).isLeft = e.isLeft := by
  unfold sendText send
  split
  · rfl
  · split <;> rfl

theorem isLeft_setPipe (e : Execution) (source : Source) (p : Pipe) : (e.setPipe source p).isLeft = e.isLeft := by
  cases source <;> rfl

theorem texts_setPipe (e : Execution) (other source : Source) (p : Pipe) :
    (e.setPipe other p).texts source = e.texts source := by
  cases other <;> rfl

/-- What neither touches a pipe nor sends its text leaves it as it is. -/
theorem Relays.kept (h : Relays e source octets) (hpipe : e'.pipe source = e.pipe source)
    (htexts : e'.texts source = e.texts source) (hleft : e'.isLeft = false → e.isLeft = false)
    (hprocess : e'.process.isSome → e.process.isSome)
    (hearly : e'.phase = .accepted ∨ e'.phase = .written →
      (e.phase = .accepted ∨ e.phase = .written) ∧ e'.process = e.process) : Relays e' source octets := by
  refine ⟨fun hphase => ?_, ?_, fun hp hl hopen => ?_, fun hp hl hclosed => ?_⟩
  · obtain ⟨hbefore, hsame⟩ := hearly hphase
    rw [hsame, hpipe, htexts]
    exact h.early hbefore
  · rw [hpipe]
    exact h.fits
  · rw [hpipe] at hopen ⊢
    rw [htexts]
    exact h.opened (hprocess hp) (hleft hl) hopen
  · rw [hpipe] at hclosed
    rw [htexts]
    exact h.closed (hprocess hp) (hleft hl) hclosed

/-- An execution that fails has no process, and nothing more is said of it. -/
theorem Relays.fail (h : Relays e source octets) (hphase : e.phase = .accepted ∨ e.phase = .written)
    (reason : String) : Relays (e.fail reason) source octets := by
  have hnone : (e.fail reason).process = none := by
    simpa [Execution.fail] using (h.early hphase).1
  have hpipe : (e.fail reason).pipe source = e.pipe source := by
    unfold Execution.fail send
    cases source <;> simp only [pipe] <;> split <;> rfl
  refine ⟨fun h => ?_, by rw [hpipe]; exact h.fits, ?_, ?_⟩
  · simp [Execution.fail] at h
  · simp [hnone]
  · simp [hnone]

/-- The octets that an execution takes from a pipe when it reads. -/
def takes (e : Execution) (source : Source) (octets : List UInt8) : List UInt8 :=
  if e.phase ≠ .running ∨ (e.pipe source).closed then [] else octets

/-- What goes on at the other pipe changes nothing at this one. -/
theorem Relays.aside (h : Relays e source octets) (hne : source ≠ other) (p : Pipe) (text : List Char) :
    Relays ((e.setPipe other p).sendText other text) source octets := by
  refine h.kept ?_ ?_ ?_ ?_ fun hphase => ⟨?_, by simp⟩
  · rw [sendText_pipe, setPipe_pipe, if_neg hne]
  · rw [texts_sendText_of_ne _ hne, texts_setPipe]
  · rw [isLeft_sendText, isLeft_setPipe]
    exact id
  · simp
  · simpa using hphase

theorem Relays.read (h : Relays e source octets) (other : Source) (chunk : List UInt8) :
    Relays (e.read other chunk) source (octets ++ if other = source then e.takes source chunk else []) := by
  unfold Execution.read takes
  by_cases hidle : e.phase ≠ .running ∨ (e.pipe other).closed
  · rw [if_pos hidle]
    split
    · rename_i hsame
      subst hsame
      rwa [if_pos hidle, List.append_nil]
    · rwa [List.append_nil]
  · rw [if_neg hidle]
    by_cases hsame : other = source
    · subst hsame
      rw [if_pos rfl, if_neg hidle]
      simp only [not_or, ne_eq, not_not, Bool.not_eq_true] at hidle
      refine ⟨fun hphase => ?_, ?_, fun hp hl _ => ?_, fun _ _ hclosed => ?_⟩
      · simp [hidle.1] at hphase
      · simpa [setPipe_pipe] using h.fits.decode chunk
      · rw [isLeft_sendText, isLeft_setPipe] at hl
        simp only [sendText_process, setPipe_process] at hp
        have hopen := h.opened hp hl hidle.2
        rw [Text.Utf8.decode_append, hopen, sendText_pipe, setPipe_pipe, if_pos rfl,
          texts_sendText_self _ _ _ ((isLeft_setPipe _ _ _).trans hl), texts_setPipe]
      · simp [setPipe_pipe] at hclosed
    · rw [if_neg hsame, List.append_nil]
      exact h.aside (Ne.symm hsame) _ _

theorem Relays.close (h : Relays e source octets) (other : Source) : Relays (e.close other) source octets := by
  unfold Execution.close
  by_cases hidle : e.phase ≠ .running ∨ (e.pipe other).closed
  · rwa [if_pos hidle]
  · rw [if_neg hidle]
    by_cases hsame : other = source
    · subst hsame
      simp only [not_or, ne_eq, not_not, Bool.not_eq_true] at hidle
      refine ⟨fun hphase => ?_, ?_, fun _ _ hopen => ?_, fun hp hl _ => ?_⟩
      · simp [hidle.1] at hphase
      · rw [sendText_pipe, setPipe_pipe, if_pos rfl]
        exact Text.Utf8.fits_nothing
      · simp [setPipe_pipe] at hopen
      · rw [isLeft_sendText, isLeft_setPipe] at hl
        simp only [sendText_process, setPipe_process] at hp
        have hopen := h.opened hp hl hidle.2
        rw [hopen, texts_sendText_self _ _ _ ((isLeft_setPipe _ _ _).trans hl), texts_setPipe]
    · exact h.aside (Ne.symm hsame) _ _

/-- An execution of which nothing was sent yet gets its process. -/
theorem Relays.spawned (h : Relays e source octets) (hphase : e.phase = .written) :
    Relays { e with phase := .spawned, process := some .alive } source octets := by
  obtain ⟨-, hpipe, htexts, rfl⟩ := h.early (.inr hphase)
  have hnew : ({ e with phase := .spawned, process := some .alive } : Execution).pipe source = {} := hpipe
  refine ⟨by simp, ?_, fun _ _ _ => ?_, fun _ _ hclosed => ?_⟩
  · rw [hnew]
    exact Text.Utf8.fits_nothing
  · rw [hnew]
    exact congrArg (Prod.mk _) htexts.symm
  · rw [hnew] at hclosed
    cases hclosed

theorem Relays.die (h : Relays e source octets) (code : Option Int) : Relays (e.die code) source octets := by
  unfold Execution.die
  split
  · rename_i halive
    have hprocess : e.process = some .alive := by simpa [isAlive] using halive
    refine h.kept rfl rfl id (fun _ => by simp [hprocess]) fun hphase => ?_
    rw [(h.early hphase).1] at hprocess
    cases hprocess
  · exact h

theorem Relays.collect (h : Relays e source octets) (waitFails : Bool) :
    Relays (e.collect waitFails) source octets := by
  unfold Execution.collect
  split
  · split
    · exact h.kept rfl rfl id id (by simp)
    · exact h
  · exact h

theorem Relays.reported (h : Relays e source octets) (code : Int) :
    Relays { e.send (.exit code) with phase := .ended code } source octets := by
  have htext : textOf source (.exit code) = [] := by cases source <;> rfl
  unfold send
  split
  · exact h.kept rfl rfl id id (by simp)
  · exact h.kept rfl (by simp [texts, htext]) id id (by simp)

theorem relays_new (label command : String) (arguments : List String) (source : Source) :
    Relays { label, command, arguments } source [] := by
  refine ⟨fun _ => ?_, ?_, ?_, ?_⟩
  · cases source <;> exact ⟨rfl, rfl, rfl, rfl⟩
  · cases source <;> exact Text.Utf8.fits_nothing
  · simp
  · simp

end Execution

/-! ### The executions of a worker -/

namespace Executor

open Execution (Source Relays)
open Text.Utf8 (Begins Lossy fits_nothing lossy_flush lossy_iff takeText takeText_eq)

/-- The octets that an execution takes from a pipe with an event. -/
def takes (x : Executor) (i : Nat) (source : Source) : Event → List UInt8
  | .read j other octets =>
    match x.executions[i]? with
    | some e => if j = i ∧ other = source then e.takes source octets else []
    | none => []
  | _ => []

/-- All the octets that an execution takes from a pipe. -/
def taken (x : Executor) (i : Nat) (source : Source) : List Event → List UInt8
  | [] => []
  | event :: rest => x.takes i source event ++ (x.step event).taken i source rest

/-- How an execution stands after these octets, if there is one yet. -/
def Tells (x : Executor) (i : Nat) (source : Source) (octets : List UInt8) : Prop :=
  match x.executions[i]? with
  | some e => Relays e source octets
  | none => octets = []

variable {x : Executor} {i : Nat} {e : Execution} {source : Source} {octets : List UInt8}

theorem tells_of_some (h : x.executions[i]? = some e) : x.Tells i source octets ↔ Relays e source octets := by
  rw [Tells, h]

theorem relays_stepOne (hi : x.executions[i]? = some e) (h : Relays e source octets) {event : Event}
    (howner : event.owner? = some i) : (x.stepOne i e event).Tells i source (octets ++ x.takes i source event) := by
  -- Each event changes the execution by a function of its own.
  have hchange {y : Executor} (f : Execution → Execution) {more : List UInt8} (hy : y.executions = x.executions)
      (hf : Relays (f e) source more) : (y.change i f).Tells i source more := by
    have hyi : y.executions[i]? = some e := by rw [hy, hi]
    rw [tells_of_some (e := f e)]
    · exact hf
    · rw [getElem?_change hyi, if_pos rfl]
  have hself : x.Tells i source octets := (tells_of_some hi).2 h
  cases event <;> simp only [Event.owner?, Option.some.injEq, reduceCtorEq] at howner <;> subst howner <;>
    simp only [takes, List.append_nil]
  case writeScript writing =>
    rw [stepOne]
    split
    · rename_i hphase
      cases writing with
      | done =>
        refine hchange _ (putScript_executions _ _) (h.kept rfl rfl id id fun _ => ⟨.inl hphase, rfl⟩)
      | failed reason leavesFile =>
        exact hchange _ (by cases leavesFile <;> rfl) (h.fail (.inl hphase) _)
    · exact hself
  case spawn failure =>
    rw [stepOne]
    split
    · rename_i hphase
      cases failure with
      | none => exact hchange _ rfl (h.spawned hphase)
      | some reason => exact hchange _ rfl (h.fail (.inr hphase) _)
    · exact hself
  case register =>
    rw [stepOne]
    split
    · exact hchange _ rfl (h.kept rfl rfl id id (by simp))
    · exact hself
  case read other chunk =>
    simp only [hi, true_and]
    exact hchange _ rfl (h.read other chunk)
  case close other => exact hchange _ rfl (h.close other)
  case exit code => exact hchange _ rfl (h.die code)
  case collect waitFails => exact hchange _ rfl (h.collect waitFails)
  case unregister =>
    rw [stepOne]
    split
    · exact hchange _ rfl (h.kept rfl rfl id id (by simp))
    · exact hself
  case removeScript =>
    rw [stepOne]
    split
    · exact hchange _ rfl (h.kept rfl rfl id id (by simp))
    · exact hself
  case report =>
    rw [stepOne]
    split
    · exact hchange _ rfl (h.reported _)
    · exact hself
  case leave => exact hchange _ rfl (h.kept rfl rfl (by simp) id fun hphase => ⟨hphase, rfl⟩)

/-- An event of another execution, or of none, lets an execution take nothing. -/
theorem takes_of_ne {event : Event} (h : event.owner? ≠ some i) : x.takes i source event = [] := by
  cases event <;> simp only [takes]
  rename_i j other chunk
  have hne : j ≠ i := fun heq => h (congrArg some heq)
  cases x.executions[i]? <;> simp [hne]

theorem tells_step (h : x.Tells i source octets) (event : Event) :
    (x.step event).Tells i source (octets ++ x.takes i source event) := by
  have hkept {y : Executor} (hne : event.owner? ≠ some i) (hy : y.executions[i]? = x.executions[i]?) :
      y.Tells i source (octets ++ x.takes i source event) := by
    rw [takes_of_ne hne, List.append_nil, Tells, hy]
    exact h
  by_cases howner : event.owner? = some i
  · cases hi : x.executions[i]? with
    | none =>
      have htakes : x.takes i source event = [] := by
        cases event <;> simp [takes, hi]
      rw [step_of_no_owner hi howner, htakes, List.append_nil]
      exact h
    | some e =>
      rw [step_of_owner hi howner]
      exact relays_stepOne hi ((tells_of_some hi).1 h) howner
  · cases hother : event.owner? with
    | some j =>
      have hne : j ≠ i := fun heq => howner (heq ▸ hother)
      refine hkept howner ?_
      cases hj : x.executions[j]? with
      | none => rw [step_of_no_owner hj hother]
      | some e =>
        obtain ⟨_, -, hothers⟩ := advances_stepOne hj hother
        rw [step_of_owner hj hother, hothers, if_neg hne]
    | none =>
      cases event <;> simp only [Event.owner?, reduceCtorEq] at hother
      case accept label command arguments =>
        rw [step]
        split
        · exact hkept howner rfl
        · cases hi : x.executions[i]? with
          | some e =>
            have hlt := (List.getElem?_eq_some_iff.1 hi).1
            exact hkept howner (List.getElem?_append_left hlt)
          | none =>
            rw [Tells, hi] at h
            subst h
            have hle := List.getElem?_eq_none_iff.1 hi
            rw [takes_of_ne howner, Tells, List.getElem?_append_right hle]
            cases i - x.executions.length with
            | zero => exact Execution.relays_new label command arguments source
            | succ n => rfl
      case cancel label isRefused =>
        simp only [step]
        split
        · rename_i j _
          split
          · exact hkept howner rfl
          · cases hj : x.executions[j]? with
            | none =>
              refine hkept howner ?_
              simp only [change, List.modify_eq_self (List.getElem?_eq_none_iff.1 hj)]
            | some e =>
              by_cases hsame : j = i
              · subst hsame
                rw [takes_of_ne howner, List.append_nil, tells_of_some (e := e.die none)]
                · exact ((tells_of_some hj).1 h).die none
                · rw [getElem?_change hj, if_pos rfl]
              · exact hkept howner (by rw [getElem?_change hj, if_neg hsame])
        · exact hkept howner rfl

theorem tells_run (h : x.Tells i source octets) (events : List Event) :
    (x.run events).Tells i source (octets ++ x.taken i source events) := by
  induction events generalizing x octets with
  | nil =>
    rw [taken, List.append_nil]
    exact h
  | cons event rest ih =>
    rw [taken, ← List.append_assoc]
    exact ih (tells_step h event)

/-- The rounds over any buffer end, and leave nothing or the beginning of a character. A chunk that is read sends what
they take out of the octets that are left and the chunk, and the end of the pipe sends what is left as a text. So, as
long as the receiver is there, everything that was sent once a pipe is at its end is the text of all the octets that
were read from it, whatever chunks they came in and whatever else happened to the worker. -/
theorem texts_eq_lossy (events : List Event) (hi : (({} : Executor).run events).executions[i]? = some e)
    (source : Source) :
    (∀ buffer, ∃ text left, takeText buffer = some (text, left) ∧ (left = [] ∨ Begins left ∧ left.length ≤ 3)) ∧
      (e.phase = .running → (e.pipe source).closed = false →
        (∀ chunk, ∃ text pending, takeText ((e.pipe source).pending.octets ++ chunk) = some (text, pending.octets) ∧
          e.read source chunk = (e.setPipe source { pending }).sendText source text) ∧
        ∃ text, Lossy (e.pipe source).pending.octets text ∧
          e.close source = (e.setPipe source { closed := true }).sendText source text) ∧
      (e.process.isSome → e.isLeft = false → (e.pipe source).closed →
        ∀ text, Lossy (({} : Executor).taken i source events) text ↔ text = e.texts source) := by
  have hnone : ({} : Executor).Tells i source [] := by simp [Tells]
  have htells := tells_run hnone events
  have hrelays := (tells_of_some hi).1 htells
  rw [List.nil_append] at hrelays
  refine ⟨fun buffer => ?_, fun hphase hopen => ⟨fun chunk => ?_, ?_⟩, fun hprocess hleft hclosed text => ?_⟩
  · refine ⟨_, _, takeText_eq (p := {}) fits_nothing buffer, ?_⟩
    exact (fits_nothing.decode buffer).begins.imp_right fun h => ⟨h, h.length_le⟩
  · refine ⟨_, _, takeText_eq hrelays.fits chunk, ?_⟩
    exact if_neg (by simp [hphase, hopen])
  · refine ⟨_, lossy_flush hrelays.fits, ?_⟩
    exact if_neg (by simp [hphase, hopen])
  · rw [lossy_iff, hrelays.closed hprocess hleft hclosed]

/-- A character comes in two chunks, the other pipe is read in between, and the last character is cut off. -/
def cutEvents : List Event :=
  [.accept "H.1" "run" [], .writeScript 0 .done, .spawn 0 none, .register 0, .read 0 .out [0x61, 0xE2],
    .read 0 .err [0xFF], .read 0 .out [0x82, 0xAC, 0xF0, 0x9F], .close 0 .out]

theorem lossy_of_cutEvents :
    ∃ e, (({} : Executor).run cutEvents).executions[0]? = some e ∧ e.process.isSome ∧ e.isLeft = false ∧
      (e.pipe .out).closed ∧ e.texts .out = ['a', '€', '\ufffd'] ∧
      Lossy [0x61, 0xE2, 0x82, 0xAC, 0xF0, 0x9F] ['a', '€', '\ufffd'] := by
  have hrun : ∃ e, (({} : Executor).run cutEvents).executions[0]? = some e ∧ e.process.isSome ∧ e.isLeft = false ∧
      (e.pipe .out).closed ∧ e.texts .out = ['a', '€', '\ufffd'] := ⟨_, rfl, by decide +kernel⟩
  obtain ⟨e, hi, hprocess, hleft, hclosed, htexts⟩ := hrun
  have htaken : ({} : Executor).taken 0 .out cutEvents = [0x61, 0xE2, 0x82, 0xAC, 0xF0, 0x9F] := by decide +kernel
  have hlossy := (texts_eq_lossy cutEvents hi .out).2.2 hprocess hleft hclosed ['a', '€', '\ufffd']
  rw [htaken, htexts] at hlossy
  exact ⟨e, hi, hprocess, hleft, hclosed, htexts, hlossy.2 rfl⟩

end Executor

end Muster
