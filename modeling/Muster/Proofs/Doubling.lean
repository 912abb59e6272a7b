import Muster.Proofs.Executing
import Muster.Proofs.Places

/-!
# Executions that share a label

A worker refuses a command while it knows a process under the label of the command. It knows none before the process
is noted, and none after it is forgotten, though the execution is not over at these times. A command that comes then is
accepted beside the execution, and in no other way can two executions under one label come about.
-/

namespace Muster

namespace Execution

/-- The script of the execution is removed. -/
def isOver (e : Execution) : Bool :=
  match e.phase with
  | .cleared _ | .ended _ => true
  | _ => false

/-- The process of the execution is there, and the worker has not forgotten it. -/
def isNoted (e : Execution) : Bool :=
  match e.phase with
  | .running => true
  | .settled _ => e.process.isSome
  | _ => false

/-- The execution has come to its script and has not removed it. -/
def holdsScript (e : Execution) : Bool := e.phase ≠ .accepted && !e.isOver

/-- There is no process before one is made. -/
def IsEarly (e : Execution) : Prop := e.phase = .accepted ∨ e.phase = .written → e.process = none

theorem isOver_of_isNoted {e : Execution} (h : e.isNoted) : e.isOver = false := by
  unfold isNoted at h
  unfold isOver
  cases hphase : e.phase <;> simp_all

theorem isOver_of_holdsScript {e : Execution} (h : e.holdsScript) : e.isOver = false := by
  simp only [holdsScript, Bool.and_eq_true, Bool.not_eq_true'] at h
  exact h.2

end Execution

namespace Executor

namespace Advance

variable {x : Executor} {i : Nat} {e e' : Execution} {event : Event} {running : SortedMap String Nat} {files : Files}

/-- What is over stays so. -/
theorem isOver (h : Advance x i e event e' running files) (hover : e'.isOver = false) : e.isOver = false := by
  unfold Execution.isOver at hover ⊢
  cases h with
  | kept _ hphase => rwa [hphase] at hover
  | wrote _ hphase | spawned hphase | registered hphase | collected hphase | unregistered hphase
  | cleared _ hphase => rw [hphase]
  | ended _ _ _ hnext =>
    rw [hnext] at hover
    cases hover

theorem isEarly (h : Advance x i e event e' running files) (hearly : e.IsEarly) : e'.IsEarly := by
  unfold Execution.IsEarly at hearly ⊢
  cases h with
  | kept _ hphase hprocess =>
    rw [hphase]
    intro hbefore
    simpa [hearly hbefore] using hprocess
  | wrote _ hphase _ hprocess =>
    intro _
    rw [hprocess, hearly (.inl hphase)]
  | spawned hphase _ hnext =>
    rintro hbefore
    rcases hnext with ⟨hspawned, -⟩ | ⟨hprocess, -⟩
    · simp [hspawned] at hbefore
    · rw [hprocess, hearly (.inr hphase)]
  | collected _ _ hnext => simp [hnext]
  | ended _ _ _ hnext => simp [hnext]
  | registered | unregistered | cleared => simp

/-- The processes that are known change where one is noted or forgotten, and nowhere else. -/
theorem known (h : Advance x i e event e' running files) (hearly : e.IsEarly) :
    running = x.running ∧ e'.isNoted = e.isNoted ∨
      running = x.running.insert e.label i ∧ e.isOver = false ∧ e'.isNoted ∨
        running = x.running.erase e.label ∧ e.isOver = false ∧ e'.isNoted = false := by
  have hsettled {code : Int} (hphase : e'.phase = .settled code) (hprocess : e'.process = none) :
      e'.isNoted = false := by
    simp [Execution.isNoted, hphase, hprocess]
  cases h with
  | kept _ hphase hprocess => exact .inl ⟨rfl, by simp only [Execution.isNoted, hphase, hprocess]⟩
  | wrote _ hphase _ hprocess hnext =>
    refine .inl ⟨rfl, ?_⟩
    have hbefore : e.isNoted = false := by simp [Execution.isNoted, hphase]
    rw [hbefore]
    rcases hnext with hwritten | ⟨code, hcode⟩
    · simp [Execution.isNoted, hwritten]
    · exact hsettled hcode (hprocess.trans (hearly (.inl hphase)))
  | spawned hphase _ hnext =>
    refine .inl ⟨rfl, ?_⟩
    have hbefore : e.isNoted = false := by simp [Execution.isNoted, hphase]
    rw [hbefore]
    rcases hnext with ⟨hspawned, -⟩ | ⟨hprocess, code, hcode⟩
    · simp [Execution.isNoted, hspawned]
    · exact hsettled hcode (hprocess.trans (hearly (.inr hphase)))
  | registered hphase => exact .inr (.inl ⟨rfl, by simp [Execution.isOver, hphase], rfl⟩)
  | collected hphase _ hnext hdead => exact .inl ⟨rfl, by simp [Execution.isNoted, hphase, hnext, hdead]⟩
  | unregistered hphase => exact .inr (.inr ⟨rfl, by simp [Execution.isOver, hphase], rfl⟩)
  | cleared _ hphase => exact .inl ⟨rfl, by simp [Execution.isNoted, hphase]⟩
  | ended hphase _ _ hnext => exact .inl ⟨rfl, by simp [Execution.isNoted, hphase, hnext]⟩

end Advance

/-! ### What may happen to a label -/

/-- An event of a run found the worker in such a state. -/
def Happens (x : Executor) (events : List Event) (p : Executor → Event → Prop) : Prop :=
  ∃ s event, s ++ [event] <+: events ∧ p (x.run s) event

/-- The label under which a command comes in. -/
def Event.incoming? : Event → Option String
  | .accept label _ _ => some label
  | _ => none

/-- A command comes in while an execution under its label is not over whose process is not known. -/
def Slips (x : Executor) (event : Event) : Prop :=
  ∃ label ∈ event.incoming?, ∃ e ∈ x.executions, e.label = label ∧ e.isOver = false ∧ e.isNoted = false

/-- A command is accepted under a label while an execution under the other one is not over. -/
def Joins (x : Executor) (label other : String) (event : Event) : Prop :=
  event.incoming? = some label ∧ x.isRunning label = false ∧ ∃ e ∈ x.executions, e.label = other ∧ e.isOver = false

/-- A command is accepted while an execution under its label is not over. -/
def Doubles (x : Executor) (event : Event) : Prop := ∃ label, x.Joins label label event

/-- A command is accepted while an execution under another label is not over that has the same script. -/
def Crosses (x : Executor) (event : Event) : Prop :=
  ∃ label other, label ≠ other ∧ Execution.script x.home label = Execution.script x.home other ∧ x.Joins label other event

/-- An execution comes to write or to remove its script, and another one has the same and has not removed it. -/
def Spoils (x : Executor) (event : Event) : Prop :=
  ∃ (i j : Nat) (e u : Execution), x.executions[i]? = some e ∧ x.executions[j]? = some u ∧ i ≠ j ∧ u.holdsScript ∧
    Execution.script x.home e.label = Execution.script x.home u.label ∧
      ((∃ writing, event = .writeScript i writing) ∧ e.phase = .accepted ∨
        event = .removeScript i false ∧ ∃ code, e.phase = .unregistered code)

/-- The script of an execution stays as it is where the event is not its own. -/
def Spares (x : Executor) (event : Event) : Prop :=
  ∀ (j : Nat) (u : Execution) (text : String), x.executions[j]? = some u → u.holdsScript → event.owner? ≠ some j →
    x.files.get? (Execution.script x.home u.label) = some (.file text) →
      (x.step event).files.get? (Execution.script x.home u.label) = some (.file text)

/-- One execution under a label is not over. -/
def IsSingle (x : Executor) : Prop :=
  ∀ (i j : Nat) (e u : Execution), x.executions[i]? = some e → x.executions[j]? = some u → e.label = u.label →
    e.isOver = false → u.isOver = false → i = j

/-- What is known under a label is the execution under it whose process is there. -/
def IsKnown (x : Executor) : Prop :=
  ∀ label i, x.running.get? label = some i ↔ ∃ e, x.executions[i]? = some e ∧ e.label = label ∧ e.isNoted

@[simp] theorem happens_nil (x : Executor) (p : Executor → Event → Prop) : ¬ x.Happens [] p := by
  rintro ⟨s, event, h, -⟩
  have := h.length_le
  simp at this

theorem happens_concat (x : Executor) (events : List Event) (event : Event) (p : Executor → Event → Prop) :
    x.Happens (events ++ [event]) p ↔ x.Happens events p ∨ p (x.run events) event := by
  constructor
  · rintro ⟨s, last, hs, hp⟩
    rcases List.prefix_concat_iff.1 hs with heq | hs
    · obtain ⟨rfl, hlast⟩ := List.append_inj' heq rfl
      rw [List.singleton_inj] at hlast
      exact .inr (hlast ▸ hp)
    · exact .inl ⟨s, last, hs, hp⟩
  · rintro (⟨s, last, hs, hp⟩ | hp)
    · exact ⟨s, last, hs.trans (List.prefix_append _ _), hp⟩
    · exact ⟨events, event, List.prefix_rfl, hp⟩

theorem happens_cons (x : Executor) (event : Event) (events : List Event) (p : Executor → Event → Prop) :
    x.Happens (event :: events) p ↔ p x event ∨ (x.step event).Happens events p := by
  constructor
  · rintro ⟨s, last, hs, hp⟩
    cases s with
    | nil =>
      rw [List.nil_append, List.cons_prefix_cons] at hs
      exact .inl (hs.1 ▸ hp)
    | cons first s =>
      rw [List.cons_append, List.cons_prefix_cons] at hs
      obtain ⟨rfl, hs⟩ := hs
      exact .inr ⟨s, last, hs, hp⟩
  · rintro (hp | ⟨s, last, hs, hp⟩)
    · exact ⟨[], event, by simp, hp⟩
    · exact ⟨event :: s, last, by simpa using hs, hp⟩

instance decidableHappens (x : Executor) (events : List Event) (p : Executor → Event → Prop)
    [∀ x event, Decidable (p x event)] : Decidable (x.Happens events p) :=
  match events with
  | [] => isFalse (happens_nil x p)
  | event :: rest =>
    have := decidableHappens (x.step event) rest p
    decidable_of_iff _ (happens_cons x event rest p).symm

instance (x : Executor) (event : Event) : Decidable (x.Slips event) :=
  inferInstanceAs (Decidable (∃ label ∈ event.incoming?, ∃ e ∈ x.executions,
    e.label = label ∧ e.isOver = false ∧ e.isNoted = false))

@[simp] theorem run_concat (x : Executor) (events : List Event) (event : Event) :
    x.run (events ++ [event]) = (x.run events).step event := by
  rw [run_append]
  rfl

/-! ### One execution under a label -/

section single

variable {x : Executor} {event : Event}

/-- Where an execution comes from that is not over after an event. -/
theorem exists_before (hstep : ∃ i e, x.executions[i]? = some e ∧ x.Advances i e event (x.step event)) {j : Nat}
    {u : Execution} (hu : (x.step event).executions[j]? = some u) :
    ∃ before, x.executions[j]? = some before ∧ u.label = before.label ∧
      (u.isOver = false → before.isOver = false) ∧ (before.IsEarly → u.IsEarly) := by
  obtain ⟨i, e, hi, e', hadvance, hexecutions⟩ := hstep
  rw [hexecutions] at hu
  split at hu
  · rename_i hij
    subst hij
    cases hu
    exact ⟨e, hi, hadvance.follows.label, hadvance.isOver, hadvance.isEarly⟩
  · exact ⟨u, hu, rfl, fun h => h, fun h => h⟩

/-- No execution has a process before it makes one. -/
def AreEarly (x : Executor) : Prop := ∀ (i : Nat) (e : Execution), x.executions[i]? = some e → e.IsEarly

theorem areEarly_step (h : x.AreEarly) (event : Event) : (x.step event).AreEarly := by
  intro j u hu
  rcases advances_step x event with hsame | ⟨i, e, hi, -, hadvances⟩ | ⟨label, command, arguments, -, -, hstep⟩
  · exact h j u (hsame ▸ hu)
  · obtain ⟨before, hbefore, -, -, hearly⟩ := exists_before ⟨i, e, hi, hadvances⟩ hu
    exact hearly (h j before hbefore)
  · rw [hstep, getElem?_concat_eq_some] at hu
    rcases hu with hu | ⟨-, rfl⟩
    · exact h j u hu
    · exact fun _ => rfl

theorem isSingle_step (h : x.IsSingle) (hdoubles : ¬ x.Doubles event) : (x.step event).IsSingle := by
  intro i j e u he hu hlabel hover hover'
  rcases advances_step x event with hsame | ⟨k, w, hk, -, hadvances⟩ | ⟨label, command, arguments, rfl, hfree, hstep⟩
  · rw [hsame] at he hu
    exact h i j e u he hu hlabel hover hover'
  · obtain ⟨a, ha, halabel, haover, -⟩ := exists_before ⟨k, w, hk, hadvances⟩ he
    obtain ⟨b, hb, hblabel, hbover, -⟩ := exists_before ⟨k, w, hk, hadvances⟩ hu
    exact h i j a b ha hb (halabel.symm.trans (hlabel.trans hblabel)) (haover hover) (hbover hover')
  · -- An execution that was there before is over if it has the new label.
    have hnew {k : Nat} {w : Execution} (hk : x.executions[k]? = some w) (hwlabel : w.label = label)
        (hwover : w.isOver = false) : False :=
      hdoubles ⟨label, rfl, hfree, w, List.mem_of_getElem? hk, hwlabel, hwover⟩
    have hcases {k : Nat} {w : Execution} (hk : (x.step (.accept label command arguments)).executions[k]? = some w) :
        x.executions[k]? = some w ∨ k = x.executions.length ∧ w.label = label := by
      rw [hstep, getElem?_concat_eq_some] at hk
      refine hk.imp_right ?_
      rintro ⟨hlength, rfl⟩
      exact ⟨hlength, rfl⟩
    rcases hcases he with ha | ⟨hi, hilabel⟩
    · rcases hcases hu with hb | ⟨-, hjlabel⟩
      · exact h i j e u ha hb hlabel hover hover'
      · exact (hnew ha (hlabel.trans hjlabel) hover).elim
    · rcases hcases hu with hb | ⟨hj, -⟩
      · exact (hnew hb (hlabel.symm.trans hilabel) hover').elim
      · rw [hi, hj]

section known

variable {y : Executor} {i : Nat} {e e' : Execution}

/-- Where neither the execution nor its label is asked for, the same is noted as before. -/
theorem exists_noted_iff (hi : x.executions[i]? = some e) (hname : e'.label = e.label)
    (hexecutions : ∀ j, y.executions[j]? = if i = j then some e' else x.executions[j]?) {label : String} {k : Nat}
    (hne : i ≠ k ∨ label ≠ e.label) :
    (∃ w, y.executions[k]? = some w ∧ w.label = label ∧ w.isNoted) ↔
      ∃ w, x.executions[k]? = some w ∧ w.label = label ∧ w.isNoted := by
  rw [hexecutions]
  by_cases hik : i = k
  · subst hik
    have hlabel : e.label ≠ label := Ne.symm (hne.resolve_left fun hno => hno rfl)
    simp [hi, hname, hlabel]
  · rw [if_neg hik]

theorem isKnown_kept (h : x.IsKnown) (hi : x.executions[i]? = some e) (hname : e'.label = e.label)
    (hexecutions : ∀ j, y.executions[j]? = if i = j then some e' else x.executions[j]?)
    (hrunning : y.running = x.running) (hnoted : e'.isNoted = e.isNoted) : y.IsKnown := by
  intro label k
  rw [hrunning, h label k]
  by_cases hik : i = k
  · subst hik
    simp [hexecutions, hi, hname, hnoted]
  · exact (exists_noted_iff hi hname hexecutions (.inl hik)).symm

/-- A noted execution is the one that is known, as no other under its label is not over. -/
theorem isKnown_noted (h : x.IsKnown) (hsingle : x.IsSingle) (hi : x.executions[i]? = some e)
    (hname : e'.label = e.label) (hexecutions : ∀ j, y.executions[j]? = if i = j then some e' else x.executions[j]?)
    (hrunning : y.running = x.running.insert e.label i) (hover : e.isOver = false) (hnoted : e'.isNoted) :
    y.IsKnown := by
  intro label k
  rw [hrunning]
  by_cases hlabel : label = e.label
  · subst hlabel
    rw [SortedMap.get?_insert_self, Option.some.injEq]
    constructor
    · rintro rfl
      exact ⟨e', by rw [hexecutions, if_pos rfl], hname, hnoted⟩
    · rintro ⟨w, hw, hwlabel, hwnoted⟩
      rw [hexecutions] at hw
      split at hw
      · assumption
      · exact hsingle i k e w hi hw hwlabel.symm hover (Execution.isOver_of_isNoted hwnoted)
  · rw [SortedMap.get?_insert_of_ne _ _ hlabel, h label k]
    exact (exists_noted_iff hi hname hexecutions (.inr hlabel)).symm

/-- After an execution is forgotten, none is known under its label, as no other under it is not over. -/
theorem isKnown_forgotten (h : x.IsKnown) (hsingle : x.IsSingle) (hi : x.executions[i]? = some e)
    (hname : e'.label = e.label) (hexecutions : ∀ j, y.executions[j]? = if i = j then some e' else x.executions[j]?)
    (hrunning : y.running = x.running.erase e.label) (hover : e.isOver = false) (hnoted : e'.isNoted = false) :
    y.IsKnown := by
  intro label k
  rw [hrunning, SortedMap.get?_erase_eq_some_iff, h label k]
  by_cases hlabel : label = e.label
  · subst hlabel
    refine iff_of_false (fun hno => hno.1 rfl) ?_
    rintro ⟨w, hw, hwlabel, hwnoted⟩
    rw [hexecutions] at hw
    split at hw
    · cases hw
      rw [hnoted] at hwnoted
      cases hwnoted
    · rename_i hik
      exact hik (hsingle i k e w hi hw hwlabel.symm hover (Execution.isOver_of_isNoted hwnoted))
  · rw [and_iff_right hlabel]
    exact (exists_noted_iff hi hname hexecutions (.inr hlabel)).symm

end known

theorem isKnown_step (h : x.IsKnown) (hsingle : x.IsSingle) (hearly : x.AreEarly) (event : Event) :
    (x.step event).IsKnown := by
  rcases advances_step x event with hsame | ⟨i, e, hi, -, e', hadvance, hexecutions⟩ |
    ⟨label, command, arguments, -, -, hstep⟩
  · rw [hsame]
    exact h
  · have hname := hadvance.follows.label
    rcases hadvance.known (hearly i e hi) with ⟨hrunning, hnoted⟩ | ⟨hrunning, hover, hnoted⟩ | ⟨hrunning, hover, hnoted⟩
    · exact isKnown_kept h hi hname hexecutions hrunning hnoted
    · exact isKnown_noted h hsingle hi hname hexecutions hrunning hover hnoted
    · exact isKnown_forgotten h hsingle hi hname hexecutions hrunning hover hnoted
  · intro other k
    rw [hstep]
    change x.running.get? other = some k ↔ _
    rw [h other k]
    refine exists_congr fun w => ?_
    rw [getElem?_concat_eq_some]
    refine ⟨fun hw => ⟨.inl hw.1, hw.2⟩, ?_⟩
    rintro ⟨hw | ⟨-, rfl⟩, hlabel, hnoted⟩
    · exact ⟨hw, hlabel, hnoted⟩
    · cases hnoted

/-- Where the worker knows what it should, a command doubles an execution exactly if it slips in beside it. -/
theorem slips_iff_doubles (hsingle : x.IsSingle) (hknown : x.IsKnown) : x.Slips event ↔ x.Doubles event := by
  constructor
  · rintro ⟨label, hincoming, e, he, hlabel, hover, hnoted⟩
    refine ⟨label, hincoming, ?_, e, he, hlabel, hover⟩
    cases hget : x.running.get? label with
    | none => simp [isRunning, SortedMap.contains, hget]
    | some i =>
      obtain ⟨u, hu, hulabel, hunoted⟩ := (hknown label i).1 hget
      obtain ⟨j, hj⟩ := List.getElem?_of_mem he
      have hij := hsingle i j u e hu hj (hulabel.trans hlabel.symm) (Execution.isOver_of_isNoted hunoted) hover
      rw [← hij, hu, Option.some.injEq] at hj
      rw [hj, hnoted] at hunoted
      cases hunoted
  · rintro ⟨label, hincoming, hfree, e, he, hlabel, hover⟩
    refine ⟨label, hincoming, e, he, hlabel, hover, ?_⟩
    by_contra hnoted
    obtain ⟨i, hi⟩ := List.getElem?_of_mem he
    have hget := (hknown label i).2 ⟨e, hi, hlabel, by simpa using hnoted⟩
    simp [isRunning, SortedMap.contains, hget] at hfree

end single

/-! ### Scripts -/

end Executor

namespace Files

section made

variable {files made : Files} {base p : Path} {text : String}

/-- Directories are made where there is nothing, and are no files. -/
theorem file_makeBelow_iff {path : Path} (hmade : files.makeBelow base path = some made) :
    made.get? p = some (.file text) ↔ files.get? p = some (.file text) := by
  induction path generalizing files base with
  | nil =>
    cases hmade
    rfl
  | cons name rest ih =>
    unfold makeBelow at hmade
    split at hmade
    · exact ih hmade
    · cases hmade
    · rename_i hnone
      rw [ih hmade]
      by_cases hp : p = base ++ [name]
      · rw [hp, SortedMap.get?_insert_self, hnone]
        simp
      · rw [SortedMap.get?_insert_of_ne _ _ hp]

theorem file_makeAlong_iff {names : List String} (hmade : files.makeAlong base names = some made) :
    made.get? p = some (.file text) ↔ files.get? p = some (.file text) := by
  induction names generalizing files base with
  | nil =>
    cases hmade
    rfl
  | cons name rest ih =>
    obtain ⟨along, halong, hrest⟩ := Option.bind_eq_some_iff.1 hmade
    rw [ih hrest, file_makeBelow_iff halong]

theorem file_makeWay_iff {path : String} (hmade : files.makeWay base path = some made) :
    made.get? p = some (.file text) ↔ files.get? p = some (.file text) := by
  obtain ⟨along, halong, hrest⟩ := Option.bind_eq_some_iff.1 hmade
  rw [file_makeAlong_iff hrest, file_makeBelow_iff halong]

end made

end Files

namespace Executor

section scripts

variable {x : Executor} {i : Nat} {e e' : Execution} {event : Event} {running : SortedMap String Nat} {files : Files}

/-- The execution comes to write its script or to remove it. -/
def AtScript (i : Nat) (e : Execution) (event : Event) : Prop :=
  (∃ writing, event = .writeScript i writing) ∧ e.phase = .accepted ∨
    event = .removeScript i false ∧ ∃ code, e.phase = .unregistered code

theorem AtScript.owner? (h : AtScript i e event) : event.owner? = some i := by
  rcases h with ⟨⟨writing, rfl⟩, -⟩ | ⟨rfl, -⟩ <;> rfl

/-- A script that is made leaves all other files as they are. -/
theorem file_putScript_iff {p : Path} {label text before : String} (hne : p ≠ Execution.script x.home label) :
    (x.putScript label text).files.get? p = some (.file before) ↔ x.files.get? p = some (.file before) := by
  unfold putScript
  simp only
  cases hmade : x.files.makeWay x.home (label ++ ".sh") with
  | none => rfl
  | some made =>
    rw [← Files.file_makeWay_iff hmade, Option.bind_some]
    cases hwritten : made.write (Execution.script x.home label) text with
    | none => exact (Files.file_makeWay_iff hmade).symm
    | some written =>
      rw [Option.getD_some, Files.write_eq_some hwritten, SortedMap.get?_insert_of_ne _ _ hne]

/-- An execution writes and removes no file but its script. -/
theorem Advance.file_iff {p : Path} {text : String} (h : Advance x i e event e' running files)
    (hp : AtScript i e event → p ≠ Execution.script x.home e.label) :
    files.get? p = some (.file text) ↔ x.files.get? p = some (.file text) := by
  cases h with
  | wrote he hphase _ _ _ hfiles =>
    rcases hfiles with rfl | ⟨before, rfl⟩
    · rfl
    · exact file_putScript_iff (hp (.inl ⟨⟨_, he⟩, hphase⟩))
  | @cleared code isRefused _ he hphase hfiles =>
    subst hfiles
    cases isRefused with
    | true => rfl
    | false =>
      simp only [Bool.false_eq_true, if_false]
      rw [Files.get?_removeFile_of_ne _ (hp (.inr ⟨he, code, hphase⟩))]
  | _ => rfl

/-- An event that spoils no script spares the scripts of all other executions. -/
theorem spares_of_not_spoils (h : ¬ x.Spoils event) : x.Spares event := by
  intro j u text hu hholds howner htext
  rcases advances_step x event with hsame | ⟨i, e, hi, -, e', hadvance, -⟩ | ⟨label, command, arguments, -, -, hstep⟩
  · rw [hsame]
    exact htext
  · -- Another execution writes or removes its own script, which is at another place.
    have hplace (hacts : AtScript i e event) : Execution.script x.home u.label ≠ Execution.script x.home e.label := by
      intro hsame
      refine h ⟨i, j, e, u, hi, hu, ?_, hholds, hsame.symm, hacts⟩
      rintro rfl
      exact howner hacts.owner?
    exact (hadvance.file_iff hplace).2 htext
  · rw [hstep]
    exact htext

end scripts

/-! ### Whole runs -/

/-- A worker that has just started. -/
def fresh (home : Path) (files : Files) : Executor := { home, files }

@[simp] theorem run_home (x : Executor) (events : List Event) : (x.run events).home = x.home := by
  induction events using List.reverseRecOn with
  | nil => rfl
  | append_singleton events event ih => rw [run_concat, step_home, ih]

section runs

variable {home : Path} {files : Files} {events : List Event}

theorem areEarly_run (home : Path) (files : Files) (events : List Event) : ((fresh home files).run events).AreEarly := by
  induction events using List.reverseRecOn with
  | nil =>
    intro i e he
    simp [run, fresh] at he
  | append_singleton events event ih =>
    rw [run_concat]
    exact areEarly_step ih event

/-- As long as no execution is doubled, the worker knows what it should. -/
theorem single_of_run (h : ¬ (fresh home files).Happens events Doubles) :
    ((fresh home files).run events).IsSingle ∧ ((fresh home files).run events).IsKnown := by
  induction events using List.reverseRecOn with
  | nil =>
    refine ⟨?_, ?_⟩
    · intro i j e u he
      simp [run, fresh] at he
    · intro label i
      simp [run, fresh]
  | append_singleton events event ih =>
    rw [happens_concat, not_or] at h
    obtain ⟨hsingle, hknown⟩ := ih h.1
    rw [run_concat]
    exact ⟨isSingle_step hsingle h.2, isKnown_step hknown hsingle (areEarly_run home files events) event⟩

theorem happens_doubles_iff (home : Path) (files : Files) (events : List Event) :
    (fresh home files).Happens events Doubles ↔ (fresh home files).Happens events Slips := by
  induction events using List.reverseRecOn with
  | nil => simp
  | append_singleton events event ih =>
    rw [happens_concat, happens_concat, ← ih]
    by_cases hbefore : (fresh home files).Happens events Doubles
    · simp [hbefore]
    · obtain ⟨hsingle, hknown⟩ := single_of_run hbefore
      rw [slips_iff_doubles hsingle hknown]

/-- Of two executions that are there, the later one was accepted when the earlier one was not over, if that is so
still. -/
theorem happens_joins {i j : Nat} {e u : Execution} (hij : i < j)
    (he : ((fresh home files).run events).executions[i]? = some e)
    (hu : ((fresh home files).run events).executions[j]? = some u) (hover : e.isOver = false) :
    (fresh home files).Happens events fun x event => x.Joins u.label e.label event := by
  induction events using List.reverseRecOn generalizing e u with
  | nil => simp [run, fresh] at he
  | append_singleton events event ih =>
    rw [happens_concat]
    rw [run_concat] at he hu
    rcases advances_step ((fresh home files).run events) event with hsame | ⟨k, w, hk, -, hadvances⟩ |
      ⟨label, command, arguments, rfl, hfree, hstep⟩
    · rw [hsame] at he hu
      exact .inl (ih he hu hover)
    · obtain ⟨a, ha, halabel, haover, -⟩ := exists_before ⟨k, w, hk, hadvances⟩ he
      obtain ⟨b, hb, hblabel, -, -⟩ := exists_before ⟨k, w, hk, hadvances⟩ hu
      rw [halabel, hblabel]
      exact .inl (ih ha hb (haover hover))
    · rw [hstep, getElem?_concat_eq_some] at he hu
      rcases hu with hu | ⟨hj, rfl⟩
      · have hlength := (List.getElem?_eq_some_iff.1 hu).1
        rcases he with he | ⟨hi, -⟩
        · exact .inl (ih he hu hover)
        · omega
      · rcases he with he | ⟨hi, -⟩
        · exact .inr ⟨rfl, hfree, e, List.mem_of_getElem? he, rfl, hover⟩
        · omega

/-- A script is only spoiled where two executions have it. -/
theorem happens_of_spoils (h : (fresh home files).Happens events Spoils) :
    (fresh home files).Happens events Doubles ∨ (fresh home files).Happens events Crosses := by
  obtain ⟨s, event, hs, i, j, e, u, he, hu, hne, hholds, hscript, hacts⟩ := h
  rw [run_home] at hscript
  have heover : e.isOver = false := by
    rcases hacts with ⟨-, hphase⟩ | ⟨-, code, hphase⟩
    · simp [Execution.isOver, hphase]
    · simp [Execution.isOver, hphase]
  have huover := Execution.isOver_of_holdsScript hholds
  have hshared {first second : Execution} (hscript : Execution.script home first.label = Execution.script home second.label)
      (hjoins : (fresh home files).Happens s fun x event => x.Joins second.label first.label event) :
      (fresh home files).Happens events Doubles ∨ (fresh home files).Happens events Crosses := by
    obtain ⟨before, joining, hbefore, hj⟩ := hjoins
    have hprefix := hbefore.trans ((List.prefix_append s [event]).trans hs)
    by_cases hlabel : second.label = first.label
    · rw [hlabel] at hj
      exact .inl ⟨before, joining, hprefix, _, hj⟩
    · refine .inr ⟨before, joining, hprefix, _, _, hlabel, ?_, hj⟩
      rw [run_home]
      exact hscript.symm
  rcases Nat.lt_or_gt_of_ne hne with hij | hji
  · exact hshared hscript (happens_joins hij he hu heover)
  · exact hshared hscript.symm (happens_joins hji hu he huover)

/-- What a worker owes to the labels of its commands, for every order of requests and of the steps of executions. A
command is accepted beside an execution under its label exactly if one comes in while an execution under its label is
not over whose process is not known: before the process is noted, or after it is forgotten. If none does, one execution
under a label is not over at any time, and what is known under the label is that execution from when its process is
noted until it is forgotten. An execution writes or removes the script of another one only where it was accepted
beside that one, under the same label or under one with the same script; any other event spares the scripts. -/
theorem single_unless_slipped (home : Path) (files : Files) (events : List Event) :
    ((fresh home files).Happens events Doubles ↔ (fresh home files).Happens events Slips) ∧
      (¬ (fresh home files).Happens events Slips →
        ((fresh home files).run events).IsSingle ∧ ((fresh home files).run events).IsKnown) ∧
      ((fresh home files).Happens events Spoils →
        (fresh home files).Happens events Doubles ∨ (fresh home files).Happens events Crosses) ∧
      ∀ event, ¬ ((fresh home files).run events).Spoils event → ((fresh home files).run events).Spares event := by
  refine ⟨happens_doubles_iff home files events, ?_, happens_of_spoils, fun event => spares_of_not_spoils⟩
  intro hslips
  rw [← happens_doubles_iff] at hslips
  exact single_of_run hslips

end runs

/-- A command is refused while another one runs under its label, and accepted once that one is over. -/
def turns : List Event :=
  [.accept "HEAD.50505.1" "a" []] ++ startEvents 0 .done ++
    [.accept "HEAD.50505.1" "b" [], .accept "HEAD.50505.2" "c" [], .cancel "HEAD.50505.1" false] ++ endEvents 0 ++
    [.accept "HEAD.50505.1" "b" []] ++ startEvents 2 .done

theorem single_of_turns :
    ((fresh ["command"] ∅).run turns).IsSingle ∧ ((fresh ["command"] ∅).run turns).IsKnown ∧
      ((fresh ["command"] ∅).run turns).running.get? "HEAD.50505.1" = some 2 := by
  obtain ⟨hsingle, hknown⟩ := (single_unless_slipped ["command"] ∅ turns).2.1 (by decide +kernel)
  exact ⟨hsingle, hknown, by decide +kernel⟩

/-- A command comes in twice before the first process is noted. -/
def doubled : List Event :=
  [.accept "HEAD.50505.1" "a" [], .accept "HEAD.50505.1" "b" []] ++ startEvents 0 .done ++ startEvents 1 .done

/-- While a command runs, another one comes in under a label that differs by a slash, and ends. -/
def crossed : List Event :=
  [.accept "a//HEAD.50505.1" "a" []] ++ startEvents 0 .done ++ [.accept "a/HEAD.50505.1" "b" []] ++
    startEvents 1 .done ++ [.exit 1 (some 0)] ++ endEvents 1

/-- Two processes run under one label, the worker knows the second one only, and the script is the second one's. A
command that runs has lost its script to one under another label. -/
theorem doubled_and_crossed :
    ((fresh ["command"] ∅).Happens doubled Doubles ∧
        (∀ e ∈ ((fresh ["command"] ∅).run doubled).executions, e.label = "HEAD.50505.1" ∧ e.isAlive) ∧
        ((fresh ["command"] ∅).run doubled).executions.length = 2 ∧
        ((fresh ["command"] ∅).run doubled).running.get? "HEAD.50505.1" = some 1 ∧
        ((fresh ["command"] ∅).run doubled).files.get? (Execution.script ["command"] "HEAD.50505.1") = some (.file "b")) ∧
      ((fresh ["command"] ∅).Happens crossed Spoils ∧
        (∃ e, ((fresh ["command"] ∅).run crossed).executions[0]? = some e ∧ e.label = "a//HEAD.50505.1" ∧ e.isAlive) ∧
        ((fresh ["command"] ∅).run crossed).files.get? (Execution.script ["command"] "a//HEAD.50505.1") = none) := by
  refine ⟨⟨?_, by decide +kernel, by decide +kernel, by decide +kernel, by decide +kernel⟩, ?_, ?_, by decide +kernel⟩
  · exact ⟨doubled.take 1, .accept "HEAD.50505.1" "b" [], by decide +kernel, "HEAD.50505.1", rfl, by decide +kernel,
      { label := "HEAD.50505.1", command := "a", arguments := [] }, by decide +kernel, rfl, rfl⟩
  · exact ⟨crossed.take 5, .writeScript 1 .done, by decide +kernel, 1, 0,
      { label := "a/HEAD.50505.1", command := "b", arguments := [] },
      { label := "a//HEAD.50505.1", command := "a", arguments := [], phase := .running, process := some .alive },
      by decide +kernel, by decide +kernel, by decide, rfl, by decide +kernel, .inl ⟨⟨_, rfl⟩, rfl⟩⟩
  · exact ⟨{ label := "a//HEAD.50505.1", command := "a", arguments := [], phase := .running, process := some .alive },
      by decide +kernel, rfl, rfl⟩

end Executor

end Muster
