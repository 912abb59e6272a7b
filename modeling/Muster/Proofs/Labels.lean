import Muster.Node
import Muster.Proofs.Ending
import Muster.Proofs.OutputFiles

/-!
# Labels of jobs

A worker tells the jobs of its head nodes by their labels, and nodes in one data directory tell their files by how
the names begin. Both are made of an address with a dot for its colon, and hosts have dots as well. Port and id are
still told, as they stand last and have no dot. So what a worker does for one job leaves what it knows of the others
as it was. A host may have slashes, though, and two names with slashes can lead to one file.
-/

namespace Muster

/-! ### Names that begin with an address -/

namespace Address

variable {a b : Address}

/-- The address and what follows it are told from a name in which a dot stands between them, as long as no other dot
follows. -/
theorem fileName_append_eq_iff (ha : ':' ∉ a.host.toList) (hb : ':' ∉ b.host.toList) {s t : String}
    (hs : '.' ∉ s.toList) (ht : '.' ∉ t.toList) :
    a.fileName ++ "." ++ s = b.fileName ++ "." ++ t ↔ a = b ∧ s = t := by
  constructor
  · intro h
    have hlist : a.fileName.toList ++ '.' :: s.toList = b.fileName.toList ++ '.' :: t.toList := by
      simpa using congrArg String.toList h
    obtain ⟨hname, hrest⟩ := Text.eq_of_append_sep hs ht hlist
    exact ⟨fileName_injective ha hb (String.toList_inj.1 hname), String.toList_inj.1 hrest⟩
  · rintro ⟨rfl, rfl⟩
    rfl

theorem label_eq_iff (ha : ':' ∉ a.host.toList) (hb : ':' ∉ b.host.toList) {i j : Int} :
    Job.label a.text i = Job.label b.text j ↔ a = b ∧ i = j := by
  have hdot (i : Int) : '.' ∉ (toString i).toList := Text.not_mem_toString_int (by decide) (by decide) i
  have hlabel : Job.label a.text i = Job.label b.text j ↔ a = b ∧ toString i = toString j :=
    fileName_append_eq_iff ha hb (hdot i) (hdot j)
  rw [hlabel]
  exact and_congr_right fun _ => ⟨Text.toString_int_injective, fun h => by rw [h]⟩

end Address

/-! ### Paths -/

namespace Files

/-- A name in a directory leads to what stands there. -/
theorem resolve_of_isEntry {name : String} (h : IsEntry name) (base : Path) : resolve base name = base ++ [name] := by
  have hhead : name.toList.head? ≠ some '/' := fun heq => h.slash (List.mem_of_mem_head? heq)
  have hpieces : Text.pieces '/' name = [name] := by
    rw [Text.pieces, Text.split_of_not_mem h.slash, List.map_singleton, String.ofList_toList]
  rw [resolve, origin, if_neg hhead, hpieces, List.foldl_cons, List.foldl_nil, follow,
    if_neg (not_or.2 ⟨h.nonempty, h.ne_here⟩), if_neg h.ne_parent]

/-- A name without slashes is an entry if it has more than dots. -/
theorem isEntry_of_mem {name : String} {c : Char} (hslash : '/' ∉ name.toList) (hmem : c ∈ name.toList) (hdot : c ≠ '.') :
    IsEntry name := by
  refine ⟨hslash, ?_, ?_, ?_⟩ <;>
    rintro rfl <;> simp [hdot] at hmem

end Files

section paths

variable {a b : Address}

theorem Address.isEntry_fileName (ha : ':' ∉ a.host.toList) (hslash : '/' ∉ a.host.toList) : Files.IsEntry a.fileName := by
  have hport : '/' ∉ Nat.toDigits 10 a.port.toNat := Text.not_mem_toDigits (by decide) _
  have hdigits : '.' ∉ Nat.toDigits 10 a.port.toNat := Text.not_mem_toDigits (by decide) _
  obtain ⟨c, hc⟩ := List.exists_mem_of_ne_nil (Nat.toDigits 10 a.port.toNat) Nat.toDigits_ne_nil
  refine Files.isEntry_of_mem (c := c) ?_ ?_ (ne_of_mem_of_not_mem hc hdigits)
  · rw [toList_fileName ha, List.mem_append, List.mem_cons, not_or, not_or]
    exact ⟨hslash, by decide, hport⟩
  · rw [toList_fileName ha]
    exact List.mem_append_right _ (List.mem_cons_of_mem _ hc)

/-- The files of nodes with one data directory are different, unless a host has a slash. -/
theorem Machine.extend_place_eq_iff {c d : NodeConfig} (hdir : c.dataDir = d.dataDir)
    (hc : ':' ∉ c.host.host.toList) (hd : ':' ∉ d.host.host.toList) (hcslash : '/' ∉ c.host.host.toList)
    (hdslash : '/' ∉ d.host.host.toList) {s t : String} (hs : '.' ∉ s.toList) (ht : '.' ∉ t.toList) :
    Files.extend (place c) ("." ++ s) = Files.extend (place d) ("." ++ t) ↔ c.host = d.host ∧ s = t := by
  rw [place, place, hdir, Files.resolve_of_isEntry (Address.isEntry_fileName hc hcslash),
    Files.resolve_of_isEntry (Address.isEntry_fileName hd hdslash), ← Address.fileName_append_eq_iff hc hd hs ht]
  simp [Files.extend, String.append_assoc]

/-- The scripts of jobs are different files, unless a host has a slash. -/
theorem Execution.script_label_eq_iff (ha : ':' ∉ a.host.toList) (hb : ':' ∉ b.host.toList)
    (haslash : '/' ∉ a.host.toList) (hbslash : '/' ∉ b.host.toList) (home : Path) {i j : Int} :
    script home (Job.label a.text i) = script home (Job.label b.text j) ↔ a = b ∧ i = j := by
  have hscript {c : Address} (hc : ':' ∉ c.host.toList) (hslash : '/' ∉ c.host.toList) (k : Int) :
      script home (Job.label c.text k) = home ++ [Job.label c.text k ++ ".sh"] := by
    have hid : '/' ∉ (toString k).toList := Text.not_mem_toString_int (by decide) (by decide) k
    have hlist : (Job.label c.text k ++ ".sh").toList =
        c.fileName.toList ++ '.' :: ((toString k).toList ++ ['.', 's', 'h']) := by
      simp [Job.label, Address.fileName]
    refine Files.resolve_of_isEntry (Files.isEntry_of_mem (c := 's') ?_ (by simp [hlist]) (by decide)) home
    rw [hlist]
    simp only [List.mem_append, List.mem_cons, not_or]
    exact ⟨(Address.isEntry_fileName hc hslash).slash, by decide, hid, by decide⟩
  rw [hscript ha haslash, hscript hb hbslash, List.append_right_inj, List.singleton_inj, String.append_left_inj,
    Address.label_eq_iff ha hb]

end paths

/-! ### What belongs to a label -/

namespace Executor

variable {x y z : Executor} {label : String} {i : Nat} {e : Execution} {event : Event}
  {events : List Event}

/-- The label that an event is about: that of its request, or that of its execution. -/
def labelOf? (x : Executor) (event : Event) : Option String :=
  match event with
  | .accept label _ _ | .cancel label _ => some label
  | event => do
    let e ← x.executions[← event.owner?]?
    return e.label

/-- The same is known under the label, and the same executions have it. -/
structure AgreeOn (label : String) (x y : Executor) : Prop where
  known : y.running.get? label = x.running.get? label
  executions : ∀ (i : Nat) (e : Execution), e.label = label → (y.executions[i]? = some e ↔ x.executions[i]? = some e)

theorem AgreeOn.refl (label : String) (x : Executor) : AgreeOn label x x := ⟨rfl, fun _ _ _ => .rfl⟩

theorem AgreeOn.trans (h : AgreeOn label x y) (h' : AgreeOn label y z) : AgreeOn label x z :=
  ⟨h'.known.trans h.known, fun i e hlabel => (h'.executions i e hlabel).trans (h.executions i e hlabel)⟩

/-- What an execution does is nothing to other labels. -/
theorem Advances.agreeOn (h : x.Advances i e event y) (hi : x.executions[i]? = some e) (hlabel : e.label ≠ label) :
    AgreeOn label x y := by
  obtain ⟨e', hfollows, hexecutions, hrunning⟩ := h.goesOn
  refine ⟨?_, fun j u hu => ?_⟩
  · rcases hrunning with ⟨hsame, -⟩ | ⟨hinsert, -⟩ | herase
    · rw [hsame]
    · rw [hinsert, SortedMap.get?_insert_of_ne _ _ hlabel.symm]
    · refine Option.ext fun k => ?_
      rw [herase, SortedMap.get?_erase_eq_some_iff]
      exact and_iff_right hlabel.symm
  · rw [hexecutions]
    split
    · rename_i hij
      subst hij
      rw [hi, Option.some.injEq, Option.some.injEq]
      -- Neither the execution before nor the one after has the label.
      constructor
      · rintro rfl
        exact absurd (hfollows.label.symm.trans hu) hlabel
      · rintro rfl
        exact absurd hu hlabel
    · rfl

theorem labelOf?_of_owner (hi : x.executions[i]? = some e) (howner : event.owner? = some i) :
    x.labelOf? event = some e.label := by
  cases event <;> simp only [Event.owner?, Option.some.injEq, reduceCtorEq] at howner <;> subst howner <;>
    simp [labelOf?, Event.owner?, hi]

/-- An event leaves alone what belongs to a label that it is not about. -/
theorem agreeOn_step (h : ∀ other, x.Orderly other) (hevent : x.labelOf? event ≠ some label) :
    AgreeOn label x (x.step event) := by
  cases howner : event.owner? with
  | some i =>
    cases hi : x.executions[i]? with
    | none =>
      rw [step_of_no_owner hi howner]
      exact .refl label x
    | some e =>
      rw [step_of_owner hi howner]
      exact (advances_stepOne hi howner).agreeOn hi fun heq => hevent (heq ▸ labelOf?_of_owner hi howner)
  | none =>
    cases event <;> simp only [Event.owner?, reduceCtorEq] at howner
    case accept other command arguments =>
      have hother : other ≠ label := fun heq => hevent (by rw [labelOf?, heq])
      simp only [step]
      split
      · exact .refl label x
      · refine ⟨rfl, fun i u hu => ?_⟩
        rw [getElem?_concat_eq_some]
        refine or_iff_left ?_
        rintro ⟨-, rfl⟩
        exact hother hu
    case cancel other isRefused =>
      have hother : other ≠ label := fun heq => hevent (by rw [labelOf?, heq])
      simp only [step]
      split
      · rename_i i hi
        split
        · exact .refl label x
        · -- The process that is killed is known under the label of its own execution.
          obtain ⟨e, he, hlabel, -⟩ := (h other).known i hi
          have hdies : x.Advances i e (.cancel other isRefused) (x.change i fun e => e.die none) := advances_die he none
          exact hdies.agreeOn he (hlabel ▸ hother)
      · exact .refl label x

theorem agreeOn_run (home : Path) (files : Files) (past : List Event)
    (h : ¬ ((fresh home files).run past).Happens events fun x event => x.labelOf? event = some label) :
    AgreeOn label ((fresh home files).run past) ((fresh home files).run (past ++ events)) := by
  induction events using List.reverseRecOn with
  | nil =>
    rw [List.append_nil]
    exact .refl label _
  | append_singleton events event ih =>
    rw [happens_concat, not_or, ← run_append] at h
    rw [← List.append_assoc, run_concat]
    exact (ih h.1).trans (agreeOn_step (orderly_of_run home files (past ++ events)) h.2)

/-! ### The file of a label -/

/-- The event is about a label with such a script. -/
def Touches (script : Path) (x : Executor) (event : Event) : Prop :=
  ∃ other, x.labelOf? event = some other ∧ Execution.script x.home other = script

/-- The file holds the same text, if it is one. -/
def SameText (p : Path) (x y : Executor) : Prop :=
  ∀ text, y.files.get? p = some (.file text) ↔ x.files.get? p = some (.file text)

section touches

variable {p : Path} {text : String}

theorem file_step_iff (h : ¬ x.Touches p event) :
    (x.step event).files.get? p = some (.file text) ↔ x.files.get? p = some (.file text) := by
  rcases advances_step x event with hsame | ⟨i, e, hi, -, e', hadvance, -⟩ | ⟨label, command, arguments, -, -, hstep⟩
  · rw [hsame]
  · exact hadvance.file_iff fun hacts hsame => h ⟨e.label, labelOf?_of_owner hi hacts.owner?, hsame.symm⟩
  · rw [hstep]

theorem sameText_run (x : Executor) (h : ¬ x.Happens events (Touches p)) : SameText p x (x.run events) := by
  intro text
  induction events using List.reverseRecOn with
  | nil => rfl
  | append_singleton events event ih =>
    rw [happens_concat, not_or] at h
    rw [run_concat, file_step_iff h.2, ih h.1]

end touches

end Executor

/-! ### Requests for a job -/

namespace Clusnode

open Executor (AgreeOn)

variable {c d : Clusnode} {headnode : String} {id : Int}

/-- What requests for a job are answered. -/
def answers (c : Clusnode) (headnode : String) (id : Int) (command : String) (arguments : List String)
    (refusal : Option String) : Except Status Unit × Except Status Unit :=
  ((c.startJob headnode id command arguments).map fun _ => (), (c.cancelJob headnode id refusal).2)

/-- The answers depend on what is known under the label of the job. -/
theorem answers_eq_of_agreeOn (h : AgreeOn (Job.label headnode id) c.executor d.executor) (command : String)
    (arguments : List String) (refusal : Option String) :
    d.answers headnode id command arguments refusal = c.answers headnode id command arguments refusal := by
  have hrunning : d.executor.isRunning (Job.label headnode id) = c.executor.isRunning (Job.label headnode id) := by
    simp only [Executor.isRunning, SortedMap.contains, h.known]
  refine Prod.ext ?_ ?_
  · simp only [answers, startJob, hrunning]
    split
    · rfl
    · split <;> rfl
  · simp only [answers, cancelJob, hrunning]
    split
    · split <;> rfl
    · rfl

end Clusnode

namespace Executor

/-- The event is about a job other than this one, of this or of another head node. -/
def IsElsewhere (b : Address) (j : Int) (x : Executor) (event : Event) : Prop :=
  ∃ (a : Address) (i : Int), ':' ∉ a.host.toList ∧ ¬ (a = b ∧ i = j) ∧ x.labelOf? event = some (Job.label a.text i)

/-- The event is about a job other than this one, of a head node whose host has no slash. -/
def IsPlainElsewhere (b : Address) (j : Int) (x : Executor) (event : Event) : Prop :=
  ∃ (a : Address) (i : Int), ':' ∉ a.host.toList ∧ '/' ∉ a.host.toList ∧ ¬ (a = b ∧ i = j) ∧
    x.labelOf? event = some (Job.label a.text i)

theorem IsPlainElsewhere.not_touches {b : Address} {j : Int} {x : Executor} {event : Event}
    (h : IsPlainElsewhere b j x event) (hb : ':' ∉ b.host.toList) (hbslash : '/' ∉ b.host.toList) :
    ¬ x.Touches (Execution.script x.home (Job.label b.text j)) event := by
  obtain ⟨a, i, ha, haslash, hne, hlabel⟩ := h
  rintro ⟨other, hother, hsame⟩
  rw [hlabel, Option.some.injEq] at hother
  subst hother
  exact hne ((Execution.script_label_eq_iff ha hb haslash hbslash x.home).1 hsame)

end Executor

open Executor (AgreeOn IsElsewhere IsPlainElsewhere SameText Touches fresh) in
/-- For hosts without colons, the label tells the head node and the id of a job, and the file name tells the address,
with or without an ending. Where the hosts have no slash either, scripts and the files in a data directory are
different files. So a worker keeps jobs apart, be they of one head node or of several: while it does whatever is about
other jobs, what is known of a job and its executions stay as they are, and requests for the job get the answers that
they would have got before. Its script stays as well, unless one of the other jobs has the same file for it, which
takes a host with a slash. -/
theorem Address.told_apart {a b : Address} (ha : ':' ∉ a.host.toList) (hb : ':' ∉ b.host.toList) :
    (∀ i j, Job.label a.text i = Job.label b.text j ↔ a = b ∧ i = j) ∧
      (a.fileName = b.fileName ↔ a = b) ∧
      (∀ s t : String, '.' ∉ s.toList → '.' ∉ t.toList →
        (a.fileName ++ "." ++ s = b.fileName ++ "." ++ t ↔ a = b ∧ s = t)) ∧
      ('/' ∉ a.host.toList → '/' ∉ b.host.toList →
        (∀ home i j, Execution.script home (Job.label a.text i) = Execution.script home (Job.label b.text j) ↔
          a = b ∧ i = j) ∧
        ∀ c d : NodeConfig, c.host = a → d.host = b → c.dataDir = d.dataDir → ∀ s t : String,
          '.' ∉ s.toList → '.' ∉ t.toList →
            (Files.extend (Machine.place c) ("." ++ s) = Files.extend (Machine.place d) ("." ++ t) ↔ a = b ∧ s = t)) ∧
      ∀ j home files past events,
        (¬ ((fresh home files).run past).Happens events fun x event => ¬ IsElsewhere b j x event) →
          AgreeOn (Job.label b.text j) ((fresh home files).run past) ((fresh home files).run (past ++ events)) ∧
            (∀ (w : Clusnode) command arguments refusal,
              { w with executor := (fresh home files).run (past ++ events) }.answers b.text j command arguments refusal =
                { w with executor := (fresh home files).run past }.answers b.text j command arguments refusal) ∧
            (¬ ((fresh home files).run past).Happens events (Touches (Execution.script home (Job.label b.text j))) →
              SameText (Execution.script home (Job.label b.text j)) ((fresh home files).run past)
                ((fresh home files).run (past ++ events))) ∧
            ('/' ∉ b.host.toList →
              (¬ ((fresh home files).run past).Happens events fun x event => ¬ IsPlainElsewhere b j x event) →
                SameText (Execution.script home (Job.label b.text j)) ((fresh home files).run past)
                  ((fresh home files).run (past ++ events))) := by
  refine ⟨fun i j => label_eq_iff ha hb, ⟨fileName_injective ha hb, fun h => by rw [h]⟩,
    fun s t => fileName_append_eq_iff ha hb, ?_, ?_⟩
  · intro haslash hbslash
    refine ⟨fun home i j => Execution.script_label_eq_iff ha hb haslash hbslash home, ?_⟩
    rintro c d rfl rfl hdir s t hs ht
    exact Machine.extend_place_eq_iff hdir ha hb haslash hbslash hs ht
  · intro j home files past events hall
    have hagree : AgreeOn (Job.label b.text j) ((fresh home files).run past) ((fresh home files).run (past ++ events)) := by
      refine Executor.agreeOn_run home files past ?_
      rintro ⟨s, event, hs, hlabel⟩
      refine hall ⟨s, event, hs, ?_⟩
      rintro ⟨c, i, hc, hne, hother⟩
      rw [hlabel, Option.some.injEq] at hother
      obtain ⟨hhost, hid⟩ := (label_eq_iff hb hc).1 hother
      exact hne ⟨hhost.symm, hid.symm⟩
    have hkept (huntouched : ¬ ((fresh home files).run past).Happens events
        (Touches (Execution.script home (Job.label b.text j)))) :
        SameText (Execution.script home (Job.label b.text j)) ((fresh home files).run past)
          ((fresh home files).run (past ++ events)) := by
      rw [Executor.run_append]
      exact Executor.sameText_run _ huntouched
    refine ⟨hagree, fun w => Clusnode.answers_eq_of_agreeOn hagree, hkept, fun hbslash hplain => hkept ?_⟩
    rintro ⟨s, event, hs, htouches⟩
    refine hplain ⟨s, event, hs, fun hother => hother.not_touches hb hbslash ?_⟩
    rwa [Executor.run_home, Executor.run_home]

/-- A command of a head node runs. -/
def Executor.undotted : List Event := [.accept "A.1.2" "b" []] ++ startEvents 0 .done

/-- A command of a head node whose host ends as the other one and its port: it runs and is cancelled. -/
def Executor.dotted : List Event := [.accept "A.1.2.-3" "a" []] ++ startEvents 1 .done ++ [.cancel "A.1.2.-3" false]

open Executor (fresh undotted dotted IsElsewhere IsPlainElsewhere) in
/-- Where a host ends as another host and its port, with an id below zero: the commands of both head nodes run, one is
cancelled, and the worker knows the other one as before and leaves its script. -/
theorem Address.told_apart_dotted :
    parse "a.1:2" "box" = .ok ⟨"A.1", 2⟩ ∧ parse "a:1" "box" = .ok ⟨"A", 1⟩ ∧
      Job.label "A.1:2" (-3) ≠ Job.label "A:1" 2 ∧
      ((fresh ["command"] ∅).run (undotted ++ dotted)).running.get? (Job.label "A:1" 2) = some 0 ∧
      ((fresh ["command"] ∅).run (undotted ++ dotted)).files.get? ["command", "A.1.2.sh"] = some (.file "b") := by
  have hparse : parse "a.1:2" "box" = .ok ⟨"A.1", 2⟩ ∧ parse "a:1" "box" = .ok ⟨"A", 1⟩ := by decide +kernel
  have hbox : ':' ∉ "box".toList := by decide
  obtain ⟨hlabel, -, -, -, hworker⟩ :=
    told_apart (colon_not_mem_host hparse.1 hbox) (colon_not_mem_host hparse.2 hbox)
  have hevents : ¬ ((fresh ["command"] ∅).run undotted).Happens dotted
      fun x event => x.labelOf? event ≠ some (Job.label "A.1:2" (-3)) := by decide +kernel
  have hother {x : Executor} {event : Executor.Event} (h : x.labelOf? event = some (Job.label "A.1:2" (-3))) :
      IsElsewhere ⟨"A", 1⟩ 2 x event ∧ IsPlainElsewhere ⟨"A", 1⟩ 2 x event :=
    ⟨⟨⟨"A.1", 2⟩, -3, by decide, by decide, h⟩, ⟨⟨"A.1", 2⟩, -3, by decide, by decide, by decide, h⟩⟩
  have helsewhere : ¬ ((fresh ["command"] ∅).run undotted).Happens dotted
      fun x event => ¬ IsElsewhere ⟨"A", 1⟩ 2 x event := by
    rintro ⟨s, event, hs, hnot⟩
    exact hevents ⟨s, event, hs, fun h => hnot (hother h).1⟩
  have hplain : ¬ ((fresh ["command"] ∅).run undotted).Happens dotted
      fun x event => ¬ IsPlainElsewhere ⟨"A", 1⟩ 2 x event := by
    rintro ⟨s, event, hs, hnot⟩
    exact hevents ⟨s, event, hs, fun h => hnot (hother h).2⟩
  have hkept := hworker 2 ["command"] ∅ undotted dotted helsewhere
  have hpath : Execution.script ["command"] (Job.label "A:1" 2) = ["command", "A.1.2.sh"] := by decide +kernel
  have htext := hkept.2.2.2 (by decide) hplain "b"
  rw [show Address.text ⟨"A", 1⟩ = "A:1" by decide +kernel, hpath] at htext
  refine ⟨hparse.1, hparse.2, fun heq => absurd ((hlabel (-3) 2).1 heq).1 (by decide), ?_, ?_⟩
  · exact hkept.1.known.trans (by decide +kernel)
  · exact htext.2 (by decide +kernel)

/-- A command of a head node with two slashes in its host runs. -/
def Executor.doubleSlashed : List Event := [.accept "A//HEAD.50505.1" "a" []] ++ startEvents 0 .done

/-- A command of a head node with one slash runs and ends. -/
def Executor.slashed : List Event :=
  [.accept "A/HEAD.50505.1" "b" []] ++ startEvents 1 .done ++ [.exit 1 (some 0)] ++ endEvents 1

open Executor (fresh doubleSlashed slashed IsElsewhere) in
/-- The hosts of two head nodes have slashes and no colons, and lead to the same place. A command of one of them runs,
everything that happens is about a job of the other one, and the script of the command that runs is gone. -/
theorem Address.script_lost_between_slashes :
    parse "a//head:50505" "box" = .ok ⟨"A//HEAD", 50505⟩ ∧ parse "a/head:50505" "box" = .ok ⟨"A/HEAD", 50505⟩ ∧
      Files.resolve ["data"] (fileName ⟨"A//HEAD", 50505⟩) = ["data", "A", "HEAD.50505"] ∧
      Files.resolve ["data"] (fileName ⟨"A/HEAD", 50505⟩) = ["data", "A", "HEAD.50505"] ∧
      (¬ ((fresh ["command"] ∅).run doubleSlashed).Happens slashed
        fun x event => ¬ IsElsewhere ⟨"A//HEAD", 50505⟩ 1 x event) ∧
      Execution.script ["command"] (Job.label "A//HEAD:50505" 1) = ["command", "A", "HEAD.50505.1.sh"] ∧
      ((fresh ["command"] ∅).run doubleSlashed).files.get? ["command", "A", "HEAD.50505.1.sh"] = some (.file "a") ∧
      (∃ e, ((fresh ["command"] ∅).run (doubleSlashed ++ slashed)).executions[0]? = some e ∧
        e.label = Job.label "A//HEAD:50505" 1 ∧ e.isAlive) ∧
      ((fresh ["command"] ∅).run (doubleSlashed ++ slashed)).files.get? ["command", "A", "HEAD.50505.1.sh"] = none := by
  refine ⟨by decide +kernel, by decide +kernel, by decide +kernel, by decide +kernel, ?_, by decide +kernel,
    by decide +kernel, ?_, by decide +kernel⟩
  · have hevents : ¬ ((fresh ["command"] ∅).run doubleSlashed).Happens slashed
        fun x event => x.labelOf? event ≠ some (Job.label "A/HEAD:50505" 1) := by decide +kernel
    rintro ⟨s, event, hs, hnot⟩
    refine hevents ⟨s, event, hs, fun hother => hnot ⟨⟨"A/HEAD", 50505⟩, 1, by decide, by decide, ?_⟩⟩
    rw [hother]
    rfl
  · exact ⟨{ label := "A//HEAD.50505.1", command := "a", arguments := [], phase := .running, process := some .alive },
      by decide +kernel, by decide +kernel, rfl⟩

end Muster
