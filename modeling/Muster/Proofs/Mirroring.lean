import Mathlib.Data.List.Infix
import Muster.Proofs.Places

/-!
# The output of a node in its files

While a node is heard, its two files hold what it sent so far, and once all is heard the one for errors stays only
if something was sent to it. So the code of a node, the frames offered to the submitter and the files of the node
are functions of its answer. They depend neither on when the submitter leaves nor on any other node.
-/

namespace Muster

namespace Dispatch

open Store (jobPath evict withoutOutputs)

/-! ### What leaves the files of a node alone -/

/-- No other node under way has a file at a place of the node. Nodes of one job are apart if their file names are
different, and nodes of different jobs unless a name leads out of its directory. -/
def Apart (id : Int) (node : String) (d : Dispatch) : Prop :=
  ∀ other run, d.run? other = some run → run.keepsOutput → ∀ t ∈ run.tasks, (other, t.node) ≠ (id, node) →
    ∀ p, Places id node p → ¬ Places other t.node p

/-- A submission drives out a job in whose directory the files of the node stand. -/
def Drops (id : Int) (node : String) (d : Dispatch) (e : Moment × Event) : Prop :=
  ∃ jobs spec nodes capacity keepsOutput kept evicted, d.store.jobs = .ok jobs ∧
    e.2 = .submit spec nodes capacity keepsOutput ∧ evict jobs capacity = .ok (kept, evicted) ∧
      ∃ other ∈ evicted, ∃ p, Places id node p ∧ jobPath other <+: p

theorem places_iff {id : Int} {node : String} {p : Path} (hslash : '/' ∉ node.toList) :
    Places id node p ↔ p = [toString id, Text.dotted node ++ ".out"] ∨ p = [toString id, Text.dotted node ++ ".err"] := by
  have hname {last : String} (hlast : '/' ∉ last.toList) : '/' ∉ (Text.dotted node ++ last).toList := by
    rw [String.toList_append, List.mem_append, Text.mem_dotted_iff (by decide) (by decide)]
    exact not_or.2 ⟨hslash, hlast⟩
  rw [Places, leadsTo_iff (hname (by decide)), leadsTo_iff (hname (by decide))]

/-- Nodes without slashes are apart, if those of one job have different file names. -/
theorem apart_of_names {id : Int} {node : String} {d : Dispatch} (hslash : '/' ∉ node.toList)
    (hplain : ∀ other run, d.run? other = some run → ∀ t ∈ run.tasks, '/' ∉ t.node.toList)
    (hnames : ∀ run, d.run? id = some run → ∀ t ∈ run.tasks, Text.dotted t.node = Text.dotted node → t.node = node) :
    Apart id node d := by
  have hsame {other : Int} {name ext last : String} (hext : ext.toList.length = last.toList.length)
      (heq : [toString other, Text.dotted name ++ ext] = [toString id, Text.dotted node ++ last]) :
      other = id ∧ Text.dotted name = Text.dotted node := by
    obtain ⟨hid, hname⟩ := List.cons.inj heq
    refine ⟨Text.toString_int_injective hid, String.toList_inj.1 ?_⟩
    have htext := congrArg String.toList (List.cons.inj hname).1
    rw [String.toList_append, String.toList_append] at htext
    exact (List.append_inj' htext hext).1
  intro other run hrun _ t ht hne p hp hother
  rw [places_iff hslash] at hp
  rw [places_iff (hplain other run hrun t ht)] at hother
  have hboth : other = id ∧ Text.dotted t.node = Text.dotted node := by
    rcases hother with rfl | rfl <;> rcases hp with hp | hp <;> exact hsame (by decide) hp
  obtain ⟨rfl, hdotted⟩ := hboth
  exact hne (by rw [hnames run hrun t ht hdotted])

section apart

variable {id : Int} {node : String} {p : Path} {d : Dispatch} {jobs : List Job}

theorem Answers.get?_of_ne {t : Task} {files after : Files} {e : Event} {f : Task → Task} {frames : List Frame}
    (h : Answers t files e f frames after) (hp : ∀ k, t.sink = some k → p ≠ k.out ∧ p ≠ k.err) :
    after.get? p = files.get? p := by
  have hfinish : (t.finish files).get? p = files.get? p := by
    unfold Task.finish
    split
    · rename_i k hk
      unfold Sink.finish
      split
      · rfl
      · exact Files.get?_removeFile_of_ne files (hp k hk).2
    · rfl
  cases h with
  | ignored | accepted => rfl
  | refused | ended => exact hfinish
  | @relayed _ _ r =>
    unfold Task.write
    split
    · rename_i k hk
      obtain ⟨hout, herr⟩ := hp k hk
      by_cases ho : r.stdout = "" <;> by_cases he : r.stderr = "" <;>
        simp [Sink.write, ho, he, Files.get?_append_of_ne, hout, herr]
    · rfl

/-- The files of a node are left alone by what other nodes send. -/
theorem get?_output_call (hd : d.Filed) (hp : Places id node p) (hapart : Apart id node d) (now : Time) {e : Event}
    {other : Int} {name : String} (he : e.call? = some (other, name)) (hne : (other, name) ≠ (id, node)) :
    (step now d e).store.output.get? p = d.store.output.get? p := by
  rcases step_call d now he with hsame | ⟨run, t, f, frames, files, hrun, htask, ha, hnext⟩
  · rw [hsame]
  · rw [hnext.output]
    refine ha.get?_of_ne fun k hk => ?_
    obtain ⟨hkeeps, hbelong⟩ := hd other run hrun t (mem_of_task? htask) k hk
    have hno := hapart other run hrun hkeeps t (mem_of_task? htask) (by rwa [task?_node htask]) p hp
    refine ⟨?_, ?_⟩
    · rintro rfl
      exact hno (.inl hbelong.out)
    · rintro rfl
      exact hno (.inr hbelong.err)

theorem get?_output_submit (hp : Places id node p) (now : Moment) (spec : JobSpec) (nodes : List String)
    (capacity : Nat) (keepsOutput : Bool) (hkept : ¬ Drops id node d (now, .submit spec nodes capacity keepsOutput)) :
    (step now.1 d (.submit spec nodes capacity keepsOutput)).store.output.get? p = d.store.output.get? p := by
  have hstore : (step now.1 d (.submit spec nodes capacity keepsOutput)).store =
      (d.store.createJob spec nodes capacity now.1).1 := by
    simp only [step, submit]
    split <;> simp_all
  rw [hstore]
  have hleft {jobs kept : List Job} {evicted : List Int} (hread : d.store.jobs = .ok jobs)
      (hev : evict jobs capacity = .ok (kept, evicted)) :
      (withoutOutputs d.store.output evicted).get? p = d.store.output.get? p := by
    obtain ⟨name, rest, rfl⟩ := List.exists_cons_of_ne_nil hp.ne_nil
    refine Files.get?_removeAll _ _ ?_ rest
    intro hname
    obtain ⟨other, hother, rfl⟩ := List.mem_map.1 hname
    exact hkept ⟨jobs, spec, nodes, capacity, keepsOutput, kept, evicted, hread, rfl, hev, other, hother, _, hp,
      by simp [jobPath]⟩
  generalize hresult : d.store.createJob spec nodes capacity now.1 = result
  have hcreation := Store.creation_createJob d.store spec nodes capacity now.1 {}
  rw [hresult] at hcreation
  cases hcreation with
  | barred => rfl
  | full => rfl
  | unmade hread _ hev => exact hleft hread hev
  | @made jobs kept evicted output hread hev hmake =>
    have hmade : (withoutOutputs d.store.output evicted).makeDirectory (jobPath (Store.nextId kept evicted)) =
        some output := by
      simpa [Store.makeOutput] using hmake
    change output.get? p = _
    rw [(Files.get?_of_makeDirectory hmade).2 p (hp.ne_jobPath _), hleft hread hev]

theorem output_finishRun (hread : d.store.jobs = .ok jobs) (run : Run) (now : Time) :
    (d.finishRun run now).store.output = d.store.output := by
  unfold finishRun Store.finishJob
  rw [Store.withJob_eq hread]
  cases Store.find? run.id jobs <;> rfl

theorem output_settle (hread : d.store.jobs = .ok jobs) (call : Nat) (c : Cancel) (j : CancelJob) (now : Time) :
    (d.settle call c j now).store.output = d.store.output := by
  unfold settle Store.finishCancel
  rw [Store.withJob_eq hread]
  cases Store.find? j.id jobs <;> rfl

/-- The files of a node are left alone by all but its own events, the beginning of its run, and a submission that
drives them out. -/
theorem get?_output_step (hd : d.Filed) (hread : d.store.jobs = .ok jobs) (hp : Places id node p)
    (hapart : Apart id node d) {e : Moment × Event} (hkept : ¬ Drops id node d e) (hbegin : e.2 ≠ .begin id)
    (hown : e.2.call? ≠ some (id, node)) : (d.stepAt e).store.output.get? p = d.store.output.get? p := by
  obtain ⟨now, e⟩ := e
  cases hcall : e.call? with
  | some call => exact get?_output_call hd hp hapart now.1 hcall fun heq => hown (hcall.trans (congrArg some heq))
  | none =>
    cases e <;> simp only [Event.call?, reduceCtorEq] at hcall
    case submit spec nodes capacity keepsOutput =>
      exact get?_output_submit hp now spec nodes capacity keepsOutput hkept
    case begin other =>
      have hne : other ≠ id := fun heq => hbegin (congrArg Event.begin heq)
      cases hrun : d.run? other with
      | none => simp only [stepAt, step, hrun]
      | some run =>
        by_cases hphase : run.phase = .accepted
        · rcases begin_step hread now.1 hrun hphase with ⟨-, -, houtput⟩ | ⟨-, -, houtput⟩
          · rw [stepAt, houtput]
          · rw [stepAt, houtput, run?_id hrun]
            refine get?_openSinks fun hkeeps t ht => hapart other run hrun hkeeps t ht ?_ p hp
            exact fun heq => hne (Prod.mk.inj heq).1
        · simp only [stepAt, step, hrun, if_neg hphase]
    case launch other =>
      simp only [stepAt, step, launchRun, Store.changeState_eq hread]
      repeat' split
      all_goals rfl
    case finish other =>
      simp only [stepAt, step]
      repeat' split
      all_goals first | rfl | rw [output_finishRun hread]
    case leave => rfl
    case cancel ids => simp only [stepAt, step, startCancel, Store.planCancel_eq hread]
    case cancelAnswered =>
      simp only [stepAt, step]
      split <;> rfl
    case cancelEnded =>
      simp only [stepAt, step]
      repeat' split
      all_goals first | rfl | rw [output_settle hread]

end apart

/-! ### What the files hold -/

def outText (replies : List Reply) : String := String.join (replies.map Reply.stdout)

def errText (replies : List Reply) : String := String.join (replies.map Reply.stderr)

theorem outText_concat (replies : List Reply) (r : Reply) : outText (replies ++ [r]) = outText replies ++ r.stdout := by
  simp [outText, String.join]

theorem errText_concat (replies : List Reply) (r : Reply) : errText (replies ++ [r]) = errText replies ++ r.stderr := by
  simp [errText, String.join]

/-- What stands at the place for errors. -/
def Hearing.errEntry (h : Hearing) : Option FileEntry :=
  match h with
  | whole answer => if ∃ r ∈ answer.replies, r.stderr ≠ "" then some (.file (errText answer.replies)) else none
  | h => some (.file (errText h.replies))

/-- The two files of a node hold what was heard of it. -/
structure Hearing.Written (h : Hearing) (out err : Path) (files : Files) : Prop where
  out : files.get? out = some (.file (outText h.replies))
  err : files.get? err = h.errEntry

section written

variable {h : Hearing} {out err : Path} {files : Files}

theorem get?_write {before beforeErr : String} {w : Bool} (hne : out ≠ err)
    (hout : files.get? out = some (.file before)) (herr : files.get? err = some (.file beforeErr)) (r : Reply) :
    (Sink.write ⟨out, err, w⟩ files r).1.get? out = some (.file (before ++ r.stdout)) ∧
      (Sink.write ⟨out, err, w⟩ files r).1.get? err = some (.file (beforeErr ++ r.stderr)) := by
  have hmid : ∃ mid, mid = (if r.stdout = "" then files else files.append out r.stdout) ∧
      mid.get? out = some (.file (before ++ r.stdout)) ∧ mid.get? err = some (.file beforeErr) := by
    refine ⟨_, rfl, ?_⟩
    split
    · rename_i hempty
      exact ⟨by simp [hout, hempty], herr⟩
    · exact ⟨Files.get?_append_self hout _, by rw [Files.get?_append_of_ne _ hne.symm, herr]⟩
  obtain ⟨mid, hmid, hmidOut, hmidErr⟩ := hmid
  unfold Sink.write
  rw [← hmid]
  by_cases hempty : r.stderr = ""
  · simp [hempty, hmidOut, hmidErr]
  · simp only [hempty, if_false]
    exact ⟨by rw [Files.get?_append_of_ne _ hne, hmidOut], Files.get?_append_self hmidErr _⟩

/-- At the end the file for errors goes, unless something was sent to it. -/
theorem Hearing.Written.finish (hw : h.Written out err files) (hne : out ≠ err) {t : Task} {answer : Answer}
    (hreplies : answer.replies = h.replies) (herr : h.errEntry = some (.file (errText h.replies)))
    (hsink : t.sink = some ⟨out, err, h.hasErrors⟩) : (whole answer).Written out err (t.finish files) := by
  have hany : h.hasErrors = true ↔ ∃ r ∈ answer.replies, r.stderr ≠ "" := by
    simp [Hearing.hasErrors, hreplies]
  have herr' := hw.err
  rw [herr] at herr'
  unfold Task.finish
  simp only [hsink, Sink.finish]
  by_cases hsent : h.hasErrors
  · rw [if_pos hsent]
    refine ⟨?_, ?_⟩
    · rw [hw.out]
      exact congrArg (fun l => some (FileEntry.file (outText l))) hreplies.symm
    · rw [herr', errEntry, if_pos (hany.1 hsent), hreplies]
  · rw [if_neg hsent]
    refine ⟨?_, ?_⟩
    · rw [Files.get?_removeFile_of_ne _ hne, hw.out]
      exact congrArg (fun l => some (FileEntry.file (outText l))) hreplies.symm
    · rw [Files.get?_removeFile_self herr', errEntry, if_neg (hany.not.1 hsent)]

/-- What the files hold goes with what is heard. -/
theorem Hearing.Written.answers (hw : h.Written out err files) (hne : out ≠ err) {t : Task} {after : Files}
    {e : Event} {f : Task → Task} {frames : List Frame} (hfits : h.Fits (some (out, err)) t)
    (ha : Answers t files e f frames after) : (h.hear e).Written out err after := by
  cases ha with
  | ignored hphase =>
    rw [hfits.tells.hear_eq hphase]
    exact hw
  | accepted hphase =>
    obtain ⟨rfl, -⟩ := hfits.tells.of_calling hphase
    exact ⟨hw.out, hw.err⟩
  | refused hphase =>
    obtain ⟨rfl, -⟩ := hfits.tells.of_calling hphase
    exact hw.finish hne rfl rfl hfits.sink
  | @relayed _ _ r hphase =>
    obtain ⟨replies, rfl, -⟩ := hfits.tells.of_streaming hphase
    have hsink : t.sink = some ⟨out, err, _⟩ := hfits.sink
    obtain ⟨hout, herr⟩ := get?_write hne hw.out hw.err r
    unfold Task.write
    simp only [hsink]
    refine ⟨?_, ?_⟩
    · rw [hout]
      exact congrArg (fun s => some (FileEntry.file s)) (outText_concat replies r).symm
    · rw [herr]
      exact congrArg (fun s => some (FileEntry.file s)) (errText_concat replies r).symm
  | ended hphase =>
    obtain ⟨replies, rfl, -⟩ := hfits.tells.of_streaming hphase
    exact hw.finish hne rfl rfl hfits.sink

end written

/-! ### Whole runs -/

/-- The output of a node is kept: its two files were made, other nodes have no file at their places, and no
submission drives them out. -/
structure Keeps (d : Dispatch) (events : History) (id : Int) (node : String) (out err : Path) : Prop where
  made : d.Reaches events (Opens id node out err)
  apart : ∀ s, s <+: events → Apart id node (d.runAt s)
  kept : ¬ d.Happens events (Drops id node)

section runs

variable {d : Dispatch} {job : Job} {node : String} {events : History} {out err : Path}

theorem belong_of_opens {id : Int} (hd : d.Filed) (h : Opens id node out err d) : Belong id node out err := by
  obtain ⟨run, t, k, hrun, htask, hsink, rfl, rfl⟩ := h
  have hbelong := (hd id run hrun t (mem_of_task? htask) k hsink).2
  rwa [task?_node htask] at hbelong

theorem Keeps.belong (hjob : d.Accepted job) (h : d.Keeps events job.id node out err) : Belong job.id node out err := by
  obtain ⟨s, -, hopens⟩ := h.made
  exact belong_of_opens (filed_of_accepted hjob s) hopens

/-- The files of a node are empty when its call is made. -/
theorem written_of_begun {id : Int} {run : Run} {files : Files} (hopens : Opens id node out err d)
    (hrun : d.run? id = some (run.begun files))
    (houtput : d.store.output = (openSinks run.id run.keepsOutput files run.tasks).1) :
    Hearing.nothing.Written out err d.store.output := by
  obtain ⟨run', t, k, hrun', htask, hsink, rfl, rfl⟩ := hopens
  rw [hrun, Option.some.injEq] at hrun'
  subst hrun'
  obtain ⟨-, hmade⟩ := made_of_openSinks (mem_of_task? htask) hsink
  rw [houtput]
  exact ⟨hmade.out, hmade.err⟩

/-- Files that are open after an event of a called node were open before. -/
theorem Follows.opens_before {id : Int} {files : Option (Path × Path)} {h : Hearing} {d' : Dispatch}
    {e : Moment × Event} (hd : Follows id node files h d) (hnext : Follows id node files (h.heed id node e) d')
    (hopens : Opens id node out err d') : Opens id node out err d := by
  obtain rfl := hnext.files_of_opens hopens
  refine hd.opens ?_
  rintro answer rfl
  rw [Hearing.heed_whole] at hnext
  obtain ⟨run, t, k, hrun, htask, hsink, -⟩ := hopens
  rw [(hnext.fits hrun htask).sink] at hsink
  cases hsink

/-- What the files of a called node hold goes with what is heard, whatever happens. -/
theorem Follows.written_stepAt {id : Int} {h : Hearing} {jobs : List Job} {e : Moment × Event}
    (hd : Follows id node (some (out, err)) h d) (hfiled : d.Filed) (hread : d.store.jobs = .ok jobs)
    (hbelong : Belong id node out err) (hapart : Apart id node d) (hkept : ¬ Drops id node d e)
    (hw : h.Written out err d.store.output) :
    (h.heed id node e).Written out err (d.stepAt e).store.output := by
  by_cases hown : e.2.call? = some (id, node)
  · rw [Hearing.heed, if_pos hown]
    cases hrun : d.run? id with
    | none =>
      obtain ⟨answer, rfl⟩ := hd.ended hrun
      rw [Hearing.hear_whole, Dispatch.stepAt, step_of_task?_eq_none e.1.1 hown (by simp [hrun])]
      exact hw
    | some run =>
      obtain ⟨-, t, htask, hfits⟩ := hd.run run hrun
      obtain ⟨f, frames, output, ha, hnext⟩ := answered_step e.1.1 hown hrun htask
      rw [Dispatch.stepAt, hnext.output]
      exact hw.answers hbelong.out_ne_err hfits ha
  · rw [Hearing.heed_of_ne h hown]
    by_cases hbegin : e.2 = .begin id
    · rw [Dispatch.stepAt, hbegin, hd.step_begin]
      exact hw
    · refine ⟨?_, ?_⟩
      · rw [get?_output_step hfiled hread (.inl hbelong.out) hapart hkept hbegin hown]
        exact hw.out
      · rw [get?_output_step hfiled hread (.inr hbelong.err) hapart hkept hbegin hown]
        exact hw.err

/-- Along every run, the files of a node hold what was heard of it. -/
theorem written_of_accepted (hjob : d.Accepted job) (hnode : node ∈ job.nodes)
    (hstorage : (d.runAt events).store.Readable) (hkeeps : d.Keeps events job.id node out err) :
    (d.hearing job.id node events).Written out err (d.runAt events).store.output := by
  have hbelong := hkeeps.belong hjob
  induction events using List.reverseRecOn with
  | nil =>
    have hmade := hkeeps.made
    rw [reaches_nil] at hmade
    exact absurd hmade ((uncalled_of_accepted hjob).not_opens out err)
  | append_singleton events e ih =>
    obtain ⟨hmade, hapart, hkept⟩ := hkeeps
    rw [happens_concat, not_or] at hkept
    rw [runAt_concat] at hstorage ⊢
    obtain ⟨jobs, hread⟩ := readable_of_stepAt hstorage
    have hknown := known_of_accepted hjob hread
    rw [reaches_concat, runAt_concat] at hmade
    rcases follows_of_accepted hjob hnode ⟨jobs, hread⟩ with
      ⟨hno, hclosed, huncalled⟩ | ⟨hcalled, files, hfiles, hfollows⟩
    · have hopens := hmade.resolve_left (hclosed out err)
      rw [hearing_concat, if_neg hno]
      rcases huncalled.stepAt hread hknown e with hstill | ⟨run, -, -, hbegun, -, houtput⟩
      · exact absurd hopens (hstill.not_opens out err)
      · exact written_of_begun hopens hbegun houtput
    · have hopened : d.Reaches events (Opens job.id node out err) := by
        rcases hmade with hopened | hopens
        · exact hopened
        · exact ⟨events, List.prefix_rfl, hfollows.opens_before (hfollows.stepAt hread hknown e) hopens⟩
      obtain rfl := hfiles out err hopened
      have hprefix : events <+: events ++ [e] := List.prefix_append _ _
      have hw := ih ⟨jobs, hread⟩ ⟨hopened, fun s hs => hapart s (hs.trans hprefix), hkept.1⟩
      rw [hearing_concat_of_called hcalled]
      exact hfollows.written_stepAt (filed_of_accepted hjob events) hread hbelong (hapart events hprefix) hkept.2 hw

/-- What is known at the end of a node that was heard. -/
theorem follows_of_whole (hjob : d.Accepted job) (hnode : node ∈ job.nodes) {answer : Answer}
    (hstorage : (d.runAt events).store.Readable) (hheard : d.hearing job.id node events = .whole answer) :
    ∃ files, Follows job.id node files (.whole answer) (d.runAt events) := by
  rcases follows_of_accepted hjob hnode hstorage with ⟨hno, -⟩ | ⟨-, files, -, hfollows⟩
  · rw [hearing_of_not_called hno] at hheard
    cases hheard
  · exact ⟨files, hheard ▸ hfollows⟩

end runs

/-- A node that was heard has ended with the last code it sent, or with that of an unreachable node. What was
offered to the submitter is its output, reply by reply, and then the code; one who left has got a prefix. Where its
output is kept, one file holds all of its standard output, and another one its errors if there are some. Another
run in which the node answers the same gives the same code and the same files, whoever left and whatever other
nodes did. A reply with texts for both outputs is the same as two replies, so the submitter may leave between them. -/
theorem relay_of_accepted {d : Dispatch} {job : Job} (hjob : d.Accepted job) {node : String}
    (hnode : node ∈ job.nodes) {answer : Answer} {events : History} (hstorage : (d.runAt events).store.Readable)
    (hheard : d.hearing job.id node events = .whole answer) :
    (∀ code, d.Reaches events (HasEnded job.id node code) ↔ code = answer.exitCode) ∧
      (∃ s, (d.runAt events).stream? job.id = some s ∧ s.framesOf node <+: answer.frames ∧
        (s.isLeft = false → s.framesOf node = answer.frames)) ∧
      (∀ out err, d.Keeps events job.id node out err →
        (d.runAt events).store.output.get? out = some (.file (outText answer.replies)) ∧
          (d.runAt events).store.output.get? err =
            if ∃ r ∈ answer.replies, r.stderr ≠ "" then some (.file (errText answer.replies)) else none) ∧
      (∀ other : History, (d.runAt other).store.Readable → d.hearing job.id node other = .whole answer →
        (∀ code, d.Reaches other (HasEnded job.id node code) ↔ d.Reaches events (HasEnded job.id node code)) ∧
          ∀ out err out' err', d.Keeps events job.id node out err → d.Keeps other job.id node out' err' →
            out' = out ∧ err' = err ∧
              (d.runAt other).store.output.get? out = (d.runAt events).store.output.get? out ∧
              (d.runAt other).store.output.get? err = (d.runAt events).store.output.get? err) ∧
      ∀ (past : History) (now later : Moment) (r : Reply),
        d.runAt (past ++ [(now, .reply job.id node r.outOnly), (later, .reply job.id node r.withoutOut)]) =
          d.runAt (past ++ [(now, .reply job.id node r)]) := by
  have hcode {run : History} (hread : (d.runAt run).store.Readable)
      (hwhole : d.hearing job.id node run = .whole answer) (code : Int) :
      d.Reaches run (HasEnded job.id node code) ↔ code = answer.exitCode := by
    rw [reaches_hasEnded_iff hjob hnode hread, hwhole]
    simp
  have hwritten {run : History} (hread : (d.runAt run).store.Readable)
      (hwhole : d.hearing job.id node run = .whole answer) {out err : Path}
      (hkeeps : d.Keeps run job.id node out err) :
      (Hearing.whole answer).Written out err (d.runAt run).store.output :=
    hwhole ▸ written_of_accepted hjob hnode hread hkeeps
  refine ⟨hcode hstorage hheard, ?_, ?_, ?_, ?_⟩
  · obtain ⟨files, hfollows⟩ := follows_of_whole hjob hnode hstorage hheard
    obtain ⟨s, hstream, hprefix, hall⟩ := hfollows.stream
    exact ⟨s, hstream, hprefix, hall⟩
  · intro out err hkeeps
    have hw := hwritten hstorage hheard hkeeps
    exact ⟨hw.out, hw.err⟩
  · intro other hread hwhole
    refine ⟨fun code => (hcode hread hwhole code).trans (hcode hstorage hheard code).symm, ?_⟩
    intro out err out' err' hkeeps hkeeps'
    obtain rfl := (hkeeps'.belong hjob).out.unique (hkeeps.belong hjob).out
    obtain rfl := (hkeeps'.belong hjob).err.unique (hkeeps.belong hjob).err
    have hw := hwritten hstorage hheard hkeeps
    have hw' := hwritten hread hwhole hkeeps'
    exact ⟨rfl, rfl, hw'.out.trans hw.out.symm, hw'.err.trans hw.err.symm⟩
  · intro past now later r
    rw [runAt_append, runAt_append]
    exact step_outOnly now.1 later.1 (d.runAt past) job.id node r

/-- A job on two nodes whose output is kept. -/
def mirrored : Dispatch := (idle.submit { command := "c", nodes := ["A", "B"] } ["A", "B"] 1 true epoch.1).1

def spoken : Answer := .stream [{ stdout := "one" }, { stderr := "oops", exitCode := some 3 }, { stdout := "two" }]

/-- The submitter leaves while one node is heard, and the other one refuses the job. -/
def deserted : History :=
  [.begin 1, .answered 1 "A" true, .answered 1 "B" false, .reply 1 "A" { stdout := "one" }, .leave 1, .launch 1,
    .reply 1 "A" { stderr := "oops", exitCode := some 3 }, .reply 1 "A" { stdout := "two" }, .ended 1 "A",
    .finish 1].map fun e => (epoch, e)

theorem keeps_deserted : mirrored.Keeps deserted 1 "A" ["1", "A.out"] ["1", "A.err"] := by
  refine ⟨⟨deserted.take 1, List.take_prefix _ _, ?_⟩, ?_, ?_⟩
  · have hsink : (((mirrored.runAt (deserted.take 1)).run? 1).bind fun run => (task? run "A").bind Task.sink) =
        some ⟨["1", "A.out"], ["1", "A.err"], false⟩ := by
      decide +kernel
    obtain ⟨run, hrun, hsink⟩ := Option.bind_eq_some_iff.1 hsink
    obtain ⟨t, htask, hsink⟩ := Option.bind_eq_some_iff.1 hsink
    exact ⟨run, t, _, hrun, htask, hsink, rfl, rfl⟩
  · have hnodes : deserted.inits.all fun s =>
        (mirrored.runAt s).runs.all fun run => run.tasks.all fun t => t.node ∈ ["A", "B"] := by
      decide +kernel
    intro s hs
    have hnode {other : Int} {run : Run} (hrun : (mirrored.runAt s).run? other = some run) {t : Task}
        (ht : t ∈ run.tasks) : t.node = "A" ∨ t.node = "B" := by
      have hruns := List.all_eq_true.1 hnodes s ((List.mem_inits s deserted).2 hs)
      simpa using List.all_eq_true.1 (List.all_eq_true.1 hruns run (List.mem_of_find?_eq_some hrun)) t ht
    refine apart_of_names (by decide) ?_ ?_
    · intro other run hrun t ht
      rcases hnode hrun ht with h | h <;> rw [h] <;> decide
    · intro run hrun t ht hdotted
      rcases hnode hrun ht with h | h
      · exact h
      · rw [h] at hdotted
        exact absurd hdotted (by decide +kernel)
  · rintro ⟨s, e, hs, jobs, spec, nodes, capacity, keepsOutput, _, _, -, he, -⟩
    have hmem : e ∈ deserted := hs.subset (by simp)
    simp only [deserted, List.map_cons, List.map_nil, List.mem_cons, List.not_mem_nil, or_false] at hmem
    rcases hmem with rfl | rfl | rfl | rfl | rfl | rfl | rfl | rfl | rfl | rfl <;> cases he

theorem relay_of_deserted :
    (∀ code, mirrored.Reaches deserted (HasEnded 1 "A" code) ↔ code = 3) ∧
      (∃ s, (mirrored.runAt deserted).stream? 1 = some s ∧
        s.framesOf "A" <+: [.out "one", .err "oops", .out "two", .exit 3]) ∧
      (mirrored.runAt deserted).store.output.get? ["1", "A.out"] = some (.file "onetwo") ∧
      (mirrored.runAt deserted).store.output.get? ["1", "A.err"] = some (.file "oops") := by
  have hjob : mirrored.Accepted (Job.new 1 { command := "c", nodes := ["A", "B"] } ["A", "B"] epoch.1) :=
    ⟨idle, .plain, ["A", "B"], ∅, { command := "c", nodes := ["A", "B"] }, false, ["A", "B"], 1, true, epoch,
      ⟨_, [], rfl⟩, by decide +kernel, Prod.ext rfl (by decide +kernel)⟩
  have hheard : mirrored.hearing 1 "A" (deserted.take 1 ++ deserted.drop 1) = .whole spoken :=
    hearing_of_answer ⟨deserted.take 1, List.prefix_rfl, by decide +kernel⟩ (by decide +kernel) rfl
  rw [List.take_append_drop] at hheard
  obtain ⟨hcode, ⟨s, hstream, hframes, -⟩, hfiles, -⟩ := relay_of_accepted hjob (by decide : "A" ∈ ["A", "B"])
    (Store.readable_of_isSome (by decide +kernel)) hheard
  obtain ⟨hout, herr⟩ := hfiles _ _ keeps_deserted
  exact ⟨hcode, ⟨s, hstream, hframes⟩, hout, herr⟩

end Dispatch

end Muster
