import Muster.Proofs.Decimal
import Muster.Proofs.Relaying
import Muster.Proofs.Requests
import Muster.Proofs.Shown

/-!
# Where the output of a node stands

The names of a node's two files lead from the directory of its job to places that depend on nothing else. A name
without slashes leads to a file of the directory itself. Open files stand at the places of their node.
-/

namespace Muster

namespace Text

/-- What has no separator in it stands at the end of the last piece. -/
theorem getLast?_split_append {sep : Char} {last : List Char} (h : sep ∉ last) (s : List Char) :
    ∃ first, (split sep (s ++ last)).getLast? = some (first ++ last) := by
  induction s with
  | nil => exact ⟨[], by simp [split_of_not_mem h]⟩
  | cons c rest ih =>
    obtain ⟨first, ih⟩ := ih
    rw [List.cons_append, split]
    split
    · exact ⟨first, by rw [List.getLast?_cons, ih]; rfl⟩
    · split
      · rename_i hnil
        simp [hnil] at ih
      · rename_i piece pieces hpieces
        rw [hpieces] at ih
        cases pieces with
        | nil =>
          simp only [List.getLast?_singleton, Option.some.injEq] at ih
          exact ⟨c :: first, by simp [ih]⟩
        | cons second rest =>
          rw [List.getLast?_cons_cons] at ih ⊢
          exact ⟨first, ih⟩

theorem not_mem_toString_int {c : Char} (hdigit : isDigit c = false) (hsign : c ≠ '-') (i : Int) :
    c ∉ (toString i).toList := by
  cases i with
  | ofNat n =>
    rw [toList_toString_ofNat]
    exact not_mem_toDigits hdigit n
  | negSucc n =>
    rw [toList_toString_negSucc, List.mem_cons, not_or]
    exact ⟨hsign, not_mem_toDigits hdigit (n + 1)⟩

theorem startsWith_of_not_mem {s : String} (h : '/' ∉ s.toList) : s.startsWith "/" = false := by
  rw [String.startsWith_string_eq_false_iff]
  exact fun hstarts => h (hstarts.subset (by decide))

/-- What a character becomes in the name of a file. -/
def dot (c : Char) : Char := if c = ':' then '.' else c

theorem toList_dotted (s : String) : (dotted s).toList = s.toList.map dot := String.toList_map

theorem mem_dotted_iff {c : Char} (hcolon : c ≠ ':') (hdot : c ≠ '.') (s : String) :
    c ∈ (dotted s).toList ↔ c ∈ s.toList := by
  rw [toList_dotted, List.mem_map]
  constructor
  · rintro ⟨b, hb, rfl⟩
    unfold dot at hdot ⊢
    split
    · rename_i hb'
      rw [if_pos hb'] at hdot
      exact absurd rfl hdot
    · exact hb
  · exact fun h => ⟨c, h, if_neg hcolon⟩

/-- A file for output is none for errors. -/
theorem out_ne_err (s t : String) : s ++ ".out" ≠ t ++ ".err" := by
  intro heq
  have hout : ".out".toList = ['.', 'o', 'u', 't'] := rfl
  have herr : ".err".toList = ['.', 'e', 'r', 'r'] := rfl
  have hlist := congrArg String.toList heq
  rw [String.toList_append, String.toList_append, hout, herr] at hlist
  cases (List.append_inj' hlist rfl).2

end Text

namespace Files

/-! ### Where names lead -/

/-- Where a name leads does not depend on the directories that are there. -/
theorem walk_unique {files other : Files} {base p q : Path} {names : List String}
    (hp : files.walk base names = some p) (hq : other.walk base names = some q) : p = q := by
  fun_induction files.walk base names generalizing q with
  | case1 => cases hp
  | case2 base last =>
    rw [walk] at hq
    exact (Option.some.inj hp).symm.trans (Option.some.inj hq)
  | case3 base name rest hrest hskip ih =>
    rw [walk, if_pos hskip] at hq
    · exact ih hp hq
    · exact hrest
  | case4 => cases hp
  | case5 base rest hrest hskip hbase ih =>
    rw [walk, if_neg hskip, if_pos rfl, if_neg hbase] at hq
    · exact ih hp hq
    · exact hrest
  | case6 base name rest hrest hskip hup hdir ih =>
    rw [walk, if_neg hskip, if_neg hup] at hq
    · split at hq
      · exact ih hp hq
      · cases hq
    · exact hrest
  | case7 => cases hp

/-- The last name stays the last. -/
theorem getLast?_walk {files : Files} {base p : Path} {names : List String} (h : files.walk base names = some p) :
    p.getLast? = names.getLast? := by
  fun_induction files.walk base names with
  | case1 => cases h
  | case2 base last => simp [← Option.some.inj h]
  | case3 base name rest hrest hskip ih =>
    cases rest with
    | nil => exact absurd rfl hrest
    | cons second rest => rw [List.getLast?_cons_cons, ih h]
  | case4 => cases h
  | case5 base rest hrest hskip hbase ih =>
    cases rest with
    | nil => exact absurd rfl hrest
    | cons second rest => rw [List.getLast?_cons_cons, ih h]
  | case6 base name rest hrest hskip hup hdir ih =>
    cases rest with
    | nil => exact absurd rfl hrest
    | cons second rest => rw [List.getLast?_cons_cons, ih h]
  | case7 => cases h

/-! ### Reading after writing -/

section

variable {files made : Files} {path p : Path} {before text : String}

theorem write_eq_some (h : files.write path text = some made) : made = files.insert path (.file text) := by
  unfold write at h
  split at h
  · cases h
  · exact (Option.some.inj h).symm

theorem get?_append_self (h : files.get? path = some (.file before)) (text : String) :
    (files.append path text).get? path = some (.file (before ++ text)) := by
  simp [append, h]

theorem get?_append_of_ne (files : Files) (h : p ≠ path) (text : String) :
    (files.append path text).get? p = files.get? p := by
  unfold append
  split
  · exact SortedMap.get?_insert_of_ne _ _ h
  · rfl

theorem get?_removeFile_self (h : files.get? path = some (.file text)) : (files.removeFile path).get? path = none := by
  simp [removeFile, h]

theorem get?_removeFile_of_ne (files : Files) (h : p ≠ path) : (files.removeFile path).get? p = files.get? p := by
  unfold removeFile
  split
  · ext entry
    rw [SortedMap.get?_erase_eq_some_iff]
    simp [h]
  · rfl

end

end Files

namespace Dispatch

open Store (jobPath)

/-! ### Places -/

/-- Where a name leads from the directory of a job. -/
def LeadsTo (id : Int) (name : String) (p : Path) : Prop :=
  ∃ files : Files, files.resolve? (jobPath id) name = some p

/-- The places of a node's two files. -/
structure Belong (id : Int) (node : String) (out err : Path) : Prop where
  out : LeadsTo id (Text.dotted node ++ ".out") out
  err : LeadsTo id (Text.dotted node ++ ".err") err

/-- A place of one of a node's two files. -/
def Places (id : Int) (node : String) (p : Path) : Prop :=
  LeadsTo id (Text.dotted node ++ ".out") p ∨ LeadsTo id (Text.dotted node ++ ".err") p

section places

variable {id : Int} {name node : String} {p q out err : Path}

theorem LeadsTo.unique (hp : LeadsTo id name p) (hq : LeadsTo id name q) : p = q := by
  obtain ⟨files, hp⟩ := hp
  obtain ⟨other, hq⟩ := hq
  unfold Files.resolve? at hp hq
  split at hp
  · cases hp
  · rw [if_neg ‹_›] at hq
    exact Files.walk_unique hp hq

/-- The ending of a name stays at the end of the place. -/
theorem LeadsTo.ending {last : String} (h : LeadsTo id (name ++ last) p) (hslash : '/' ∉ last.toList) :
    ∃ first, p.getLast? = some (first ++ last) := by
  obtain ⟨files, h⟩ := h
  unfold Files.resolve? at h
  split at h
  · cases h
  · obtain ⟨first, hlast⟩ := Text.getLast?_split_append hslash name.toList
    refine ⟨String.ofList first, ?_⟩
    rw [Files.getLast?_walk h, Text.pieces, String.toList_append, List.getLast?_map, hlast]
    exact congrArg some (String.toList_inj.1 (by simp))

theorem Belong.out_ne_err (h : Belong id node out err) : out ≠ err := by
  rintro rfl
  obtain ⟨first, hout⟩ := h.out.ending (by decide)
  obtain ⟨second, herr⟩ := h.err.ending (by decide)
  rw [hout, Option.some.injEq] at herr
  exact Text.out_ne_err first second herr

/-- No file of a node stands at the place of a job's directory. -/
theorem Places.ne_jobPath (h : Places id node p) (other : Int) : p ≠ jobPath other := by
  rintro rfl
  have hno {last : String} {c : Char} (hlead : LeadsTo id (Text.dotted node ++ last) (jobPath other))
      (hslash : '/' ∉ last.toList) (hc : c ∈ last.toList) (hdigit : Text.isDigit c = false) (hsign : c ≠ '-') :
      False := by
    obtain ⟨first, heq⟩ := hlead.ending hslash
    rw [jobPath, List.getLast?_singleton, Option.some.injEq] at heq
    refine Text.not_mem_toString_int hdigit hsign other ?_
    rw [heq, String.toList_append]
    exact List.mem_append_right _ hc
  rcases h with h | h
  · exact hno (c := 't') h (by decide) (by decide) (by decide) (by decide)
  · exact hno (c := 'e') h (by decide) (by decide) (by decide) (by decide)

theorem Places.ne_nil (h : Places id node p) : p ≠ [] := by
  rintro rfl
  rcases h with h | h
  · obtain ⟨first, heq⟩ := h.ending (by decide)
    cases heq
  · obtain ⟨first, heq⟩ := h.ending (by decide)
    cases heq

/-- A name without slashes leads to a file of the directory. -/
theorem leadsTo_iff (hslash : '/' ∉ name.toList) : LeadsTo id name p ↔ p = [toString id, name] := by
  have hwalk (files : Files) : files.resolve? (jobPath id) name = some [toString id, name] := by
    rw [Files.resolve?, Text.startsWith_of_not_mem hslash, Text.pieces, Text.split_of_not_mem hslash]
    simp [Files.walk, jobPath]
  constructor
  · rintro ⟨files, h⟩
    rw [hwalk, Option.some.injEq] at h
    exact h.symm
  · rintro rfl
    exact ⟨∅, hwalk ∅⟩

end places

/-! ### Making files -/

section making

variable {id : Int} {node name : String} {base p path : Path} {files : Files} {k : Sink}

theorem get?_create_of_ne (h : files.resolve? base name ≠ some p) :
    (Sink.create files base name).1.get? p = files.get? p := by
  unfold Sink.create
  split
  · rfl
  · rename_i path hpath
    split
    · rename_i made hmade
      rw [Files.write_eq_some hmade, SortedMap.get?_insert_of_ne]
      rintro rfl
      exact h hpath
    · rfl

/-- Only empty files are made. -/
theorem get?_create_of_empty (h : files.get? p = some (.file "")) (base : Path) (name : String) :
    (Sink.create files base name).1.get? p = some (.file "") := by
  by_cases hp : files.resolve? base name = some p
  · unfold Sink.create
    rw [hp]
    simp only
    split
    · rename_i made hmade
      rw [Files.write_eq_some hmade, SortedMap.get?_insert_self]
    · exact h
  · rw [get?_create_of_ne hp, h]

theorem create_eq_some (h : (Sink.create files base name).2 = some path) :
    files.resolve? base name = some path ∧ (Sink.create files base name).1.get? path = some (.file "") := by
  unfold Sink.create at h ⊢
  split at h
  · cases h
  · rename_i place hplace
    split at h
    · rename_i made hmade
      cases h
      refine ⟨hplace, ?_⟩
      simp only
      rw [Files.write_eq_some hmade, SortedMap.get?_insert_self]
    · cases h

/-- What stands where the files of a node were just made. -/
structure Made (files : Files) (id : Int) (node : String) (k : Sink) : Prop where
  belong : Belong id node k.out k.err
  out : files.get? k.out = some (.file "")
  err : files.get? k.err = some (.file "")

theorem Made.mono {more : Files} (h : Made files id node k)
    (hkeeps : ∀ p, files.get? p = some (.file "") → more.get? p = some (.file "")) : Made more id node k :=
  ⟨h.belong, hkeeps _ h.out, hkeeps _ h.err⟩

theorem start_fst (files : Files) (id : Int) (node : String) : (Sink.start files id node).1 =
    (Sink.create (Sink.create files (jobPath id) (Text.dotted node ++ ".out")).1 (jobPath id)
      (Text.dotted node ++ ".err")).1 := by
  unfold Sink.start
  simp only
  split <;> rfl

theorem get?_start_of_not_places (h : ¬ Places id node p) :
    (Sink.start files id node).1.get? p = files.get? p := by
  rw [start_fst, get?_create_of_ne, get?_create_of_ne]
  · exact fun hout => h (.inl ⟨_, hout⟩)
  · exact fun herr => h (.inr ⟨_, herr⟩)

theorem get?_start_of_empty (h : files.get? p = some (.file "")) (id : Int) (node : String) :
    (Sink.start files id node).1.get? p = some (.file "") := by
  rw [start_fst]
  exact get?_create_of_empty (get?_create_of_empty h _ _) _ _

theorem made_of_start (h : (Sink.start files id node).2 = some k) : Made (Sink.start files id node).1 id node k := by
  rw [start_fst]
  unfold Sink.start at h
  simp only at h
  split at h
  · rename_i out err hout herr
    cases h
    obtain ⟨hplace, hempty⟩ := create_eq_some hout
    obtain ⟨hplace', hempty'⟩ := create_eq_some herr
    exact ⟨⟨⟨_, hplace⟩, ⟨_, hplace'⟩⟩, get?_create_of_empty hempty _ _, hempty'⟩
  · cases h

variable {keepsOutput : Bool} {tasks : List Task}

theorem get?_openSinks (h : keepsOutput → ∀ t ∈ tasks, ¬ Places id t.node p) :
    (openSinks id keepsOutput files tasks).1.get? p = files.get? p := by
  induction tasks generalizing files with
  | nil => rfl
  | cons t rest ih =>
    simp only [openSinks]
    rw [ih fun hkeeps u hu => h hkeeps u (List.mem_cons_of_mem _ hu)]
    split
    · rename_i hkeeps
      exact get?_start_of_not_places (h hkeeps t List.mem_cons_self)
    · rfl

theorem get?_openSinks_of_empty (h : files.get? p = some (.file "")) :
    (openSinks id keepsOutput files tasks).1.get? p = some (.file "") := by
  induction tasks generalizing files with
  | nil => exact h
  | cons t rest ih =>
    simp only [openSinks]
    refine ih ?_
    split
    · exact get?_start_of_empty h id t.node
    · exact h

/-- Open files are there when the calls are made. -/
theorem made_of_openSinks {t : Task} (ht : t ∈ (openSinks id keepsOutput files tasks).2) (hsink : t.sink = some k) :
    keepsOutput ∧ Made (openSinks id keepsOutput files tasks).1 id t.node k := by
  induction tasks generalizing files with
  | nil => cases ht
  | cons first rest ih =>
    simp only [openSinks, List.mem_cons] at ht ⊢
    rcases ht with rfl | ht
    · simp only at hsink
      split at hsink
      · rename_i hkeeps
        refine ⟨hkeeps, ?_⟩
        simp only [hkeeps, if_true]
        exact (made_of_start hsink).mono fun p hp => get?_openSinks_of_empty hp
      · cases hsink
    · exact ih ht

end making

/-! ### Open files -/

/-- Open files stand at the places of their node. -/
def Filed (d : Dispatch) : Prop :=
  ∀ id run, d.run? id = some run → ∀ t ∈ run.tasks, ∀ k, t.sink = some k →
    run.keepsOutput ∧ Belong id t.node k.out k.err

@[simp] theorem Sink.write_out (s : Sink) (files : Files) (r : Reply) : (s.write files r).2.out = s.out := by
  by_cases h : r.stderr = "" <;> simp [Sink.write, h]

@[simp] theorem Sink.write_err (s : Sink) (files : Files) (r : Reply) : (s.write files r).2.err = s.err := by
  by_cases h : r.stderr = "" <;> simp [Sink.write, h]

section filed

variable {d : Dispatch} {id : Int}

/-- A run that another event leaves behind was there before, or is new and has no open files. -/
theorem run?_step_of_ne (now : Time) {e : Event} (he : e.job? ≠ some id) {run : Run}
    (h : (step now d e).run? id = some run) : d.run? id = some run ∨ ∀ t ∈ run.tasks, t.sink = none := by
  cases hjob : e.job? with
  | some other =>
    have hne : other ≠ id := fun heq => he (hjob.trans (congrArg some heq))
    have hpart : part id (step now d e) (d.relist now [] e) = part id d [] := part_step_of_ne now hjob hne
    exact .inl ((congrArg Part.run hpart).symm.trans h)
  | none =>
    cases e <;> simp only [Event.job?, reduceCtorEq] at hjob
    case submit spec nodes capacity keepsOutput =>
      simp only [step, submit] at h
      split at h
      · exact .inl h
      · rw [run?, List.find?_append] at h
        cases hold : d.run? id with
        | some old =>
          rw [run?] at hold
          rw [hold, Option.some_or] at h
          exact .inl h
        | none =>
          rw [run?] at hold
          rw [hold, Option.none_or] at h
          have hmem := List.mem_of_find?_eq_some h
          rw [List.mem_singleton.1 hmem]
          exact .inr fun t ht => by
            obtain ⟨o, -, rfl⟩ := List.mem_map.1 ht
            rfl
    case cancel ids =>
      refine .inl ?_
      simp only [step, startCancel] at h
      split at h <;> exact h
    case cancelAnswered call other node accepted =>
      have hpart : part id (step now d (.cancelAnswered call other node accepted)) [] = part id d [] :=
        part_cancelAnswered d [] now call other node accepted
      exact .inl ((congrArg Part.run hpart).symm.trans h)
    case cancelEnded call other =>
      refine .inl ?_
      rcases step_cancelEnded d [] now call other with ⟨hstep, -⟩ | ⟨c, j, -, -, -, -, hstep, -⟩
      · rwa [hstep] at h
      · rw [hstep] at h
        exact (congrArg Part.run (part_settle d [] call c j now)).symm.trans h

theorem Answers.sink_of_some {t : Task} {files after : Files} {e : Event} {f : Task → Task} {frames : List Frame}
    (h : Answers t files e f frames after) {u : Task} {k : Sink} (hsink : (f u).sink = some k) :
    u.sink = some k ∨ ∃ before, t.sink = some before ∧ before.out = k.out ∧ before.err = k.err := by
  cases h with
  | ignored | accepted => exact .inl hsink
  | refused | ended => cases hsink
  | @relayed _ _ r =>
    right
    change (t.write files r).2 = some k at hsink
    unfold Task.write at hsink
    split at hsink
    · rename_i before hbefore
      cases hsink
      exact ⟨before, hbefore, by simp⟩
    · cases hsink

theorem Filed.begun {run : Run} {files : Files} :
    ∀ t ∈ (run.begun files).tasks, ∀ k, t.sink = some k → run.keepsOutput ∧ Belong run.id t.node k.out k.err := by
  intro t ht k hsink
  obtain ⟨hkeeps, hmade⟩ := made_of_openSinks ht hsink
  exact ⟨hkeeps, hmade.belong⟩

theorem filed_call (hd : d.Filed) (now : Time) {e : Event} {node : String} (he : e.call? = some (id, node)) :
    ∀ run', (step now d e).run? id = some run' → ∀ t ∈ run'.tasks, ∀ k, t.sink = some k →
      run'.keepsOutput ∧ Belong id t.node k.out k.err := by
  intro run' hrun'
  rcases step_call d now he with hsame | ⟨run, t, f, frames, files, hrun, htask, ha, hnext⟩
  · rw [hsame] at hrun'
    exact hd id run' hrun'
  · rw [hnext.run, Option.some.injEq] at hrun'
    subst hrun'
    intro t' ht' k hsink
    obtain ⟨u, hu, rfl⟩ := List.mem_map.1 ht'
    split at hsink
    · rename_i hnode
      rw [if_pos hnode, ha.node_eq]
      rcases ha.sink_of_some hsink with hold | ⟨before, hbefore, hout, herr⟩
      · exact hd id run hrun u hu k hold
      · have hbelong := hd id run hrun t (mem_of_task? htask) before hbefore
        rw [task?_node htask, hout, herr] at hbelong
        rw [hnode]
        exact hbelong
    · rename_i hnode
      rw [if_neg hnode]
      exact hd id run hrun u hu k hsink

theorem filed_step (hd : d.Filed) (now : Time) (e : Event) : (step now d e).Filed := by
  intro id run' hrun'
  by_cases he : e.job? = some id
  · cases hcall : e.call? with
    | some call =>
      obtain ⟨other, node⟩ := call
      have hsame : other = id := by
        cases e <;> simp_all [Event.call?, Event.job?]
      exact filed_call hd now (hsame ▸ hcall) run' hrun'
    | none =>
      cases hrun : d.run? id with
      | none =>
        refine hd id run' ?_
        cases e <;> simp_all [Event.call?, Event.job?, step]
      | some run =>
        have hold := hd id run hrun
        obtain rfl := run?_id hrun
        have hset {store : Store} {more : Run} (hsome : ({ d with store }.setRun more).run? run.id = some run')
            (hid : more.id = run.id) : more = run' := by
          rw [setRun_run?_self ((store_run? d store run.id).trans hrun) hid] at hsome
          exact Option.some.inj hsome
        cases e <;> simp only [Event.call?, Event.job?, Option.some.injEq, reduceCtorEq] at he hcall <;> subst he
        case begin =>
          simp only [step, hrun, beginRun] at hrun'
          split at hrun'
          · split at hrun'
            · simp at hrun'
            · simp at hrun'
            · obtain rfl := hset hrun' rfl
              exact Filed.begun
          · exact hd _ run' hrun'
        case launch =>
          simp only [step, hrun, launchRun] at hrun'
          split at hrun'
          · split at hrun'
            · simp at hrun'
            · obtain rfl := hset hrun' rfl
              exact hold
          · exact hd _ run' hrun'
        case finish =>
          simp only [step, hrun, finishRun] at hrun'
          split at hrun'
          · split at hrun' <;> simp at hrun'
          · exact hd _ run' hrun'
        case leave => exact hd _ run' hrun'
  · rcases run?_step_of_ne now he hrun' with hold | hnew
    · exact hd id run' hold
    · intro t ht k hsink
      rw [hnew t ht] at hsink
      cases hsink

end filed

theorem filed_runAt {d : Dispatch} (hd : d.Filed) (events : History) : (d.runAt events).Filed := by
  induction events using List.reverseRecOn with
  | nil => exact hd
  | append_singleton events e ih =>
    rw [runAt_concat]
    exact filed_step ih e.1.1 e.2

/-- At every time, open files stand at the places of their node. -/
theorem filed_of_accepted {d : Dispatch} {job : Job} (hjob : d.Accepted job) (events : History) :
    (d.runAt events).Filed := by
  obtain ⟨before, _, _, _, spec, _, nodes, capacity, keepsOutput, now, ⟨store, past, rfl⟩, -, hsubmit⟩ := hjob
  have hstep : (runAt { store } past).stepAt (now, .submit spec nodes capacity keepsOutput) = d :=
    congrArg Prod.fst hsubmit
  rw [← hstep]
  refine filed_runAt (filed_step (filed_runAt ?_ past) now.1 _) events
  intro id run hrun
  cases hrun

end Dispatch

end Muster
