import Muster.Proofs.Decimal
import Muster.Proofs.Record
import Muster.Proofs.Requests

/-!
# What is left in output directories

The store is opened, and directories of jobs that are not listed are removed as far as they can be, unless there is
no list: then nothing is looked through, and what an older store left there becomes the output of new jobs. From then
on each request leaves the directories of listed jobs alone, also where the storage refuses a part of it.
-/

namespace Muster.Store

/-! ### Removal of other directories -/

theorem int32?_toString {id : Int} (h : Fits32 id) : Text.int32? (toString id).toList = some id := by
  rw [Text.int32?, Text.integerWithin?, Text.integer?_toString, Option.filter_some, if_pos]
  simpa [Fits32] using h

/-- A directory that is removed with those of other jobs. -/
def isOrphan (known : List Int) (name : String) : Bool :=
  match Text.int32? name.toList with
  | some id => !known.contains id
  | none => false

section

variable {output : Files} {known : List Int} {stuck : List Path} {name : String}

theorem isOrphan_iff : isOrphan known name ↔ ∃ id, Text.int32? name.toList = some id ∧ id ∉ known := by
  unfold isOrphan
  cases Text.int32? name.toList <;> simp

theorem isOrphan_toString {id : Int} (h : Fits32 id) : isOrphan known (toString id) ↔ id ∉ known := by
  rw [isOrphan_iff, int32?_toString h]
  simp

/-- What is no directory stays anyway. -/
theorem removeOrphans_eq (output : Files) (known : List Int) (stuck : List Path) :
    removeOrphans output known stuck = output.removeAll (output.topNames.filter (isOrphan known)) stuck := by
  rw [removeOrphans, Files.removeAll, List.foldl_filter]
  congr 1
  funext files name
  unfold isOrphan
  cases Text.int32? name.toList with
  | none => rfl
  | some id =>
    by_cases hknown : id ∈ known
    · simp [hknown]
    · by_cases hdir : files.isDirectory [name]
      · simp [hknown, hdir]
      · simp [hdir, Files.removeDirectory]

theorem mem_topNames (h : output.isDirectory [name]) : name ∈ output.topNames := by
  have hget : output.get? [name] = some .directory := by simpa [Files.isDirectory_iff] using h
  have hkey : [name] ∈ output.keys := by simp [SortedMap.mem_keys, SortedMap.contains, hget]
  exact List.mem_filterMap.2 ⟨[name], hkey, rfl⟩

/-- An orphan goes with all that is below it, unless it is stuck; everything else stays. -/
theorem get?_removeOrphans (output : Files) (known : List Int) (stuck : List Path) (name : String) (rest : Path) :
    (removeOrphans output known stuck).get? (name :: rest) =
      if isOrphan known name ∧ output.isDirectory [name] ∧ ¬ Files.isStuck stuck (name :: rest) then none
      else output.get? (name :: rest) := by
  rw [removeOrphans_eq, Files.get?_removeAll_eq]
  by_cases hdir : output.isDirectory [name]
  · simp only [List.mem_filter, mem_topNames hdir, true_and]
  · simp [hdir]

theorem isTree_removeOrphans (h : output.IsTree) : (removeOrphans output known stuck).IsTree := by
  rw [removeOrphans_eq]
  exact h.removeAll _

/-- A directory is there afterwards if it was there and is no orphan, or is stuck. -/
theorem isDirectory_removeOrphans_iff : (removeOrphans output known stuck).isDirectory [name] ↔
    output.isDirectory [name] ∧ (isOrphan known name → Files.isStuck stuck [name]) := by
  have hcons (files : Files) : files.isDirectory [name] ↔ files.get? [name] = some .directory := by
    simp [Files.isDirectory_iff]
  rw [hcons, get?_removeOrphans]
  by_cases hdir : output.isDirectory [name]
  · by_cases horphan : isOrphan known name
    · by_cases hstuck : Files.isStuck stuck [name]
      · simp [hdir, hstuck, (hcons output).1 hdir]
      · simp [hdir, horphan, hstuck]
    · simp [hdir, horphan, (hcons output).1 hdir]
  · simp [hdir, mt (hcons output).2 hdir]

end

/-! ### Requests that the storage serves in part -/

/-- A request at a moment, with what the storage refuses to do meanwhile. -/
abbrev Attempt := (Moment × Request) × Refusals

def attemptAt (store : Store) (a : Attempt) : Store := (store.serve a.1.2 a.1.1.1 a.2).1

def attemptAll (store : Store) (attempts : List Attempt) : Store := attempts.foldl attemptAt store

@[simp] theorem attemptAll_nil (store : Store) : store.attemptAll [] = store := rfl

@[simp] theorem attemptAll_concat (store : Store) (attempts : List Attempt) (a : Attempt) :
    store.attemptAll (attempts ++ [a]) = (store.attemptAll attempts).attemptAt a := by
  simp [attemptAll]

section

variable {α : Type} {store : Store} {jobs after : List Job} {a : Attempt}

theorem withJobs_served (store : Store) (f : List Job → List Job × α) (refusals : Refusals) :
    (store.withJobs f refusals).1 = store ∨ (store.withJobs f refusals).1 = (store.withJobs f).1 := by
  rcases withJobs_cases store f refusals with ⟨-, _, hsame⟩ | ⟨jobs, hread, -, hdone⟩
  · exact .inl (congrArg Prod.fst hsame)
  · exact .inr (by rw [hdone, withJobs_eq hread])

theorem withJob_served (store : Store) (id : Int) (f : Job → Job) (refusals : Refusals) :
    (store.withJob id f refusals).1 = store ∨ (store.withJob id f refusals).1 = (store.withJob id f).1 := by
  have hfirst (refusals : Refusals) : (store.withJob id f refusals).1 =
      (store.withJobs (fun jobs => (changeFirst id f jobs, (find? id jobs).map f)) refusals).1 := by
    unfold withJob
    split <;> simp_all
  rw [hfirst, hfirst]
  exact withJobs_served store _ refusals

/-- A request that only changes the list is served, or nothing happens. -/
theorem attemptAt_served (store : Store) {a : Attempt} (hreopen : a.1.2 ≠ .reopen)
    (hcreate : (a.1.2.operation store.output).isCreate = false) :
    store.attemptAt a = store ∨ store.attemptAt a = store.serveAt a.1 := by
  obtain ⟨⟨now, request⟩, refusals⟩ := a
  cases request with
  | reopen => exact absurd rfl hreopen
  | create spec nodes capacity => cases hcreate
  | change id before after => exact withJobs_served store _ refusals
  | finish id failed => exact withJob_served store id _ refusals
  | plan ids => exact withJobs_served store _ refusals
  | settle id failed => exact withJob_served store id _ refusals
  | get ids => exact .inl rfl

/-- What a request leaves of directories of other jobs, if it looks through the output: what is stuck. -/
def sweep? (a : Attempt) : Option (List Path) :=
  match a.1.2 with
  | .reopen => if a.2.opening || a.2.writing || a.2.listing then none else some a.2.removing
  | _ => none

/-- A store with a list is opened again: nothing happens, or the interrupted jobs are marked, and the output is looked
through unless it cannot be listed. -/
theorem attemptAt_reopen (hread : store.jobs = .ok jobs) (now : Moment) (refusals : Refusals) :
    (sweep? ((now, .reopen), refusals) = none ∧ (store.attemptAt ((now, .reopen), refusals) = store ∨
        store.attemptAt ((now, .reopen), refusals) =
          { store with file := JobDocument.save (jobs.map interrupted) })) ∨
      sweep? ((now, .reopen), refusals) = some refusals.removing ∧
        store.attemptAt ((now, .reopen), refusals) =
          ⟨JobDocument.save (jobs.map interrupted),
            removeOrphans store.output (jobs.map Job.id) refusals.removing⟩ := by
  have habsent := isAbsent_of_jobs hread
  obtain ⟨opening, writing, listing, making, removing⟩ := refusals
  cases opening <;> cases writing <;> cases listing <;>
    simp [attemptAt, serve, ended, recover, sweep?, withJobs, hread, habsent]

end

/-! ### One request -/

/-- What a request makes of the output, by the ids that are listed before it and after it. -/
structure Tends (sweep : Option (List Path)) (ids listed : List Int) (before after : Files) : Prop where
  newest : greatest ids ≤ greatest listed
  kept : ∀ id ∈ ids, id ∈ listed → ∀ rest, after.get? (toString id :: rest) = before.get? (toString id :: rest)
  apart : sweep = none → ∀ id ∉ ids, id ∉ listed →
    ∀ rest, after.get? (toString id :: rest) = before.get? (toString id :: rest)
  swept : ∀ stuck ∈ sweep, ∀ id, Fits32 id → id ∉ listed → ∀ rest, after.get? (toString id :: rest) =
    if before.isDirectory (jobPath id) ∧ ¬ Files.isStuck stuck (toString id :: rest) then none
    else before.get? (toString id :: rest)
  tree : before.IsTree → after.IsTree

section

variable {store : Store} {jobs kept after : List Job} {evicted : List Int} {capacity : Nat} {output made : Files}
  {stuck : List Path}

theorem Tends.same (ids : List Int) (output : Files) : Tends none ids ids output output :=
  ⟨Int.le_refl _, fun _ _ _ _ => rfl, fun _ _ _ _ _ => rfl, nofun, id⟩

theorem tends_unchanged (hread : store.jobs = .ok jobs) (hafter : store.jobs = .ok after) (output : Files) :
    Tends none (jobs.map Job.id) (after.map Job.id) output output := by
  rw [hread, Except.ok.injEq] at hafter
  subst hafter
  exact .same _ _

theorem mem_kept_iff (hev : evict jobs capacity = .ok (kept, evicted)) {id : Int} :
    id ∈ kept.map Job.id ↔ id ∈ jobs.map Job.id ∧ id ∉ evicted := by
  rw [(evict_eq_ok hev).2]
  constructor
  · intro h
    obtain ⟨job, hjob, rfl⟩ := List.mem_map.1 h
    obtain ⟨hmem, hno⟩ := List.mem_filter.1 hjob
    exact ⟨List.mem_map.2 ⟨job, hmem, rfl⟩, by simpa using hno⟩
  · rintro ⟨h, hno⟩
    obtain ⟨job, hjob, rfl⟩ := List.mem_map.1 h
    exact List.mem_map.2 ⟨job, List.mem_filter.2 ⟨hjob, by simpa using hno⟩, rfl⟩

theorem mem_of_mem_evicted (hev : evict jobs capacity = .ok (kept, evicted)) {id : Int} (h : id ∈ evicted) :
    id ∈ jobs.map Job.id := by
  rw [(evict_eq_ok hev).1] at h
  obtain ⟨job, hjob, hid, -⟩ := mem_evictable h
  exact List.mem_map.2 ⟨job, hjob, hid⟩

/-- The jobs that go take their output with them, as far as it can be removed, and the new one has a place apart. -/
theorem tends_of_evict (hev : evict jobs capacity = .ok (kept, evicted)) (spec : JobSpec) (nodes : List String)
    (now : Time)
    (hsame : ∀ p, p ≠ jobPath (nextId kept evicted) → made.get? p = (withoutOutputs output evicted stuck).get? p)
    (htree : (withoutOutputs output evicted stuck).IsTree → made.IsTree) :
    Tends none (jobs.map Job.id) ((kept ++ [Job.new (nextId kept evicted) spec nodes now]).map Job.id) output
      made := by
  have hapart {id : Int} (hid : id ≠ nextId kept evicted) (hstays : id ∉ evicted) (rest : Path) :
      made.get? (toString id :: rest) = output.get? (toString id :: rest) := by
    rw [hsame _ fun heq => hid (Text.toString_int_injective (List.cons.inj heq).1)]
    exact get?_withoutOutputs output stuck hstays rest
  have hold {id : Int} (hid : id ∈ jobs.map Job.id) : id ≠ nextId kept evicted := by
    obtain ⟨job, hjob, rfl⟩ := List.mem_map.1 hid
    exact Int.ne_of_lt (lt_nextId hev hjob)
  have hlisted {id : Int} : id ∈ (kept ++ [Job.new (nextId kept evicted) spec nodes now]).map Job.id ↔
      (id ∈ jobs.map Job.id ∧ id ∉ evicted) ∨ id = nextId kept evicted := by
    rw [List.map_append, List.mem_append, mem_kept_iff hev, List.map_singleton, List.mem_singleton]
    rfl
  refine ⟨?_, ?_, ?_, nofun, fun h => htree (h.removeAll _)⟩
  · have hnewest := newestId_enlist spec nodes capacity now jobs
    rwa [enlist_eq hev] at hnewest
  · intro id hid hafter rest
    rcases hlisted.1 hafter with ⟨-, hstays⟩ | hnew
    · exact hapart (hold hid) hstays rest
    · exact absurd hnew (hold hid)
  · intro _ id hid hno rest
    have hne : id ≠ nextId kept evicted := fun hnew => hno (hlisted.2 (.inr hnew))
    exact hapart hne (fun hgoes => hid (mem_of_mem_evicted hev hgoes)) rest

theorem tends_create (hread : store.jobs = .ok jobs) (now : Moment) (spec : JobSpec) (nodes : List String)
    (capacity : Nat) (refusals : Refusals)
    (hafter : (store.createJob spec nodes capacity now.1 refusals).1.jobs = .ok after) :
    Tends none (jobs.map Job.id) (after.map Job.id) store.output
      (store.createJob spec nodes capacity now.1 refusals).1.output := by
  have hnew {kept : List Job} {evicted : List Int} {made : Store}
      (hev : evict jobs capacity = .ok (kept, evicted))
      (hfile : made.file = JobDocument.save (kept ++ [.new (nextId kept evicted) spec nodes now.1]))
      (hlist : made.jobs = .ok after) : after = kept ++ [.new (nextId kept evicted) spec nodes now.1] := by
    have htimed := timed_enlist now.2 spec nodes capacity (timed_of_jobs hread)
    rw [enlist_eq hev] at htimed
    rw [jobs_of_file hfile htimed ⟨_, hlist⟩, Except.ok.injEq] at hlist
    exact hlist.symm
  have hcreation := creation_createJob store spec nodes capacity now.1 refusals
  generalize store.createJob spec nodes capacity now.1 refusals = r at hafter hcreation
  cases hcreation with
  | barred _ => exact tends_unchanged hread hafter _
  | full hagain _ =>
    rw [hread, Except.ok.injEq] at hagain
    subst hagain
    exact tends_unchanged (jobs_of_rewritten hread rfl) hafter _
  | unmade hagain _ hev _ =>
    rw [hread, Except.ok.injEq] at hagain
    subst hagain
    rw [hnew hev rfl hafter]
    exact tends_of_evict hev spec nodes now.1 (fun _ _ => rfl) id
  | made hagain hev hmake =>
    rw [hread, Except.ok.injEq] at hagain
    subst hagain
    rw [hnew hev rfl hafter]
    have hmade := makeDirectory_of_makeOutput hmake
    exact tends_of_evict hev spec nodes now.1 (Files.get?_of_makeDirectory hmade).2 fun htree => htree.makeDirectory hmade

/-- The directories of listed jobs stay where the output is looked through. -/
theorem tends_swept (hread : store.jobs = .ok jobs) (stuck : List Path) :
    Tends (some stuck) (jobs.map Job.id) (jobs.map Job.id) store.output
      (removeOrphans store.output (jobs.map Job.id) stuck) := by
  refine ⟨Int.le_refl _, ?_, nofun, ?_, isTree_removeOrphans⟩
  · intro id hid _ rest
    obtain ⟨job, hjob, rfl⟩ := List.mem_map.1 hid
    have hfits := (JobDocument.storable_of_load hread job hjob).id
    rw [get?_removeOrphans, if_neg]
    exact fun hall => (isOrphan_toString hfits).1 hall.1 hid
  · rintro _ ⟨⟩ id hfits hno rest
    rw [get?_removeOrphans, (isOrphan_toString hfits).2 hno, jobPath]
    simp only [true_and]

theorem map_id_interrupted (jobs : List Job) : (jobs.map interrupted).map Job.id = jobs.map Job.id := by
  simp

theorem tends_reopen (hread : store.jobs = .ok jobs) (now : Moment) (refusals : Refusals)
    (hafter : (store.attemptAt ((now, .reopen), refusals)).jobs = .ok after) :
    Tends (sweep? ((now, .reopen), refusals)) (jobs.map Job.id) (after.map Job.id) store.output
      (store.attemptAt ((now, .reopen), refusals)).output := by
  have hmarked {opened : Store} (hfile : opened.file = JobDocument.save (jobs.map interrupted))
      (hlist : opened.jobs = .ok after) : after.map Job.id = jobs.map Job.id := by
    rw [Store.jobs, hfile, load_interrupted hread, Except.ok.injEq] at hlist
    rw [← hlist, map_id_interrupted]
  rcases attemptAt_reopen hread now refusals with ⟨hsweep, hsame | hfile⟩ | ⟨hsweep, hdone⟩
  · rw [hsame] at hafter
    rw [hsweep, hsame]
    exact tends_unchanged hread hafter _
  · rw [hfile] at hafter
    rw [hsweep, hfile, hmarked rfl hafter]
    exact .same _ _
  · rw [hdone] at hafter
    rw [hsweep, hdone, hmarked rfl hafter]
    exact tends_swept hread _

/-- A request leaves the output of listed jobs alone, and that of newer ones unless it looks through the output. -/
theorem tends_attemptAt (hread : store.jobs = .ok jobs) (a : Attempt) (hafter : (store.attemptAt a).jobs = .ok after) :
    Tends (sweep? a) (jobs.map Job.id) (after.map Job.id) store.output (store.attemptAt a).output := by
  have hsame (hreopen : a.1.2 ≠ .reopen) (hcreate : (a.1.2.operation store.output).isCreate = false)
      (hsweep : sweep? a = none) (houtput : (store.serveAt a.1).output = store.output) :
      Tends (sweep? a) (jobs.map Job.id) (after.map Job.id) store.output (store.attemptAt a).output := by
    rw [hsweep]
    rcases attemptAt_served store hreopen hcreate with hno | hserved
    · rw [hno] at hafter ⊢
      exact tends_unchanged hread hafter _
    · rw [hserved] at hafter
      obtain ⟨_, hagain, rfl⟩ := jobs_of_serveAt (isAbsent_of_jobs hread) hafter
      rw [hread, Except.ok.injEq] at hagain
      subst hagain
      rw [hserved, houtput, listAfter, map_id_relist hcreate]
      exact .same _ _
  obtain ⟨⟨now, request⟩, refusals⟩ := a
  cases request with
  | reopen => exact tends_reopen hread now refusals hafter
  | create spec nodes capacity => exact tends_create hread now spec nodes capacity refusals hafter
  | change id before after =>
    exact hsame (by simp) rfl rfl (by simp only [serveAt, serve, ended, changeState_eq hread])
  | finish id failed =>
    exact hsame (by simp) rfl rfl (by simp only [serveAt, serve, ended, finishJob, withJob_eq hread])
  | plan ids => exact hsame (by simp) rfl rfl (by simp only [serveAt, serve, ended, planCancel_eq hread])
  | settle id failed =>
    exact hsame (by simp) rfl rfl (by simp only [serveAt, serve, ended, finishCancel, withJob_eq hread])
  | get ids => exact hsame (by simp) rfl rfl rfl

/-- A list that cannot be read is left alone. -/
theorem attemptAt_of_error {fault : Fault} (hread : store.jobs = .error fault) (hfile : store.file.isAbsent = false)
    (a : Attempt) : store.attemptAt a = store := by
  obtain ⟨⟨now, request⟩, refusals⟩ := a
  cases request with
  | reopen =>
    simp only [attemptAt, serve, ended, recover, hfile, withJobs, hread]
    split <;> rfl
  | create | change | plan => simp only [attemptAt, serve, ended, createJob, changeState, planCancel, withJobs, hread]
  | finish | settle => simp only [attemptAt, serve, ended, finishJob, finishCancel, withJob, withJobs, hread]
  | get ids => rfl

/-- A list that can be read after a request could be read before it. -/
theorem readable_of_attemptAt (hfile : store.file.isAbsent = false) (a : Attempt)
    (hafter : (store.attemptAt a).jobs = .ok after) : ∃ jobs, store.jobs = .ok jobs := by
  cases hread : store.jobs with
  | ok jobs => exact ⟨jobs, rfl⟩
  | error fault =>
    rw [attemptAt_of_error hread hfile, hread] at hafter
    cases hafter

theorem isAbsent_attemptAt (hfile : store.file.isAbsent = false) (a : Attempt) :
    (store.attemptAt a).file.isAbsent = false := by
  cases hread : store.jobs with
  | error fault => rwa [attemptAt_of_error hread hfile]
  | ok jobs =>
    have hserved (hreopen : a.1.2 ≠ .reopen) (hcreate : (a.1.2.operation store.output).isCreate = false) :
        (store.attemptAt a).file.isAbsent = false := by
      rcases attemptAt_served store hreopen hcreate with hsame | hdone
      · rwa [hsame]
      · rw [hdone, serveAt_eq_apply]
        exact isAbsent_applyAt hfile (_, _)
    obtain ⟨⟨now, request⟩, refusals⟩ := a
    cases request with
    | reopen =>
      rcases attemptAt_reopen hread now refusals with ⟨-, hsame | hdone⟩ | ⟨-, hdone⟩
      · rwa [hsame]
      all_goals
        rw [hdone]
        rfl
    | create spec nodes capacity =>
      have hcreation := creation_createJob store spec nodes capacity now.1 refusals
      simp only [attemptAt, serve, ended]
      generalize store.createJob spec nodes capacity now.1 refusals = r at hcreation
      cases hcreation with
      | barred => exact hfile
      | full | unmade | made => rfl
    | change | finish | plan | settle | get => exact hserved (by simp) rfl

theorem isAbsent_attemptAll (hfile : store.file.isAbsent = false) (attempts : List Attempt) :
    (store.attemptAll attempts).file.isAbsent = false := by
  induction attempts using List.reverseRecOn with
  | nil => exact hfile
  | append_singleton attempts a ih =>
    rw [attemptAll_concat]
    exact isAbsent_attemptAt ih a

end

/-! ### Whole runs -/

/-- What was stuck each time that the output was looked through, from the opening of a store on. Without a list it is
not looked through when the store is opened. -/
def sweeps (store : Store) (refusals : Refusals) (attempts : List Attempt) : List (List Path) :=
  (if store.file.isAbsent then [] else [refusals.removing]) ++ attempts.filterMap sweep?

/-- The output after some requests to a store that was opened: in the places of jobs that are still to come there is
what was there before, as far as it was stuck each time. -/
structure Kempt (store : Store) (refusals : Refusals) (attempts : List Attempt) (jobs : List Job) (output : Files) :
    Prop where
  tree : output.IsTree
  above : ∀ id, Fits32 id → newestId jobs < id → ∀ rest ≠ [], ∀ entry,
    output.get? (toString id :: rest) = some entry ↔ store.output.get? (toString id :: rest) = some entry ∧
      ∀ stuck ∈ store.sweeps refusals attempts, Files.isStuck stuck (toString id :: rest)

section

variable {store opened : Store} {jobs after : List Job} {refusals : Refusals} {attempts : List Attempt} {a : Attempt}
  {sweep : Option (List Path)} {ids listed : List Int} {before output : Files}

theorem not_mem_of_newestId_lt {id : Int} (h : newestId jobs < id) : id ∉ jobs.map Job.id := by
  intro hid
  obtain ⟨job, hjob, rfl⟩ := List.mem_map.1 hid
  exact absurd (le_newestId hjob) (by omega)

/-- In a tree what stands below an orphan stands there afterwards exactly if it is stuck. -/
theorem get?_swept_iff (htree : before.IsTree) {name : String} {stuck : List Path} {rest : Path} (hrest : rest ≠ [])
    {entry : FileEntry} (h : output.get? (name :: rest) =
      if before.isDirectory [name] ∧ ¬ Files.isStuck stuck (name :: rest) then none else before.get? (name :: rest)) :
    output.get? (name :: rest) = some entry ↔
      before.get? (name :: rest) = some entry ∧ Files.isStuck stuck (name :: rest) := by
  rw [h]
  by_cases hstuck : Files.isStuck stuck (name :: rest)
  · simp [hstuck]
  · by_cases hdir : before.isDirectory [name]
    · simp [hdir, hstuck]
    · have hnone : before.get? (name :: rest) ≠ some entry := fun hget =>
        hdir (htree.isDirectory_of_holds ⟨rest, entry, hrest, hget⟩)
      simp [hdir, hnone]

theorem sweeps_concat (store : Store) (refusals : Refusals) (attempts : List Attempt) (a : Attempt) :
    store.sweeps refusals (attempts ++ [a]) = store.sweeps refusals attempts ++ (sweep? a).toList := by
  rw [sweeps, sweeps, List.filterMap_append, List.append_assoc]
  cases hsweep : sweep? a <;> simp [hsweep]

theorem kempt_nil (htree : store.output.IsTree) (hopen : store.recover refusals = (opened, .ok ()))
    (h : opened.jobs = .ok jobs) : Kempt store refusals [] jobs opened.output := by
  rcases recover_cases hopen with ⟨habsent, -, houtput⟩ | ⟨found, hfound, hmarked, houtput⟩
  · rw [houtput]
    exact ⟨htree, fun id _ _ rest _ entry => by simp [sweeps, habsent]⟩
  · rw [h, Except.ok.injEq] at hmarked
    subst hmarked
    rw [houtput]
    refine ⟨isTree_removeOrphans htree, fun id hfits hid rest hrest entry => ?_⟩
    have hno : id ∉ found.map Job.id := map_id_interrupted found ▸ not_mem_of_newestId_lt hid
    rw [get?_swept_iff htree hrest ((tends_swept hfound refusals.removing).swept _ rfl id hfits hno rest)]
    simp [sweeps, isAbsent_of_jobs hfound]

theorem Kempt.step (h : Kempt store refusals attempts jobs before)
    (hrequest : Tends (sweep? a) (jobs.map Job.id) (after.map Job.id) before output) :
    Kempt store refusals (attempts ++ [a]) after output := by
  refine ⟨hrequest.tree h.tree, ?_⟩
  intro id hfits hid rest hrest entry
  have hlt : newestId jobs < id := Int.lt_of_le_of_lt hrequest.newest hid
  have hno : id ∉ after.map Job.id := not_mem_of_newestId_lt hid
  have habove := h.above id hfits hlt rest hrest entry
  rw [sweeps_concat]
  cases hsweep : sweep? a with
  | none =>
    rw [hrequest.apart hsweep id (not_mem_of_newestId_lt hlt) hno rest, habove, Option.toList_none, List.append_nil]
  | some stuck =>
    rw [get?_swept_iff h.tree hrest (hrequest.swept stuck hsweep id hfits hno rest), habove, and_assoc,
      Option.toList_some]
    simp only [List.mem_append, List.mem_singleton, or_imp, forall_and, forall_eq]

theorem kempt_of_opened (htree : store.output.IsTree) (hopen : store.recover refusals = (opened, .ok ()))
    (h : (opened.attemptAll attempts).jobs = .ok jobs) :
    Kempt store refusals attempts jobs (opened.attemptAll attempts).output := by
  have hfile : opened.file.isAbsent = false := by
    rcases recover_cases hopen with ⟨-, hopened, -⟩ | ⟨_, -, hopened, -⟩ <;> exact isAbsent_of_jobs hopened
  -- A list that can be read in the end could be read before each request.
  induction attempts using List.reverseRecOn generalizing jobs with
  | nil => exact kempt_nil htree hopen h
  | append_singleton attempts a ih =>
    rw [attemptAll_concat] at h ⊢
    obtain ⟨listed, hlisted⟩ := readable_of_attemptAt (isAbsent_attemptAll hfile attempts) a h
    exact (ih hlisted).step (tends_attemptAt hlisted a h)

/-! ### Output of new jobs -/

/-- Every output directory that has an id for its name is that of a listed job. -/
def Tidy (ids : List Int) (output : Files) : Prop :=
  ∀ name id, Text.int32? name.toList = some id → output.isDirectory [name] → id ∈ ids

/-- Something stood below the place of a job's output before the store was opened, and was stuck each time that the
output was looked through since. -/
def Leftover (store : Store) (refusals : Refusals) (attempts : List Attempt) (id : Int) : Prop :=
  ∃ rest entry, rest ≠ [] ∧ store.output.get? (toString id :: rest) = some entry ∧
    ∀ stuck ∈ store.sweeps refusals attempts, Files.isStuck stuck (toString id :: rest)

theorem tidy_iff_of_opened (hopen : store.recover refusals = (opened, .ok ())) :
    ∃ jobs, opened.jobs = .ok jobs ∧ (Tidy (jobs.map Job.id) opened.output ↔
      ∀ name id, Text.int32? name.toList = some id → store.output.isDirectory [name] → id ∉ jobs.map Job.id →
        ¬ store.file.isAbsent ∧ ¬ Files.isStuck refusals.removing [name]) := by
  rcases recover_cases hopen with ⟨habsent, hopened, houtput⟩ | ⟨jobs, hread, hopened, houtput⟩
  · refine ⟨[], hopened, ?_⟩
    rw [houtput]
    simp [Tidy, habsent]
  · refine ⟨_, hopened, ?_⟩
    rw [houtput, map_id_interrupted]
    have hpresent : ¬ store.file.isAbsent := by simp [isAbsent_of_jobs hread]
    constructor
    · intro htidy name id hid hdir hno
      refine ⟨hpresent, fun hstuck => hno (htidy name id hid ?_)⟩
      exact isDirectory_removeOrphans_iff.2 ⟨hdir, fun _ => hstuck⟩
    · intro hfree name id hid hdir
      by_contra hno
      obtain ⟨hthere, hstuck⟩ := isDirectory_removeOrphans_iff.1 hdir
      exact (hfree name id hid hthere hno).2 (hstuck (isOrphan_iff.2 ⟨id, hid, hno⟩))

/-- A new job has a directory, which holds what was in its place. -/
theorem holds_createJob {spec : JobSpec} {nodes : List String} {capacity : Nat} {now : Time} {made : Store} {job : Job}
    (h : store.createJob spec nodes capacity now refusals = (made, .ok job)) :
    ∃ jobs, store.jobs = .ok jobs ∧ newestId jobs < job.id ∧ made.output.isDirectory (jobPath job.id) ∧
      ∀ rest ≠ [], made.output.get? (toString job.id :: rest) = store.output.get? (toString job.id :: rest) := by
  have hcreation := creation_createJob store spec nodes capacity now refusals
  rw [h] at hcreation
  cases hcreation with
  | @made jobs kept evicted output hread hev hmake =>
    obtain ⟨hdir, hsame⟩ := Files.get?_of_makeDirectory (makeDirectory_of_makeOutput hmake)
    refine ⟨jobs, hread, newestId_lt_nextId hev, Files.isDirectory_iff.2 (.inr hdir), fun rest hrest => ?_⟩
    calc output.get? (toString (nextId kept evicted) :: rest)
      _ = (withoutOutputs store.output evicted refusals.removing).get? (toString (nextId kept evicted) :: rest) :=
        hsame _ fun heq => hrest (List.cons.inj heq).2
      _ = store.output.get? (toString (nextId kept evicted) :: rest) :=
        get?_withoutOutputs store.output _ (nextId_not_mem hev) rest

/-- The output of a new job holds what was left there, and nothing else. -/
theorem holds_iff_leftover (htree : store.output.IsTree) (hopen : store.recover refusals = (opened, .ok ()))
    {spec : JobSpec} {nodes : List String} {capacity : Nat} {now : Time} {refused : Refusals} {made : Store} {job : Job}
    (h : (opened.attemptAll attempts).createJob spec nodes capacity now refused = (made, .ok job))
    (hfits : Fits32 job.id) : made.output.isDirectory (jobPath job.id) ∧
      (made.output.Holds (toString job.id) ↔ Leftover store refusals attempts job.id) := by
  obtain ⟨jobs, hread, hlt, hdir, hbelow⟩ := holds_createJob h
  have habove := (kempt_of_opened htree hopen hread).above job.id hfits hlt
  refine ⟨hdir, exists_congr fun rest => exists_congr fun entry => and_congr_right fun hrest => ?_⟩
  rw [hbelow rest hrest]
  exact habove rest hrest entry

end

/-- A store is opened, and nobody else writes to its output. The directories of other jobs are gone, but for those
that could not be removed, and for all of them if there was no list. A new job has an empty directory, unless
something was left in its place all the time. And a request leaves the output of jobs alone that are listed before it
and after it. The storage may refuse to remove anything, and anything else. -/
theorem outputs_of_opened {store opened : Store} {refusals : Refusals} (htree : store.output.IsTree)
    (hopen : store.recover refusals = (opened, .ok ())) :
    (∃ jobs, opened.jobs = .ok jobs ∧ (Tidy (jobs.map Job.id) opened.output ↔
      ∀ name id, Text.int32? name.toList = some id → store.output.isDirectory [name] → id ∉ jobs.map Job.id →
        ¬ store.file.isAbsent ∧ ¬ Files.isStuck refusals.removing [name])) ∧
      (∀ attempts spec nodes capacity now refused made job,
        (opened.attemptAll attempts).createJob spec nodes capacity now refused = (made, .ok job) → Fits32 job.id →
          made.output.isDirectory (jobPath job.id) ∧
            (¬ made.output.Holds (toString job.id) ↔ ¬ Leftover store refusals attempts job.id)) ∧
      ∀ attempts a before after, (opened.attemptAll attempts).jobs = .ok before →
        (opened.attemptAll (attempts ++ [a])).jobs = .ok after →
        ∀ id ∈ before.map Job.id, id ∈ after.map Job.id → ∀ rest,
          (opened.attemptAll (attempts ++ [a])).output.get? (toString id :: rest) =
            (opened.attemptAll attempts).output.get? (toString id :: rest) := by
  refine ⟨tidy_iff_of_opened hopen, ?_, ?_⟩
  · intro attempts spec nodes capacity now refused made job h hfits
    obtain ⟨hdir, hholds⟩ := holds_iff_leftover htree hopen h hfits
    exact ⟨hdir, not_congr hholds⟩
  · intro attempts a before after hbefore hafter id hid hlater rest
    rw [attemptAll_concat] at hafter ⊢
    exact (tends_attemptAt hbefore a hafter).kept id hid hlater rest

/-- The output of an older job. -/
def oldOutput : Files := SortedMap.ofList [(["1"], .directory), (["1", "A.50505.out"], .file "old")]

theorem isTree_oldOutput : oldOutput.IsTree := by
  intro path entry hget
  have hmem : (path, entry) ∈ [(["1"], FileEntry.directory), (["1", "A.50505.out"], .file "old")] :=
    (SortedMap.get?_eq_some_iff oldOutput path entry).1 hget
  simp only [List.mem_cons, Prod.mk.injEq, List.not_mem_nil, or_false] at hmem
  rcases hmem with ⟨rfl, -⟩ | ⟨rfl, -⟩
  · exact ⟨by simp, rfl⟩
  · exact ⟨by simp, by decide +kernel⟩

/-- With a list, and be it empty, the output is removed, and the first job has an empty directory. -/
theorem outputs_of_listed :
    ∃ opened made job, recover { file := JobDocument.save [], output := oldOutput } = (opened, .ok ()) ∧
      opened.createJob { command := "a" } ["A"] 10 Dispatch.epoch.1 = (made, .ok job) ∧ job.id = 1 ∧
      ¬ opened.output.isDirectory ["1"] ∧ ¬ made.output.Holds (toString job.id) := by
  have hopen : recover { file := JobDocument.save [], output := oldOutput } =
      ((recover { file := JobDocument.save [], output := oldOutput }).1, .ok ()) := Prod.ext rfl (by decide +kernel)
  generalize hopened : (recover { file := JobDocument.save [], output := oldOutput }).1 = opened at hopen
  have hcreated : (opened.createJob { command := "a" } ["A"] 10 Dispatch.epoch.1).2 =
      .ok (.new 1 { command := "a" } ["A"] Dispatch.epoch.1) := by
    rw [← hopened]
    decide +kernel
  obtain ⟨⟨jobs, hjobs, htidy⟩, hempty, -⟩ := outputs_of_opened isTree_oldOutput hopen
  have hnone : jobs = [] := by
    rw [← hopened] at hjobs
    have hread : (recover { file := JobDocument.save [], output := oldOutput }).1.jobs = .ok [] := by decide +kernel
    rw [hread, Except.ok.injEq] at hjobs
    exact hjobs.symm
  refine ⟨opened, _, _, hopen, Prod.ext rfl hcreated, rfl, ?_, ?_⟩
  · intro hdir
    have hfree : ¬ Json.Stored.isAbsent (JobDocument.save []) ∧ ∀ name, ¬ Files.isStuck [] [name] := ⟨nofun, by simp⟩
    have hmem := htidy.2 (fun name _ _ _ _ => ⟨hfree.1, hfree.2 name⟩) "1" 1 (by decide) hdir
    simp [hnone] at hmem
  · refine (hempty [] _ _ _ _ {} _ _ (Prod.ext rfl hcreated) (by decide)).2.2 ?_
    rintro ⟨rest, entry, -, -, hstuck⟩
    cases hstuck [] (List.mem_append_left _ (List.mem_singleton.2 rfl))

/-- Without a list the output stays, and it becomes that of the first job. -/
theorem outputs_of_unlisted :
    ∃ opened made job, recover { file := .absent, output := oldOutput } = (opened, .ok ()) ∧
      oldOutput.IsTree ∧ opened.jobs = .ok [] ∧ opened.output.isDirectory ["1"] ∧
      opened.createJob { command := "a" } ["A"] 10 Dispatch.epoch.1 = (made, .ok job) ∧ job.id = 1 ∧
      made.output.get? ["1", "A.50505.out"] = some (.file "old") := by
  refine ⟨{ file := JobDocument.save [], output := oldOutput },
    (createJob { file := JobDocument.save [], output := oldOutput } { command := "a" } ["A"] 10 Dispatch.epoch.1).1,
    .new 1 { command := "a" } ["A"] Dispatch.epoch.1, rfl, isTree_oldOutput, ?_, ?_, Prod.ext rfl ?_, rfl, ?_⟩
  all_goals decide +kernel

end Muster.Store
