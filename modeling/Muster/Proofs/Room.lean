import Muster.Proofs.Failing

/-!
# Room for a new job

A list takes a new job if enough inactive jobs can go. Then the first of them go, as many as have to, and their
output with them; else nothing changes.
-/

namespace Muster.Store

def inactive (job : Job) : Bool := !job.state.isActive

/-- The first `n` inactive jobs of a list. -/
def oldest (n : Nat) (jobs : List Job) : List Job := (jobs.filter inactive).take n

/-- A list without its first `n` inactive jobs. -/
def withoutOldest : Nat → List Job → List Job
  | 0, jobs => jobs
  | _ + 1, [] => []
  | n + 1, job :: rest =>
    if job.state.isActive then job :: withoutOldest (n + 1) rest else withoutOldest n rest

@[simp] theorem withoutOldest_zero (jobs : List Job) : withoutOldest 0 jobs = jobs := by
  cases jobs <;> rfl

@[simp] theorem withoutOldest_nil (n : Nat) : withoutOldest n [] = [] := by
  cases n <;> rfl

variable {jobs : List Job} {n : Nat}

theorem mem_of_mem_oldest {job : Job} (h : job ∈ oldest n jobs) : job ∈ jobs :=
  (List.mem_filter.1 (List.mem_of_mem_take h)).1

/-- As ids tell jobs apart, it is the same to take out jobs and to take out their ids. -/
theorem filter_oldest (h : (jobs.map Job.id).Nodup) (n : Nat) :
    (jobs.filter fun job => !((oldest n jobs).map Job.id).contains job.id) = withoutOldest n jobs := by
  induction jobs generalizing n with
  | nil => simp
  | cons first rest ih =>
    rw [List.map_cons, List.nodup_cons] at h
    obtain ⟨hfirst, hrest⟩ := h
    have hother {job : Job} (hjob : job ∈ rest) : job.id ≠ first.id := fun heq =>
      hfirst (List.mem_map.2 ⟨job, hjob, heq⟩)
    cases n with
    | zero => simp [oldest]
    | succ n =>
      rw [withoutOldest]
      split
      · rename_i hactive
        have hold : oldest (n + 1) (first :: rest) = oldest (n + 1) rest := by simp [oldest, inactive, hactive]
        have hstays : first.id ∉ (oldest (n + 1) rest).map Job.id := by
          intro hmem
          obtain ⟨job, hjob, heq⟩ := List.mem_map.1 hmem
          exact hother (mem_of_mem_oldest hjob) heq
        rw [hold, List.filter_cons_of_pos (by simpa using hstays), ih hrest]
      · rename_i hidle
        have hold : oldest (n + 1) (first :: rest) = first :: oldest n rest := by simp [oldest, inactive, hidle]
        rw [hold, List.map_cons, List.filter_cons_of_neg (by simp), ← ih hrest]
        refine List.filter_congr fun job hjob => ?_
        simp [hother hjob]

theorem length_withoutOldest (h : n ≤ jobs.countP inactive) : (withoutOldest n jobs).length + n = jobs.length := by
  induction jobs generalizing n with
  | nil =>
    rw [List.countP_nil] at h
    simp [Nat.le_zero.1 h]
  | cons first rest ih =>
    cases n with
    | zero => simp
    | succ n =>
      rw [withoutOldest]
      split
      · rename_i hactive
        rw [List.countP_cons_of_neg (by simp [inactive, hactive])] at h
        have hrest := ih h
        simp only [List.length_cons]
        omega
      · rename_i hidle
        rw [List.countP_cons_of_pos (by simp [inactive, hidle])] at h
        have hrest := ih (Nat.le_of_succ_le_succ h)
        simp only [List.length_cons]
        omega

theorem mem_withoutOldest {job : Job} (h : job ∈ jobs) (hactive : job.state.isActive) (n : Nat) :
    job ∈ withoutOldest n jobs := by
  induction jobs generalizing n with
  | nil => cases h
  | cons first rest ih =>
    cases n with
    | zero => simpa using h
    | succ n =>
      rw [withoutOldest]
      rcases List.mem_cons.1 h with rfl | h
      · rw [if_pos hactive]
        exact List.mem_cons_self
      · split
        · exact List.mem_cons_of_mem _ (ih h _)
        · exact ih h _

/-! ### Eviction -/

theorem evictable_eq (jobs : List Job) (capacity : Nat) :
    evictable jobs capacity = (oldest (excess jobs capacity) jobs).map Job.id := rfl

theorem length_evictable (jobs : List Job) (capacity : Nat) :
    (evictable jobs capacity).length = min (excess jobs capacity) (jobs.countP inactive) := by
  rw [evictable_eq, oldest, List.length_map, List.length_take, List.countP_eq_length_filter]

theorem evict_of_crowded {capacity : Nat} (h : jobs.countP inactive < excess jobs capacity) :
    evict jobs capacity = .error (.full capacity (jobs.countP fun job => job.state.isActive)) := by
  have hfew : (evictable jobs capacity).length < excess jobs capacity := by
    rw [length_evictable]
    omega
  rw [List.countP_eq_length_filter]
  exact if_pos hfew

theorem evict_of_room {capacity : Nat} (hids : (jobs.map Job.id).Nodup)
    (h : excess jobs capacity ≤ jobs.countP inactive) :
    evict jobs capacity =
      .ok (withoutOldest (excess jobs capacity) jobs, (oldest (excess jobs capacity) jobs).map Job.id) := by
  have hfew : ¬ (evictable jobs capacity).length < excess jobs capacity := by
    rw [length_evictable]
    omega
  rw [← filter_oldest hids]
  exact if_neg hfew

/-! ### New jobs -/

/-- A new job stands behind those that were kept. The output of those that went is gone, and nothing else is. -/
structure Admits (before after : Store) (kept gone : List Job) (new : Job) : Prop where
  file : after.file = JobDocument.save (kept ++ [new])
  listed : new.id ≤ Width.greatest32 → after.jobs = .ok (kept ++ [new])
  output : ∀ name rest, name :: rest ≠ jobPath new.id → after.output.get? (name :: rest) =
    if name ∈ gone.map (fun job => toString job.id) ∧ before.output.isDirectory [name] then none
    else before.output.get? (name :: rest)

section

variable {store after : Store} {kept gone : List Job} {spec : JobSpec} {nodes : List String} {capacity : Nat}
  {now : Moment}

theorem admits_of_evict (hread : store.jobs = .ok jobs)
    (hev : evict jobs capacity = .ok (kept, gone.map Job.id))
    (hfile : after.file = JobDocument.save (kept ++ [.new (nextId kept (gone.map Job.id)) spec nodes now.1]))
    (houtput : ∀ p, p ≠ jobPath (nextId kept (gone.map Job.id)) →
      after.output.get? p = (withoutOutputs store.output (gone.map Job.id)).get? p) :
    Admits store after kept gone (.new (nextId kept (gone.map Job.id)) spec nodes now.1) := by
  refine ⟨hfile, fun hid => ?_, fun name rest hne => ?_⟩
  · have hfits : Operation.Fits (.create spec nodes capacity) := trivial
    have hstorable := storable_relist (JobDocument.storable_of_load hread) now.2 hfits
      fun _ _ _ _ _ hcreate hagain => by
        cases hcreate
        rw [hev] at hagain
        cases hagain
        exact hid
    have hlist : relist now.1 jobs (.create spec nodes capacity) =
        kept ++ [.new (nextId kept (gone.map Job.id)) spec nodes now.1] := enlist_eq hev spec nodes now.1
    rw [hlist] at hstorable
    rw [Store.jobs, hfile]
    exact JobDocument.load_save hstorable
  · rw [houtput _ hne, withoutOutputs, Files.get?_removeAll_eq, List.map_map]
    simp only [Files.isStuck_nil, Bool.false_eq_true, not_false_eq_true, and_true]
    rfl

/-- Where there is room a job is made, whose directory is there unless a file is in its way. -/
theorem admits_of_room (hread : store.jobs = .ok jobs) (hids : (jobs.map Job.id).Nodup)
    (hroom : excess jobs capacity ≤ jobs.countP inactive) (spec : JobSpec) (nodes : List String) (now : Moment) :
    ∃ after answer id, store.createJob spec nodes capacity now.1 = (after, answer) ∧ (∀ job ∈ jobs, job.id < id) ∧
      Admits store after (withoutOldest (excess jobs capacity) jobs) (oldest (excess jobs capacity) jobs)
        (.new id spec nodes now.1) ∧
      (¬ Blocked {} store.output id →
        answer = .ok (.new id spec nodes now.1) ∧ after.output.isDirectory (jobPath id)) := by
  have hev := evict_of_room hids hroom
  have hwrites : ({} : Refusals).writing = false := rfl
  have hmade := createJob_of_evict hread hwrites hev spec nodes now.1
  cases hmake : makeOutput {} (withoutOutputs store.output ((oldest (excess jobs capacity) jobs).map Job.id))
      (nextId (withoutOldest (excess jobs capacity) jobs) ((oldest (excess jobs capacity) jobs).map Job.id)) with
  | none =>
    rw [hmake] at hmade
    have hblocked := (blocked_withoutOutputs hev).1 (makeOutput_eq_none_iff.1 hmake)
    refine ⟨_, _, _, hmade, fun job hjob => lt_nextId hev hjob, ?_, fun hno => absurd hblocked hno⟩
    exact admits_of_evict hread hev rfl fun _ _ => rfl
  | some output =>
    rw [hmake] at hmade
    obtain ⟨hdir, hsame⟩ := Files.get?_of_makeDirectory hmake
    refine ⟨_, _, _, hmade, fun job hjob => lt_nextId hev hjob, ?_, fun _ => ⟨rfl, Files.isDirectory_iff.2 (.inr hdir)⟩⟩
    exact admits_of_evict hread hev rfl hsame

end

/-- A job is asked for, of a store with a list. If there are fewer inactive jobs than have to go, the request fails,
and the list and the output are as they were. Else the first inactive jobs go, as many as have to, and the new job
comes to the end of the list, which is not too long then. Active jobs stay. -/
theorem room_of_listed {store : Store} {jobs : List Job} (hread : store.jobs = .ok jobs)
    (hids : (jobs.map Job.id).Nodup) (spec : JobSpec) (nodes : List String) (capacity : Nat) (now : Moment) :
    (jobs.countP inactive < excess jobs capacity →
      ∃ after, store.createJob spec nodes capacity now.1 =
          (after, .error (.full capacity (jobs.countP fun job => job.state.isActive))) ∧
        after.jobs = .ok jobs ∧ after.output = store.output) ∧
    (excess jobs capacity ≤ jobs.countP inactive →
      (∃ after answer id, store.createJob spec nodes capacity now.1 = (after, answer) ∧
        (∀ job ∈ jobs, job.id < id) ∧
        Admits store after (withoutOldest (excess jobs capacity) jobs) (oldest (excess jobs capacity) jobs)
          (.new id spec nodes now.1) ∧
        (¬ Blocked {} store.output id →
          answer = .ok (.new id spec nodes now.1) ∧ after.output.isDirectory (jobPath id))) ∧
      (withoutOldest (excess jobs capacity) jobs).length + 1 ≤ capacity ∧
      (oldest (excess jobs capacity) jobs).length = excess jobs capacity ∧
      ∀ job ∈ jobs, job.state.isActive → job ∈ withoutOldest (excess jobs capacity) jobs) := by
  refine ⟨fun hcrowded => ?_, fun hroom => ⟨admits_of_room hread hids hroom spec nodes now, ?_, ?_, ?_⟩⟩
  · have hwrites : ({} : Refusals).writing = false := rfl
    have hfull := createJob_of_full hread hwrites (evict_of_crowded hcrowded) spec nodes now.1
    exact ⟨_, hfull, jobs_of_rewritten hread rfl, rfl⟩
  · have hlength := length_withoutOldest hroom
    have hinactive : jobs.countP inactive ≤ jobs.length := List.countP_le_length
    unfold excess at hlength hroom ⊢
    omega
  · rw [oldest, List.length_take, ← List.countP_eq_length_filter]
    exact Nat.min_eq_left hroom
  · intro job hjob hactive
    exact mem_withoutOldest hjob hactive _

/-- A job of node `A` in some state. -/
def aged (id : Int) (state : JobState) : Job := { Job.new id { command := "a" } ["A"] Dispatch.epoch.1 with state }

/-- Four jobs, of which the second runs; there is output of the first two. -/
def aging : Store :=
  { file := JobDocument.save [aged 1 .finished, aged 2 .running, aged 3 .canceled, aged 5 .created]
    output := SortedMap.ofList [(["1"], .directory), (["1", "A.out"], .file "old"), (["2"], .directory)] }

/-- With room for two jobs only the one that runs stays, and with room for one there is none for another. -/
theorem room_of_lowered :
    (∃ after, aging.createJob { command := "b" } ["B"] 2 Dispatch.epoch.1 =
        (after, .ok (.new 6 { command := "b" } ["B"] Dispatch.epoch.1)) ∧
      after.jobs = .ok [aged 2 .running, .new 6 { command := "b" } ["B"] Dispatch.epoch.1] ∧
      after.output.get? ["1", "A.out"] = none ∧ after.output.get? ["2"] = some .directory) ∧
    ∃ after, aging.createJob { command := "b" } ["B"] 1 Dispatch.epoch.1 = (after, .error (.full 1 1)) ∧
      after.output = aging.output := by
  have hread : aging.jobs = .ok [aged 1 .finished, aged 2 .running, aged 3 .canceled, aged 5 .created] := by
    decide +kernel
  have hids : ([aged 1 .finished, aged 2 .running, aged 3 .canceled, aged 5 .created].map Job.id).Nodup := by decide
  refine ⟨?_, ?_⟩
  · obtain ⟨⟨after, answer, id, hmade, -, hadmits, hanswer⟩, -⟩ :=
      (room_of_listed hread hids { command := "b" } ["B"] 2 Dispatch.epoch).2 (by decide)
    have hclear : ¬ Blocked {} aging.output id := by
      rintro (⟨text, hfile⟩ | ⟨hmaking, -⟩)
      · have hmem : (jobPath id, FileEntry.file text) ∈
            [(["1"], FileEntry.directory), (["1", "A.out"], .file "old"), (["2"], .directory)] :=
          (SortedMap.get?_eq_some_iff aging.output _ _).1 hfile
        simp [jobPath] at hmem
      · cases hmaking
    obtain ⟨rfl, -⟩ := hanswer hclear
    have hsix : (aging.createJob { command := "b" } ["B"] 2 Dispatch.epoch.1).2 =
        .ok (.new 6 { command := "b" } ["B"] Dispatch.epoch.1) := by decide +kernel
    rw [hmade, Except.ok.injEq] at hsix
    have hid : id = 6 := congrArg Job.id hsix
    subst hid
    refine ⟨after, hmade, hadmits.listed (by decide), ?_, ?_⟩
    · rw [hadmits.output "1" ["A.out"] (by decide)]
      decide
    · rw [hadmits.output "2" [] (by decide)]
      decide
  · obtain ⟨after, hfull, -, hsame⟩ :=
      (room_of_listed hread hids { command := "b" } ["B"] 1 Dispatch.epoch).1 (by decide)
    exact ⟨after, hfull, hsame⟩

end Muster.Store
