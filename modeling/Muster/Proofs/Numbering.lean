import Muster.Proofs.Record
import Muster.Proofs.Requests

/-!
# Ids of new jobs

No number is stored beside the list: the next id is above all that are listed and all that just went. The newest
job that was created is never driven out but by a newer one, so the newest id never becomes less, and an id is
above all that were ever listed.
-/

namespace Muster.Store

/-! ### Ids that are given -/

/-- The id that a request gives, if it gives one. -/
def given? (store : Store) (e : Moment × Request) : Option Int :=
  match e.2 with
  | .create spec nodes capacity => (store.createJob spec nodes capacity e.1.1).2.toOption.map (·.id)
  | _ => none

theorem given?_create (store : Store) (now : Moment) (spec : JobSpec) (nodes : List String) (capacity : Nat) :
    store.given? (now, .create spec nodes capacity) =
      (store.createJob spec nodes capacity now.1).2.toOption.map (·.id) := rfl

/-- The ids that requests give, in their order. -/
def given (store : Store) : Requests → List Int
  | [] => []
  | e :: rest => (store.given? e).toList ++ given (store.serveAt e) rest

@[simp] theorem given_nil (store : Store) : store.given [] = [] := rfl

theorem given_concat (store : Store) (requests : Requests) (e : Moment × Request) :
    store.given (requests ++ [e]) = store.given requests ++ ((store.serveAll requests).given? e).toList := by
  induction requests generalizing store with
  | nil => simp [given]
  | cons first rest ih =>
    rw [List.cons_append, given, given, ih, List.append_assoc]
    rfl

/-- The codes that a request notes fit 32 bits. -/
def Request.Fits : Request → Prop
  | .finish _ failed => ∀ e ∈ failed.toList, Fits32 e.2
  | _ => True

/-- The storage does its part, and the numbers fit 32 bits. -/
structure Served (store : Store) (e : Moment × Request) : Prop where
  stored : (store.serve e.2 e.1.1).2 ≠ some .storage
  ids : ∀ id ∈ store.given? e, id ≤ Width.greatest32
  codes : e.2.Fits

/-- Every request is served in its turn. -/
def Smooth (store : Store) (requests : Requests) : Prop :=
  ∀ s e, s ++ [e] <+: requests → Served (store.serveAll s) e

section

variable {store opened : Store} {requests : Requests} {e : Moment × Request} {jobs kept : List Job}
  {evicted : List Int} {capacity : Nat}

theorem Smooth.nil (store : Store) : Smooth store [] := by
  intro s e h
  simp at h

theorem Smooth.cons (he : Served store e) (h : Smooth (store.serveAt e) requests) : Smooth store (e :: requests) := by
  intro s f hs
  cases s with
  | nil =>
    rw [List.nil_append, List.cons_prefix_cons] at hs
    rwa [hs.1]
  | cons first rest =>
    rw [List.cons_append, List.cons_prefix_cons] at hs
    obtain ⟨rfl, hs⟩ := hs
    exact h rest f hs

theorem Smooth.of_concat (h : Smooth store (requests ++ [e])) :
    Smooth store requests ∧ Served (store.serveAll requests) e :=
  ⟨fun s f hs => h s f (hs.trans (List.prefix_append _ _)), h requests e List.prefix_rfl⟩

/-! ### One request -/

/-- Where there is room and the storage does its part, the next id is given. -/
theorem given?_of_evict {now : Moment} {spec : JobSpec} {nodes : List String} (hread : store.jobs = .ok jobs)
    (hev : evict jobs capacity = .ok (kept, evicted))
    (hstored : (store.serve (.create spec nodes capacity) now.1).2 ≠ some .storage) :
    store.given? (now, .create spec nodes capacity) = some (nextId kept evicted) := by
  have hmade := createJob_of_evict hread (show ({} : Refusals).writing = false from rfl) hev spec nodes now.1
  simp only [serve, ended, hmade] at hstored
  rw [given?_create, hmade]
  cases hmake : makeOutput {} (withoutOutputs store.output evicted) (nextId kept evicted) with
  | some output => rfl
  | none =>
    rw [hmake] at hstored
    exact absurd rfl hstored

/-- Only a new job gives an id, and that is the next one. -/
theorem exists_of_given? {id : Int} (hread : store.jobs = .ok jobs) (h : store.given? e = some id) :
    ∃ spec nodes capacity kept evicted, e.2 = .create spec nodes capacity ∧
      evict jobs capacity = .ok (kept, evicted) ∧ id = nextId kept evicted := by
  obtain ⟨now, request⟩ := e
  cases request with
  | create spec nodes capacity =>
    obtain ⟨job, hok, rfl⟩ := Option.map_eq_some_iff.1 h
    cases hanswer : (store.createJob spec nodes capacity now.1).2 with
    | error fault =>
      simp only [hanswer] at hok
      cases hok
    | ok made =>
      simp only [hanswer] at hok
      cases hok
      obtain ⟨kept, evicted, hev, rfl⟩ := createJob_ok hread hanswer
      exact ⟨spec, nodes, capacity, kept, evicted, rfl, hev, rfl⟩
  | reopen | change | finish | plan | settle | get => cases h

/-- A request gives the next id to a new job, or the ids that are listed stay. -/
theorem listAfter_cases (hread : store.jobs = .ok jobs) (h : Served store e) :
    (store.given? e = none ∧ (store.listAfter e jobs).map Job.id = jobs.map Job.id) ∨
      ∃ spec nodes capacity kept evicted, evict jobs capacity = .ok (kept, evicted) ∧
        store.given? e = some (nextId kept evicted) ∧
        store.listAfter e jobs = kept ++ [.new (nextId kept evicted) spec nodes e.1.1] := by
  cases hgiven : store.given? e with
  | some id =>
    obtain ⟨spec, nodes, capacity, kept, evicted, hrequest, hev, rfl⟩ := exists_of_given? hread hgiven
    refine .inr ⟨spec, nodes, capacity, kept, evicted, hev, rfl, ?_⟩
    rw [listAfter, hrequest]
    exact enlist_eq hev spec nodes e.1.1
  | none =>
    refine .inl ⟨rfl, ?_⟩
    obtain ⟨now, request⟩ := e
    cases request with
    | create spec nodes capacity =>
      cases hev : evict jobs capacity with
      | error fault => simp only [listAfter, Request.operation, relist, enlist, hev]
      | ok r =>
        rw [given?_of_evict hread hev h.stored] at hgiven
        cases hgiven
    | reopen | change | finish | plan | settle | get => exact map_id_relist rfl

theorem operation_fits {request : Request} (output : Files) (h : request.Fits) : (request.operation output).Fits := by
  cases request with
  | finish id failed => exact h
  | reopen | create | change | plan | settle | get => trivial

/-- A list that was read can be read again after a request. -/
theorem storable_listAfter (hread : store.jobs = .ok jobs) (h : Served store e) :
    ∀ job ∈ store.listAfter e jobs, job.Storable := by
  refine storable_relist (JobDocument.storable_of_load hread) e.1.2 (operation_fits store.output h.codes) ?_
  intro spec nodes capacity kept evicted hcreate hev
  obtain ⟨now, request⟩ := e
  cases request with
  | create _ _ _ =>
    cases hcreate
    exact h.ids _ (given?_of_evict hread hev h.stored)
  | reopen | change | finish | plan | settle | get => cases hcreate

theorem jobs_serveAt (hread : store.jobs = .ok jobs) (h : Served store e) :
    (store.serveAt e).jobs = .ok (store.listAfter e jobs) := by
  rw [serveAt_eq_apply]
  rcases apply_file hread e.1.1 (e.2.operation store.output) with ⟨hfile, hlist⟩ | hfile
  · rw [listAfter, hlist, ← hread]
    exact congrArg JobDocument.load hfile
  · rw [Store.jobs, hfile]
    exact JobDocument.load_save (storable_listAfter hread h)

theorem below_nextId (hev : evict jobs capacity = .ok (kept, evicted)) {job : Job} (hjob : job ∈ kept) :
    job ∈ jobs ∧ job.id < nextId kept evicted := by
  rw [(evict_eq_ok hev).2] at hjob
  have hmem := (List.mem_filter.1 hjob).1
  exact ⟨hmem, lt_nextId hev hmem⟩

/-! ### Whole runs -/

/-- The list after some requests: none that was listed before has a newer job, and the newest job is the last that
was given an id, if one was. -/
structure Numbered (opened : Store) (requests : Requests) (jobs : List Job) : Prop where
  read : (opened.serveAll requests).jobs = .ok jobs
  newest : ∀ s listed, s <+: requests → (opened.serveAll s).jobs = .ok listed → newestId listed ≤ newestId jobs
  last : ∀ id, (opened.given requests).getLast? = some id → newestId jobs = id ∧ id ∈ jobs.map Job.id

theorem Numbered.nil (hread : opened.jobs = .ok jobs) : Numbered opened [] jobs := by
  refine ⟨hread, ?_, by simp⟩
  intro s listed hs hlisted
  rw [List.prefix_nil.1 hs, serveAll_nil, hread, Except.ok.injEq] at hlisted
  exact Int.le_of_eq (congrArg newestId hlisted.symm)

theorem Numbered.step (h : Numbered opened requests jobs) (he : Served (opened.serveAll requests) e) :
    Numbered opened (requests ++ [e]) ((opened.serveAll requests).listAfter e jobs) := by
  have hread := jobs_serveAt h.read he
  rw [← serveAll_concat] at hread
  refine ⟨hread, ?_, ?_⟩
  · intro s listed hs hlisted
    rcases List.prefix_concat_iff.1 hs with rfl | hs
    · rw [hread, Except.ok.injEq] at hlisted
      exact Int.le_of_eq (congrArg newestId hlisted.symm)
    · exact Int.le_trans (h.newest s listed hs hlisted) (newestId_relist jobs e.1.1 _)
  · intro id hid
    rw [given_concat] at hid
    rcases listAfter_cases h.read he with ⟨hnone, hids⟩ | ⟨spec, nodes, capacity, kept, evicted, hev, hgiven, hlist⟩
    · rw [hnone, Option.toList_none, List.append_nil] at hid
      rw [newestId, hids]
      exact h.last id hid
    · rw [hgiven, Option.toList_some, List.getLast?_concat, Option.some.injEq] at hid
      subst hid
      rw [hlist]
      exact ⟨newestId_concat fun job hjob => Int.le_of_lt (below_nextId hev hjob).2, by simp [Job.new]⟩

theorem numbered_of_smooth (hread : opened.jobs = .ok jobs) (h : Smooth opened requests) :
    ∃ listed, Numbered opened requests listed := by
  -- On the requests from the end: `newest` speaks of all lists before the last request.
  induction requests using List.reverseRecOn with
  | nil => exact ⟨jobs, .nil hread⟩
  | append_singleton requests e ih =>
    obtain ⟨hrequests, he⟩ := h.of_concat
    obtain ⟨listed, hlisted⟩ := ih hrequests
    exact ⟨_, hlisted.step he⟩

/-- The list of a store that had none when it was opened, with the ids that were given since. -/
structure Counted (ids : List Int) (jobs : List Job) : Prop where
  kept : Kept ids.length jobs
  newest : newestId jobs = ids.length
  sorted : (jobs.map Job.id).Pairwise (· < ·)
  counted : ∀ (k : Nat) id, ids[k]? = some id → id = k + 1

theorem Counted.nil : Counted [] [] := ⟨⟨by simp, by simp⟩, rfl, by simp, by simp⟩

theorem Counted.of_ids {ids : List Int} {after : List Job} (h : Counted ids jobs)
    (hstorable : ∀ job ∈ after, job.Storable) (hids : after.map Job.id = jobs.map Job.id) : Counted ids after := by
  refine ⟨⟨hstorable, ?_⟩, ?_, ?_, h.counted⟩
  · intro job hjob
    have hmem : job.id ∈ jobs.map Job.id := by
      rw [← hids]
      exact List.mem_map.2 ⟨job, hjob, rfl⟩
    obtain ⟨before, hbefore, hid⟩ := List.mem_map.1 hmem
    rw [← hid]
    exact h.kept.ids before hbefore
  · rw [newestId, hids]
    exact h.newest
  · rw [hids]
    exact h.sorted

theorem Counted.nextId_eq {ids : List Int} (h : Counted ids jobs) (hev : evict jobs capacity = .ok (kept, evicted)) :
    nextId kept evicted = ids.length + 1 := by
  have hle := nextId_le h.kept hev
  have hlt := newestId_lt_nextId hev
  rw [h.newest] at hlt
  omega

theorem Counted.concat {ids : List Int} {new : Job} (h : Counted ids jobs)
    (hev : evict jobs capacity = .ok (kept, evicted)) (hnew : new.id = nextId kept evicted)
    (hstorable : ∀ job ∈ kept ++ [new], job.Storable) :
    Counted (ids ++ [nextId kept evicted]) (kept ++ [new]) := by
  -- The number of ids that were given is the newest id, so the next one counts on.
  have hnext := h.nextId_eq hev
  have hlt : ∀ job ∈ kept, job.id < new.id := fun job hjob => hnew ▸ (below_nextId hev hjob).2
  refine ⟨⟨hstorable, ?_⟩, ?_, ?_, ?_⟩
  · intro job hjob
    rw [List.length_append, List.length_singleton]
    rcases List.mem_append.1 hjob with hjob | hjob
    · have := h.kept.ids job (below_nextId hev hjob).1
      omega
    · rw [List.mem_singleton.1 hjob]
      omega
  · rw [newestId_concat fun job hjob => Int.le_of_lt (hlt job hjob), hnew, hnext]
    simp
  · rw [List.map_append, List.pairwise_append]
    refine ⟨?_, by simp, ?_⟩
    · rw [(evict_eq_ok hev).2]
      exact h.sorted.sublist (List.filter_sublist.map _)
    · intro id hid other hother
      obtain ⟨job, hjob, rfl⟩ := List.mem_map.1 hid
      rw [List.map_singleton, List.mem_singleton] at hother
      rw [hother]
      exact hlt job hjob
  · intro k id hid
    rw [List.getElem?_append] at hid
    split at hid
    · exact h.counted k id hid
    · rw [List.getElem?_singleton] at hid
      split at hid
      · cases hid
        omega
      · cases hid

theorem Counted.step {ids : List Int} (hread : store.jobs = .ok jobs) (h : Counted ids jobs) (he : Served store e) :
    Counted (ids ++ (store.given? e).toList) (store.listAfter e jobs) := by
  have hstorable := storable_listAfter hread he
  rcases listAfter_cases hread he with ⟨hnone, hids⟩ | ⟨spec, nodes, capacity, kept, evicted, hev, hgiven, hlist⟩
  · rw [hnone, Option.toList_none, List.append_nil]
    exact h.of_ids hstorable hids
  · rw [hlist] at hstorable ⊢
    rw [hgiven, Option.toList_some]
    exact h.concat hev rfl hstorable

theorem counted_of_smooth (hread : opened.jobs = .ok []) (h : Smooth opened requests) :
    ∃ listed, (opened.serveAll requests).jobs = .ok listed ∧ Counted (opened.given requests) listed := by
  induction requests using List.reverseRecOn with
  | nil => exact ⟨[], hread, .nil⟩
  | append_singleton requests e ih =>
    obtain ⟨hrequests, he⟩ := h.of_concat
    obtain ⟨listed, hlisted, hcounted⟩ := ih hrequests
    rw [serveAll_concat, given_concat]
    exact ⟨_, jobs_serveAt hlisted he, hcounted.step hlisted he⟩

end

/-- A store is opened, and then requests are served. The list can be read all the time, and the last job that was
given an id is in it. Another id is above all that were ever listed. Without a list to begin with, the list is in
the order of the ids, and these count the jobs. -/
theorem ids_of_opened {store opened : Store} (hopen : store.recover = (opened, .ok ())) {requests : Requests}
    (h : Smooth opened requests) :
    ∃ jobs, (opened.serveAll requests).jobs = .ok jobs ∧
      (∀ id, (opened.given requests).getLast? = some id → id ∈ jobs.map Job.id) ∧
      (∀ e id, (opened.serveAll requests).given? e = some id →
        (∀ listed, store.jobs = .ok listed → ∀ job ∈ listed, job.id < id) ∧
        ∀ s listed, s <+: requests → (opened.serveAll s).jobs = .ok listed → ∀ job ∈ listed, job.id < id) ∧
      (store.file.isAbsent → (jobs.map Job.id).Pairwise (· < ·) ∧
        ∀ (k : Nat) id, (opened.given requests)[k]? = some id → id = k + 1) := by
  have hopened : ∃ first, opened.jobs = .ok first := by
    rcases recover_cases hopen with ⟨-, hempty, -⟩ | ⟨listed, -, hmarked, -⟩
    · exact ⟨[], hempty⟩
    · exact ⟨_, hmarked⟩
  obtain ⟨first, hfirst⟩ := hopened
  obtain ⟨jobs, hnumbered⟩ := numbered_of_smooth hfirst h
  refine ⟨jobs, hnumbered.read, fun id hid => (hnumbered.last id hid).2, ?_, ?_⟩
  · intro e id hid
    obtain ⟨_, _, _, kept, evicted, _, hev, rfl⟩ := exists_of_given? hnumbered.read hid
    have habove : ∀ s listed, s <+: requests → (opened.serveAll s).jobs = .ok listed →
        ∀ job ∈ listed, job.id < nextId kept evicted := by
      intro s listed hs hlisted job hjob
      calc job.id ≤ newestId listed := le_newestId hjob
        _ ≤ newestId jobs := hnumbered.newest s listed hs hlisted
        _ < nextId kept evicted := newestId_lt_nextId hev
    refine ⟨?_, habove⟩
    intro listed hlisted job hjob
    rcases recover_cases hopen with ⟨habsent, -, -⟩ | ⟨found, hfound, hmarked, -⟩
    · simp [isAbsent_of_jobs hlisted] at habsent
    · rw [hlisted, Except.ok.injEq] at hfound
      subst hfound
      rw [← interrupted_id job]
      exact habove [] _ (List.nil_prefix) hmarked _ (List.mem_map.2 ⟨job, hjob, rfl⟩)
  · intro habsent
    rcases recover_cases hopen with ⟨-, hempty, -⟩ | ⟨found, hfound, -, -⟩
    · obtain ⟨listed, hlisted, hcounted⟩ := counted_of_smooth hempty h
      rw [hnumbered.read, Except.ok.injEq] at hlisted
      subst hlisted
      exact ⟨hcounted.sorted, hcounted.counted⟩
    · simp [isAbsent_of_jobs hfound] at habsent

/-- Two jobs where there is room for one, and the store is opened again. -/
def succession : Requests :=
  [.create { command := "a" } ["A"] 1, .create { command := "b" } ["B"] 1, .reopen].map
    fun request => (Dispatch.epoch, request)

/-- The first job is driven out, and its id is not given again. -/
theorem ids_of_succession :
    ∃ jobs, (fresh.serveAll succession).jobs = .ok jobs ∧ fresh.given succession = [1, 2] ∧ 2 ∈ jobs.map Job.id ∧
      (jobs.map Job.id).Pairwise (· < ·) ∧
      ∀ e id, (fresh.serveAll succession).given? e = some id → ∀ job ∈ jobs, job.id < id := by
  have hopen : recover { file := .absent, output := ∅ } = (fresh, .ok ()) := rfl
  have hgiven : fresh.given succession = [1, 2] := by decide +kernel
  have hsmooth : Smooth fresh succession := by
    refine .cons ⟨?_, ?_, trivial⟩ (.cons ⟨?_, ?_, trivial⟩ (.cons ⟨?_, ?_, trivial⟩ (.nil _)))
    all_goals decide +kernel
  obtain ⟨jobs, hjobs, hlast, habove, habsent⟩ := ids_of_opened hopen hsmooth
  refine ⟨jobs, hjobs, hgiven, hlast 2 (by rw [hgiven]; rfl), (habsent rfl).1, ?_⟩
  intro e id hid
  exact (habove e id hid).2 succession jobs List.prefix_rfl hjobs

end Muster.Store
