import Muster.Proofs.Opening
import Muster.Proofs.Serving

/-!
# Running a job again

A job that is run again asks for the nodes it went to, one by one. A head node finds each of them under its
display name, whatever other nodes have come since, so the nodes are the same in the same order and each of
them is asked to run the same.
-/

namespace Muster

namespace Dispatch

open Address (IsShown)
open CommandLine.Program (again)

variable {engine : Pattern.Engine} {ready nodes : List String} {groups : Groups} {spec : JobSpec} {intersect : Bool}

/-! ### Nodes of a request -/

theorem matching_eq_ok (h : resolveMatching engine ready groups spec intersect = .ok nodes) : nodes.Sublist ready := by
  unfold resolveMatching at h
  cases hpattern : engine.compile spec.pattern with
  | error fault =>
    rw [hpattern] at h
    cases h
  | ok pattern =>
    rw [hpattern] at h
    cases h
    exact List.filter_sublist

theorem named_eq_ok {requested : List String} (h : resolveNamed ready requested = .ok nodes) :
    nodes.Nodup ∧ ∀ node ∈ nodes, node ∈ ready := by
  unfold resolveNamed at h
  simp only at h
  split at h
  · cases h
    refine ⟨nodup_eraseDups _, fun node hnode => ?_⟩
    obtain ⟨_, -, hfound⟩ := List.mem_filterMap.1 (List.mem_eraseDups.1 hnode)
    exact (mem_of_lookUp hfound).1
  · cases h

/-- The nodes of a request are ready, and none of them comes twice. -/
theorem nodes_of_resolve (hready : ready.Nodup) (h : resolve engine ready groups spec intersect = .ok nodes) :
    nodes.Nodup ∧ ∀ node ∈ nodes, node ∈ ready := by
  have hbind {x : Except Fault (List String)}
      (hx : (x >>= fun nodes => if nodes.isEmpty then .error .noNodes else .ok nodes) = .ok nodes) :
      x = .ok nodes := by
    cases x with
    | error fault => cases hx
    | ok found =>
      simp only [bind, Except.bind] at hx
      split at hx
      · cases hx
      · exact hx
  unfold resolve at h
  split at h
  · have hsub := matching_eq_ok (hbind h)
    exact ⟨hready.sublist hsub, fun node hnode => hsub.subset hnode⟩
  · exact named_eq_ok (hbind h)

/-- A job that is run again goes to the nodes it went to, or to none if one of them is not ready. -/
theorem resolve_again (hready : ∀ node ∈ ready, IsShown node) {job : Job} (hnodes : ∀ node ∈ job.nodes, IsShown node)
    (hnodup : job.nodes.Nodup) (hne : job.nodes ≠ []) :
    resolve engine ready groups (again job) intersect =
      if ∀ node ∈ job.nodes, node ∈ ready then .ok job.nodes
      else .error (.unknownNodes (job.nodes.filter fun node => node ∉ ready)) := by
  have hnamed : (again job).nodes.isEmpty = false := by simpa [again] using hne
  have hrequested : (again job).nodes = job.nodes := rfl
  unfold resolve
  rw [hnamed, hrequested, resolveNamed_shown hready hnodes hnodup]
  simp only [Bool.false_eq_true, if_false]
  split
  · simp [bind, Except.bind, hne]
  · rfl

/-- What was accepted once is accepted again, as long as the nodes are ready. -/
theorem check_again {before : List String} {groupsBefore : Groups} {intersectBefore : Bool} {job : Job}
    (hcheck : check engine before groupsBefore job.spec intersectBefore = .ok job.nodes) (hbefore : before.Nodup)
    (hshown : ∀ node ∈ before, IsShown node) (hready : ∀ node ∈ ready, IsShown node) :
    check engine ready groups (again job) intersect = .ok nodes ↔ nodes = job.nodes ∧ ∀ node ∈ job.nodes, node ∈ ready := by
  obtain ⟨hcommand, hresolve, hsweep⟩ := check_eq_ok_iff.1 hcheck
  obtain ⟨hnodup, hmem⟩ := nodes_of_resolve hbefore hresolve
  have hnodes : ∀ node ∈ job.nodes, IsShown node := fun node hnode => hshown node (hmem node hnode)
  rw [check_eq_ok_iff, resolve_again hready hnodes hnodup (ne_nil_of_check hcheck)]
  constructor
  · rintro ⟨-, hnodes, -⟩
    split at hnodes
    · rename_i hall
      cases hnodes
      exact ⟨rfl, hall⟩
    · cases hnodes
  · rintro ⟨rfl, hall⟩
    exact ⟨hcommand, if_pos hall, hsweep⟩

/-- What the nodes of a job run is determined by its request and its nodes. -/
theorem orders_congr {job other : Job} (hcommand : job.spec.command = other.spec.command)
    (harguments : job.spec.arguments = other.spec.arguments) (hsweep : job.spec.sweep = other.spec.sweep)
    (hnodes : job.nodes = other.nodes) : orders job = orders other := by
  have hspec (count : Nat) : sweepOf job.spec count = sweepOf other.spec count := by
    simp only [sweepOf, hsweep]
  simp only [orders, orderOf, hspec, hcommand, harguments, hnodes]

end Dispatch

namespace Headnode

open CommandLine.Program (again nodeConfig)

/-! ### The record of a job -/

/-- A record with the same id, request and nodes. -/
structure Repeats (job later : Job) : Prop where
  id : later.id = job.id
  spec : later.spec = job.spec
  nodes : later.nodes = job.nodes

theorem repeats_interrupted (job : Job) : Repeats job (Store.interrupted job) := by
  unfold Store.interrupted
  split <;> exact ⟨rfl, rfl, rfl⟩

/-- An event lists no new record but under a new id. -/
theorem repeats_of_relist {d : Dispatch} {now : Time} {e : Dispatch.Event} {jobs : List Job} {job : Job}
    (h : job ∈ d.relist now jobs e) : (∃ before ∈ jobs, Repeats before job) ∨ Store.newestId jobs < job.id := by
  cases Dispatch.descends_of_mem_relist h with
  | kept hmem => exact .inl ⟨job, hmem, rfl, rfl, rfl⟩
  | created spec nodes hless => exact .inr hless
  | stepped hmem hrun hstate => exact .inl ⟨_, hmem, rfl, rfl, rfl⟩
  | marked hmem he hmarks => exact .inl ⟨_, hmem, rfl, rfl, rfl⟩
  | @ended before hmem failed =>
    refine .inl ⟨before, hmem, ?_⟩
    unfold Store.finished
    simp only
    split <;> exact ⟨rfl, rfl, rfl⟩
  | @settled before hmem failed =>
    refine .inl ⟨before, hmem, ?_⟩
    unfold Store.cancelEnded
    repeat' split
    all_goals exact ⟨rfl, rfl, rfl⟩

/-- Whatever is listed under the id of a job repeats it, and no new job gets the id. -/
structure Records (first : Job) (jobs : List Job) : Prop where
  newest : first.id ≤ Store.newestId jobs
  same : ∀ job ∈ jobs, job.id = first.id → Repeats first job

theorem Records.next {first : Job} {jobs after : List Job} (h : Records first jobs)
    (hnewest : Store.newestId jobs ≤ Store.newestId after)
    (hafter : ∀ job ∈ after, (∃ before ∈ jobs, Repeats before job) ∨ Store.newestId jobs < job.id) :
    Records first after := by
  refine ⟨Int.le_trans h.newest hnewest, fun job hjob hid => ?_⟩
  rcases hafter job hjob with ⟨before, hbefore, hrepeats⟩ | hless
  · have hfirst := h.same before hbefore (hrepeats.id.symm.trans hid)
    exact ⟨hid, hrepeats.spec.trans hfirst.spec, hrepeats.nodes.trans hfirst.nodes⟩
  · have := h.newest
    omega

/-- A head node has a list, and if it can be read the list has the record of a job. -/
structure Holds (first : Job) (store : Store) : Prop where
  file : store.file.isAbsent = false
  records : ∀ jobs, store.jobs = .ok jobs → Records first jobs

theorem isAbsent_stepAt {d : Dispatch} (h : d.store.file.isAbsent = false) (e : Moment × Dispatch.Event) :
    (d.stepAt e).store.file.isAbsent = false := by
  cases hread : d.store.jobs with
  | ok jobs =>
    rcases Dispatch.step_file hread e.1.1 e.2 with ⟨hfile, -⟩ | hfile
    · exact (congrArg Json.Stored.isAbsent hfile).trans h
    · exact congrArg Json.Stored.isAbsent hfile
  | error fault => exact (congrArg Json.Stored.isAbsent (Dispatch.step_file_of_error hread e.1.1 e.2)).trans h

theorem Holds.stepAt {first : Job} {d : Dispatch} (h : Holds first d.store) (e : Moment × Dispatch.Event) :
    Holds first (d.stepAt e).store := by
  refine ⟨isAbsent_stepAt h.file e, fun jobs hjobs => ?_⟩
  obtain ⟨before, hbefore, rfl⟩ := Dispatch.jobs_of_stepAt hjobs
  exact (h.records before hbefore).next (Dispatch.newestId_relist _ d before e.2) fun job hjob =>
    repeats_of_relist hjob

theorem Holds.recover {first : Job} {store opened : Store} {refusals : Store.Refusals} (h : Holds first store)
    (hopen : store.recover refusals = (opened, .ok ())) : Holds first opened := by
  rcases Store.recover_cases hopen with ⟨habsent, -, -⟩ | ⟨before, hbefore, hopened, -⟩
  · simp [h.file] at habsent
  · refine ⟨Store.isAbsent_of_jobs hopened, fun jobs hjobs => ?_⟩
    rw [hjobs, Except.ok.injEq] at hopened
    subst hopened
    have hnewest : Store.newestId (before.map Store.interrupted) = Store.newestId before := by
      simp [Store.newestId, Function.comp_def]
    refine (h.records before hbefore).next (Int.le_of_eq hnewest.symm) fun job hjob => ?_
    obtain ⟨old, hold, rfl⟩ := List.mem_map.1 hjob
    exact .inl ⟨old, hold, repeats_interrupted old⟩

theorem Holds.later {first : Job} {h h' : Headnode} (hholds : Holds first h.dispatch.store)
    (hlater : Relation.ReflTransGen Step h h') : Holds first h'.dispatch.store := by
  induction hlater with
  | refl => exact hholds
  | tail _ hstep ih =>
    cases hstep with
    | heard timeout e => exact ih
    | regrouped registry => exact ih
    | requested _ settings capacity keepsOutput now hcheck => exact ih.stepAt (now, _)
    | went now he => exact ih.stepAt (now, _)
    | @restarted _ _ _ _ output _ _ _ _ hconfig hstart =>
      obtain ⟨-, hdispatch, hopen, -⟩ := start_eq_ok hstart
      have hfile : Holds first ⟨_, output⟩ := ⟨ih.file, ih.records⟩
      rw [hdispatch]
      exact hfile.recover hopen

/-- What the nodes of a job under way are asked to run. -/
def ordersOf (d : Dispatch) (id : Int) : Option (List Dispatch.Order) :=
  (d.run? id).map fun run => run.tasks.map (·.order)

section

variable {h : Headnode} {engine : Pattern.Engine} {settings : Settings} {spec : JobSpec} {intersect : Bool}
  {nodes : List String} {capacity : Nat} {keepsOutput : Bool} {now : Moment} {d : Dispatch} {job : Job}
  (hserves : h.Serves)
  (hcheck : Dispatch.check engine (h.readyNodes settings) h.registry.groups spec intersect = .ok nodes)
  (hsubmit : h.dispatch.submit spec nodes capacity keepsOutput now.1 = (d, .ok job))

include hserves hcheck hsubmit

/-- An accepted request is a job with its nodes, listed and under way. -/
theorem accepted_of_submit :
    job.spec = spec ∧ job.nodes = nodes ∧ Holds job d.store ∧ ordersOf d job.id = some (Dispatch.orders job) := by
  have haccepted : d.Accepted job :=
    ⟨h.dispatch, engine, _, _, spec, intersect, nodes, capacity, keepsOutput, now, hserves.known.2, hcheck, hsubmit⟩
  have hfresh := Dispatch.fresh_of_accepted haccepted
  obtain ⟨jobs, kept, evicted, hread, -, hjob, -⟩ := Dispatch.submit_ok hsubmit
  have hstep : h.dispatch.stepAt (now, .submit spec nodes capacity keepsOutput) = d := congrArg Prod.fst hsubmit
  refine ⟨by rw [hjob, Job.new], by rw [hjob, Job.new], ⟨?_, ?_⟩, ?_⟩
  · rw [← hstep]
    exact isAbsent_stepAt (Store.isAbsent_of_jobs hread) _
  · intro listed hlisted
    obtain ⟨hnewest, hsingle⟩ := hfresh.listed listed hlisted
    refine ⟨hnewest, fun other hother hid => ?_⟩
    have hmem : other ∈ Store.withId job.id listed := Store.mem_withId.2 ⟨hother, hid⟩
    rw [hsingle, List.mem_singleton] at hmem
    rw [hmem]
    exact ⟨rfl, rfl, rfl⟩
  · obtain ⟨keeps, hrun, -⟩ := hfresh.way
    simp [ordersOf, hrun, Dispatch.tasksOf, Function.comp_def]

end

/-- A job is accepted, and at any time later it is selected to be run again. However the head node has come on
since, the request resolves to the nodes of the job in their order if they are all ready, and else to none. Once
it is accepted, each of the nodes is asked to run what it was asked to run the first time. -/
theorem rerun_repeats {h found later : Headnode} {engine : Pattern.Engine} {settings : Settings} {spec : JobSpec}
    {intersect : Bool} {nodes : List String} {capacity : Nat} {keepsOutput : Bool} {now : Moment} {d : Dispatch}
    {first entry : Job} {ids : JobIds} (hserves : h.Serves)
    (hcheck : Dispatch.check engine (h.readyNodes settings) h.registry.groups spec intersect = .ok nodes)
    (hsubmit : h.dispatch.submit spec nodes capacity keepsOutput now.1 = (d, .ok first))
    (hsince : Relation.ReflTransGen Step { h with dispatch := d } found)
    (hfound : found.jobs ids = .ok [entry]) (hid : entry.id = first.id)
    (hthen : Relation.ReflTransGen Step found later) :
    entry.nodes = first.nodes ∧ ordersOf d first.id = some (Dispatch.orders first) ∧
      ∀ current : Settings,
        ((∀ node ∈ entry.nodes, node ∈ later.readyNodes current) →
          Dispatch.check engine (later.readyNodes current) later.registry.groups (again entry) false =
            .ok entry.nodes) ∧
        ∀ nodes', Dispatch.check engine (later.readyNodes current) later.registry.groups (again entry) false = .ok nodes' →
          later.resolve engine current (again entry) false = .ok entry.nodes ∧ nodes' = entry.nodes ∧
            ∀ capacity' keepsOutput' (now' : Moment) d' job,
              later.dispatch.submit (again entry) nodes' capacity' keepsOutput' now'.1 = (d', .ok job) →
                ordersOf d' job.id = some (Dispatch.orders first) := by
  obtain ⟨hspec, hnodes, hholds, horders⟩ := accepted_of_submit hserves hcheck hsubmit
  -- The record that is selected repeats the job.
  obtain ⟨jobs, hjobs, hmem⟩ : ∃ jobs, found.dispatch.store.jobs = .ok jobs ∧ entry ∈ jobs := by
    unfold Headnode.jobs answer Store.getJobs at hfound
    cases hread : found.dispatch.store.jobs with
    | error fault =>
      rw [hread] at hfound
      cases hfound
    | ok jobs =>
      rw [hread] at hfound
      have hlist : jobs.filter (Store.selects ids (Store.newestId jobs)) = [entry] := Except.ok.inj hfound
      have hentry : entry ∈ jobs.filter (Store.selects ids (Store.newestId jobs)) := by simp [hlist]
      exact ⟨jobs, rfl, (List.mem_filter.1 hentry).1⟩
  have hrecord : Repeats first entry := ((hholds.later hsince).records jobs hjobs).same entry hmem hid
  -- The nodes are ready at the first request, so they are shown under their names.
  have hstep : Step h { h with dispatch := d } := by
    have hd : h.dispatch.stepAt (now, .submit spec nodes capacity keepsOutput) = d := congrArg Prod.fst hsubmit
    rw [← hd]
    exact .requested h engine settings capacity keepsOutput now hcheck
  have hlater : later.Serves := ((hserves.step hstep).later hsince).later hthen
  have hchecked : Dispatch.check engine (h.readyNodes settings) h.registry.groups entry.spec intersect = .ok entry.nodes := by
    rw [hrecord.spec, hspec, hrecord.nodes, hnodes]
    exact hcheck
  have hagain {current : Settings} {nodes' : List String} :
      Dispatch.check engine (later.readyNodes current) later.registry.groups (again entry) false = .ok nodes' ↔
        nodes' = entry.nodes ∧ ∀ node ∈ entry.nodes, node ∈ later.readyNodes current :=
    Dispatch.check_again hchecked (Liveness.nodup_readyNodes _ _) (hserves.known.1.ready _) (hlater.known.1.ready _)
  refine ⟨hrecord.nodes, horders, fun current => ⟨fun hready => hagain.2 ⟨rfl, hready⟩, fun nodes' hnodes' => ?_⟩⟩
  obtain ⟨rfl, hready⟩ := hagain.1 hnodes'
  refine ⟨(Dispatch.check_eq_ok_iff.1 hnodes').2.1, rfl, ?_⟩
  intro capacity' keepsOutput' now' d' job hsubmit'
  obtain ⟨hspec', hjob, -, horders'⟩ := accepted_of_submit hlater hnodes' hsubmit'
  have hsame : Dispatch.orders job = Dispatch.orders first := by
    refine Dispatch.orders_congr ?_ ?_ ?_ (hjob.trans hrecord.nodes)
    all_goals rw [hspec', again, hrecord.spec]
  rw [horders', hsame]

/-- Nodes may report any number of times. -/
theorem Serves.run {h : Headnode} (hserves : h.Serves) (timeout : Int) (events : List Liveness.Event) :
    Serves { h with liveness := h.liveness.run timeout events } := by
  induction events using List.reverseRecOn with
  | nil => exact hserves
  | append_singleton events e ih =>
    rw [Liveness.run_concat]
    exact ih.step (.heard _ timeout e)

/-- A head node that has no job and knows one node, which is ready. -/
def steady : Headnode where
  address := ⟨"HEAD", 50505⟩
  liveness := ((Liveness.ofLocal "HEAD").note 5 "NODE" "NODE" "NODE:50505").run 5
    [.ask (Liveness.ownAttempt 0 0 false), .answer (Liveness.ownAttempt 0 0 true) (.named "NODE")]
  registry := ⟨∅, .ofValue (.object [])⟩
  dispatch := Dispatch.idle

theorem serves_steady : steady.Serves := by
  have hconfig : (nodeConfig "head" "clusrun" {}).map (·.host) = .ok ⟨"HEAD", 50505⟩ := by decide +kernel
  cases hnode : nodeConfig "head" "clusrun" {} with
  | error fault =>
    rw [hnode] at hconfig
    cases hconfig
  | ok config =>
    rw [hnode] at hconfig
    have hhost : config.host = ⟨"HEAD", 50505⟩ := Except.ok.inj hconfig
    have hstart : start config.host config.host.host ⟨.absent, ∅⟩ .absent =
        (⟨JobDocument.save [], ∅⟩,
          .ok ⟨⟨"HEAD", 50505⟩, .ofLocal "HEAD", ⟨∅, .ofValue (.object [])⟩, Dispatch.idle⟩) := by
      rw [hhost]
      rfl
    have hstarted := Serves.started hnode hstart
    have hrun := hstarted.run 5 [.heartbeat "NODE" "NODE:50505", .ask (Liveness.ownAttempt 0 0 false),
      .answer (Liveness.ownAttempt 0 0 true) (.named "NODE")]
    rw [Liveness.run, List.foldl_cons, Liveness.step,
      Liveness.heartbeat_of_claim Liveness.claimedName_node] at hrun
    exact hrun

/-- A job on that node, with a number for each node. -/
def counting : JobSpec := { command := "echo @", arguments := ["@"], sweep := "@{3-9}", nodes := ["node"] }

/-- The head node once it has accepted the job. -/
def counted : Headnode :=
  { steady with dispatch := (steady.dispatch.submit counting ["NODE"] 9 false Dispatch.epoch.1).1 }

/-- The job is selected again at once, and goes to the same node with the same number. -/
theorem rerun_of_counting :
    ∃ first, steady.Serves ∧
      Dispatch.check .plain (steady.readyNodes {}) steady.registry.groups counting false = .ok ["NODE"] ∧
      steady.dispatch.submit counting ["NODE"] 9 false Dispatch.epoch.1 = (counted.dispatch, .ok first) ∧
      counted.jobs (SortedSet.ofList [1]) = .ok [first] ∧
      ordersOf counted.dispatch first.id = some [⟨"NODE", "echo 3", ["3"]⟩] ∧
      Dispatch.check .plain (counted.readyNodes {}) counted.registry.groups (again first) false = .ok ["NODE"] := by
  have hcheck : Dispatch.check .plain (steady.readyNodes {}) steady.registry.groups counting false = .ok ["NODE"] := by
    decide +kernel
  have hsubmit : steady.dispatch.submit counting ["NODE"] 9 false Dispatch.epoch.1 =
      (counted.dispatch, .ok (Job.new 1 counting ["NODE"] Dispatch.epoch.1)) := Prod.ext rfl (by decide +kernel)
  have hfound : counted.jobs (SortedSet.ofList [1]) = .ok [Job.new 1 counting ["NODE"] Dispatch.epoch.1] := by
    decide +kernel
  have hready : ∀ node ∈ (Job.new 1 counting ["NODE"] Dispatch.epoch.1).nodes, node ∈ counted.readyNodes {} := by
    decide +kernel
  have hrerun := rerun_repeats serves_steady hcheck hsubmit .refl hfound rfl .refl
  refine ⟨_, serves_steady, hcheck, hsubmit, hfound, ?_, (hrerun.2.2 {}).1 hready⟩
  rw [hrerun.2.1]
  decide +kernel

end Headnode

end Muster
