import Muster.Proofs.Wire

/-!
# Commands of cancelled jobs

A worker confirms the cancellation of a command that it does not know. So a cancelled job has stopped for
good exactly if, at the time it is reported, no call to run it is on its way and no worker still runs it or
is about to.
-/

namespace Muster

namespace Dispatch

/-- The state that a cancellation has reported of a job. -/
def Cancel.reported? (c : Cancel) (id : Int) : Option JobState :=
  match c.outcome? with
  | some (.ok results) => results.get? id
  | _ => none

/-- A cancellation has reported the state of a job. -/
def Reports (id : Int) (state : JobState) (d : Dispatch) : Prop := ∃ c ∈ d.cancels, c.reported? id = some state

instance (id : Int) (state : JobState) (d : Dispatch) : Decidable (d.Reports id state) :=
  inferInstanceAs (Decidable (∃ c ∈ d.cancels, c.reported? id = some state))

theorem Cancel.get?_of_reported {c : Cancel} {id : Int} {state : JobState} (h : c.reported? id = some state) :
    c.results.get? id = some state := by
  unfold reported? at h
  split at h
  · rename_i results houtcome
    rw [results_of_outcome houtcome]
    exact h
  · cases h

end Dispatch

namespace Cluster

open Dispatch (Confirms Waits)

/-- The worker at the address of a node. -/
def worker? (c : Cluster) (node : String) : Option Clusnode := c.workers.get? (Address.ofDisplayName node)

/-- A call to run the command of a job is on its way to the node. -/
def IsCalled (id : Int) (node : String) (c : Cluster) : Prop :=
  ∃ order, .start id order ∈ c.wire ∧ Address.ofDisplayName order.node = Address.ofDisplayName node

/-- The command of a job runs on the node. -/
def Runs (id : Int) (node : String) (c : Cluster) : Prop :=
  ∃ w, c.worker? node = some w ∧ w.executor.Alive (c.label id)

/-- The command of a job runs on the node, or can still come to run there. -/
def IsOpen (id : Int) (node : String) (c : Cluster) : Prop :=
  ∃ w, c.worker? node = some w ∧ (c.IsCalled id node ∨ w.executor.Pending (c.label id))

/-- The worker of a node is called to cancel a job, and answers that it has. -/
def Cancels (id : Int) (node : String) (c : Cluster) (e : Event) : Prop :=
  ∃ k now refusal call w, e = .arrive k now refusal ∧ c.wire[k]? = some (.cancel call id node) ∧
    c.worker? node = some w ∧ (w.cancelJob c.address.text id refusal).2 = .ok ()

/-- The worker of a node cancels a job when no call to run its command is on its way any more, and the worker
knows the command under its label if it runs or can still come to run. -/
def Catches (id : Int) (node : String) (c : Cluster) (e : Event) : Prop :=
  Cancels id node c e ∧ ¬ c.IsCalled id node ∧
    ∀ w, c.worker? node = some w → w.executor.Knows (c.label id)

variable {c : Cluster} {job : Job} {events : List Event} {node : String}

/-! ### What is known of a cancellation -/

theorem history_mono {s : List Event} (hs : s <+: events) : c.history s <+: c.history events := by
  obtain ⟨t, rfl⟩ := hs
  rw [history_append]
  exact List.prefix_append _ _

theorem waits_of_run {s : List Event} (hjob : c.Accepted job) (hs : s <+: events)
    (h : Waits job.id (c.run events).head) : Waits job.id (c.run s).head := by
  rw [head_run] at h ⊢
  exact Dispatch.waits_of_run hjob.head (history_mono hs) h

/-- When a node is called to cancel an accepted job, the calls to run the job have been made. -/
theorem not_waits_of_cancel (hjob : c.Accepted job) {m : Message} {call : Nat}
    (hm : m = .cancel call job.id node) (h : m ∈ (c.run events).wire) : ¬ Waits job.id (c.run events).head := by
  induction events using List.reverseRecOn with
  | nil =>
    have hnew := hjob.isNew.wire m h
    rw [hm] at hnew
    exact absurd rfl hnew
  | append_singleton events e ih =>
    intro hwaits
    have hbefore := waits_of_run hjob (List.prefix_append events [e]) hwaits
    rw [run_concat] at h
    rcases mem_wire_step h with hold | hsent
    · exact ih hold hbefore
    · cases hsent with
      | cancel now hcall hj =>
        have hplans := Dispatch.plans_of_mem hcall hj
        rw [(Message.cancel.inj hm).2.1] at hplans
        rw [head_run] at hplans hbefore
        exact Dispatch.not_waits_of_plans hjob.head hplans hbefore
      | _ => cases hm

theorem happens_of_canceled (hjob : c.Accepted job) {m : Message} {call : Nat}
    (hm : m = .canceled call job.id node true) (h : m ∈ (c.run events).wire) :
    c.Happens events (Cancels job.id node) := by
  induction events using List.reverseRecOn with
  | nil =>
    have hnew := hjob.isNew.wire m h
    rw [hm] at hnew
    exact absurd rfl hnew
  | append_singleton events e ih =>
    rw [run_concat] at h
    rcases mem_wire_step h with hold | hsent
    · exact (ih hold).mono (List.prefix_append _ _)
    · cases hsent with
      | @canceled k call id answering w now refusal hwire hw =>
        obtain ⟨rfl, hid, rfl, hok⟩ := Message.canceled.inj hm
        subst hid
        refine happens_last c events ⟨k, now, refusal, call, w, rfl, hwire, hw, ?_⟩
        cases hresult : (w.cancelJob (c.run events).address.text job.id refusal).2 with
        | ok => rfl
        | error status =>
          rw [hresult] at hok
          cases hok
      | _ => cases hm

/-- A confirmation comes to the head node by a message only. -/
theorem canceled_of_confirms {id : Int} {e : Event} {e' : Moment × Dispatch.Event}
    (he : c.headEvent? e = some e') (h : Confirms id node c.head e') :
    ∃ call, .canceled call id node true ∈ c.wire := by
  obtain ⟨call, hanswer⟩ := h
  cases e with
  | head now own =>
    simp only [headEvent?] at he
    split at he
    · rename_i hown
      cases he
      change own = _ at hanswer
      rw [hanswer] at hown
      cases hown
    · cases he
  | lose => cases he
  | work => cases he
  | arrive k now refusal =>
    simp only [headEvent?] at he
    split at he
    · cases he
      cases hanswer
    · rename_i hwire
      cases he
      cases hanswer
      exact ⟨call, List.mem_of_getElem? hwire⟩
    · cases he

/-- What the head node is told as a confirmation is one. -/
theorem happens_of_confirms (hjob : c.Accepted job)
    (h : c.head.Happens (c.history events) (Confirms job.id node)) :
    c.Happens events (Cancels job.id node) := by
  induction events using List.reverseRecOn with
  | nil => exact absurd h (Dispatch.happens_nil _ _)
  | append_singleton events e ih =>
    have hmono (h : c.Happens events (Cancels job.id node)) :
        c.Happens (events ++ [e]) (Cancels job.id node) := h.mono (List.prefix_append _ _)
    rw [history_concat] at h
    cases he : (c.run events).headEvent? e with
    | none =>
      rw [he, Option.toList_none, List.append_nil] at h
      exact hmono (ih h)
    | some e' =>
      rw [he, Option.toList_some, Dispatch.happens_concat] at h
      rcases h with h | hconfirms
      · exact hmono (ih h)
      · obtain ⟨call, hmem⟩ := canceled_of_confirms he hconfirms
        exact hmono (happens_of_canceled hjob rfl hmem)

/-- If a job is reported as cancelled, every node of it has answered that it has cancelled the job. -/
theorem happens_of_reports (hjob : c.Accepted job) (h : (c.run events).head.Reports job.id .canceled) :
    ∀ node ∈ job.nodes, c.Happens events (Cancels job.id node) := by
  obtain ⟨call, hcall, hstate⟩ := h
  rw [head_run] at hcall
  intro node hnode
  have hconfirming := Dispatch.confirming_of_run hjob.head (c.history events)
  have hconfirmed := hconfirming.results call hcall (Dispatch.Cancel.get?_of_reported hstate) node hnode
  exact happens_of_confirms hjob hconfirmed

/-! ### Nodes that are not open any more -/

theorem worker?_step {e : Event} {w' : Clusnode} (h : (c.step e).worker? node = some w') :
    ∃ w, c.worker? node = some w ∧ (w'.executor = w.executor ∨
      ∃ event, c.Does e (Address.ofDisplayName node) event ∧ w'.executor = w.executor.step event) :=
  worker_step h

/-- Once the calls to run a job are made, a node that is not open does not become so again. -/
theorem isOpen_of_step {id : Int} {e : Event} (h : (c.step e).IsOpen id node) (hwaits : ¬ Waits id c.head)
    (hother : ¬ e.Takes (c.label id)) : c.IsOpen id node := by
  obtain ⟨w', hw', hopen⟩ := h
  obtain ⟨w, hw, hdid⟩ := worker?_step hw'
  refine ⟨w, hw, ?_⟩
  rcases hopen with ⟨order, hcall, haddress⟩ | hpending
  · rcases mem_wire_step hcall with hold | hsent
    · exact .inl ⟨order, hold, haddress⟩
    · cases hsent with
      | start _ hrun hphase => exact absurd ⟨_, hrun, hphase⟩ hwaits
  · rw [label_step] at hpending
    rcases hdid with hsame | ⟨event, hdoes, hstep⟩
    · exact .inr (hsame ▸ hpending)
    · by_cases haccept : ∃ command arguments, event = .accept (c.label id) command arguments
      · obtain ⟨command, arguments, rfl⟩ := haccept
        generalize heq : c.label id = name at hdoes
        generalize haddress : Address.ofDisplayName node = address at hdoes
        cases hdoes with
        | work => exact absurd heq.symm hother
        | start _ _ hwire =>
          rw [Job.label_injective _ heq]
          exact .inl ⟨_, List.mem_of_getElem? hwire, haddress.symm⟩
      · simp only [not_exists] at haccept
        by_contra hnot
        rw [hstep] at hpending
        exact Executor.pending_step (fun hold => hnot (.inr hold)) haccept hpending

theorem isOpen_of_run (hjob : c.Accepted job) {more : List Event}
    (hwaits : ¬ Waits job.id (c.run events).head) (hothers : ∀ e ∈ more, ¬ e.Takes (c.label job.id))
    (h : (c.run (events ++ more)).IsOpen job.id node) : (c.run events).IsOpen job.id node := by
  induction more using List.reverseRecOn with
  | nil => simpa using h
  | append_singleton more e ih =>
    rw [← List.append_assoc, run_concat] at h
    refine ih (fun e he => hothers e (List.mem_append_left _ he)) (isOpen_of_step h ?_ ?_)
    · exact fun hlast => hwaits (waits_of_run hjob (List.prefix_append _ _) hlast)
    · rw [label_run]
      exact hothers e (by simp)

theorem isOpen_of_runs {id : Int} (h : c.Runs id node) : c.IsOpen id node := by
  obtain ⟨w, hw, e, he, hlabel, halive⟩ := h
  refine ⟨w, hw, .inr ⟨e, he, hlabel, ?_⟩⟩
  unfold Execution.isPending
  split
  · rfl
  · rfl
  · exact halive

/-- A cancellation that comes when the command can only be known or over ends it. -/
theorem not_isOpen_of_catches {id : Int} {e : Event}
    (horderly : ∀ w, c.worker? node = some w → w.executor.Orderly (c.label id)) (h : Catches id node c e) :
    ¬ (c.step e).IsOpen id node := by
  obtain ⟨⟨k, now, refusal, call, w, rfl, hwire, hw, hok⟩, hcalls, hknows⟩ := h
  have hworker : (c.step (.arrive k now refusal)).worker? node =
      some (w.cancelJob c.address.text id refusal).1 := by
    unfold worker? at hw ⊢
    simp only [step, hwire, receive, hw, cancelAt, answer, SortedMap.get?_insert_self]
  rintro ⟨w', hw', ⟨order, hcall, haddress⟩ | hpending⟩
  · rcases mem_wire_step hcall with hold | hsent
    · exact hcalls ⟨order, hold, haddress⟩
    · cases hsent
  · rw [hworker, Option.some.injEq] at hw'
    subst hw'
    rw [label_step] at hpending
    cases refusal with
    | none => exact Executor.not_pending_cancel (horderly w hw) (hknows w hw) hpending
    | some reason =>
      -- The system refuses to kill only what is known.
      by_cases hrunning : w.executor.isRunning (c.label id)
      · simp only [Clusnode.cancelJob, label] at hok hrunning
        rw [if_pos hrunning] at hok
        cases hok
      · obtain ⟨u, hu, hlabel, hup⟩ : w.executor.Pending (c.label id) := by
          simp only [Clusnode.cancelJob, label] at hpending hrunning
          rw [if_neg hrunning] at hpending
          exact hpending
        obtain ⟨i, hi⟩ := List.getElem?_of_mem hu
        have hknown := hknows w hw i u hi hlabel hup
        simp [Executor.isRunning, SortedMap.contains, hknown] at hrunning

/-! ### Nodes that are open -/

/-- Events of the executions of a worker, as events of the cluster. -/
def worked (node : String) (own : List Executor.Event) : List Event :=
  own.map fun event => .work (Address.ofDisplayName node) event

theorem not_takes_worked {label : String} {own : List Executor.Event} (h : Executor.Own own) :
    ∀ e ∈ worked node own, ¬ e.Takes label := by
  intro e he
  obtain ⟨event, hevent, rfl⟩ := List.mem_map.1 he
  have howner := h event hevent
  cases event <;> first | exact fun hno => hno | cases howner

theorem worked_run {w : Clusnode} (hw : c.worker? node = some w) (own : List Executor.Event) :
    (c.run (worked node own)).worker? node = some { w with executor := w.executor.run own } ∧
      (c.run (worked node own)).wire = c.wire := by
  induction own using List.reverseRecOn with
  | nil => exact ⟨hw, rfl⟩
  | append_singleton own event ih =>
    obtain ⟨hworker, hwire⟩ := ih
    unfold worker? at hworker ⊢
    simp only [worked, List.map_append, List.map_cons, List.map_nil, run_concat] at hworker hwire ⊢
    simp only [step, hworker, SortedMap.get?_insert_self, hwire, and_true, Option.some.injEq]
    simp [Executor.run]

theorem worker?_arrive {id : Int} {k : Nat} {order : Dispatch.Order} {w : Clusnode}
    (hwire : c.wire[k]? = some (.start id order))
    (haddress : Address.ofDisplayName order.node = Address.ofDisplayName node) (hw : c.worker? node = some w)
    (now : Moment) (refusal : Option String) :
    (c.step (.arrive k now refusal)).worker? node =
      some { w with executor := w.executor.step (.accept (c.label id) order.command order.arguments) } := by
  unfold worker? at hw ⊢
  rw [← haddress] at hw ⊢
  obtain ⟨accepted, heq⟩ := startAt_eq { c with wire := c.wire.eraseIdx k } w id order
  simp only [step, hwire, receive, hw, heq, answer, SortedMap.get?_insert_self, label]

/-- On an open node, the command can still come to run. -/
theorem exists_runs_of_isOpen {id : Int}
    (horderly : ∀ w, c.worker? node = some w → w.executor.Orderly (c.label id)) (h : c.IsOpen id node) :
    ∃ more, (∀ e ∈ more, ¬ e.Takes (c.label id)) ∧ (c.run more).Runs id node := by
  obtain ⟨w, hw, hopen⟩ := h
  have hfinish {before : List Event} {w' : Clusnode} (hbefore : ∀ e ∈ before, ¬ e.Takes (c.label id))
      (hw' : (c.run before).worker? node = some w') {own : List Executor.Event} (hown : Executor.Own own)
      (halive : (w'.executor.run own).Alive (c.label id)) :
      ∃ more, (∀ e ∈ more, ¬ e.Takes (c.label id)) ∧ (c.run more).Runs id node := by
    refine ⟨before ++ worked node own, ?_, ?_⟩
    · intro e he
      rcases List.mem_append.1 he with he | he
      · exact hbefore e he
      · exact not_takes_worked hown e he
    · rw [run_append]
      exact ⟨_, (worked_run hw' own).1, by simpa using halive⟩
  rcases hopen with ⟨order, hcall, haddress⟩ | hpending
  · by_cases hruns : c.Runs id node
    · exact ⟨[], by simp, hruns⟩
    · have hdead : ¬ w.executor.Alive (c.label id) := fun halive => hruns ⟨w, hw, halive⟩
      obtain ⟨own, hown, hforgotten⟩ := Executor.exists_not_running (horderly w hw) hdead
      obtain ⟨hworker, hwire⟩ := worked_run hw own
      obtain ⟨k, hk⟩ := List.getElem?_of_mem hcall
      obtain ⟨rest, hrest, halive⟩ :=
        Executor.exists_alive_of_accept hforgotten order.command order.arguments
      have harrived : (c.run (worked node own ++ [.arrive k Dispatch.epoch none])).worker? node = some { w with
          executor := (w.executor.run own).step (.accept (c.label id) order.command order.arguments) } := by
        rw [run_concat]
        refine (worker?_arrive (hwire ▸ hk) haddress hworker Dispatch.epoch none).trans ?_
        rw [label_run]
      refine hfinish ?_ harrived hrest halive
      intro e he
      rcases List.mem_append.1 he with he | he
      · exact not_takes_worked hown e he
      · rw [List.mem_singleton.1 he]
        exact fun hno => hno
  · obtain ⟨own, hown, halive⟩ := Executor.exists_alive_of_pending hpending
    have hnone : ∀ e ∈ ([] : List Event), ¬ e.Takes (c.label id) := by simp
    exact hfinish hnone hw hown halive

/-! ### Reported jobs -/

/-- What it means that an accepted job is reported as cancelled. Every node has answered that it has cancelled
the job. The command does not run from then on, and cannot come to run, exactly if no node is open at that
time; and no node is whose worker cancelled the job when the call to run it was not on its way any more and
the command, if there was one, was known. -/
theorem stopped_iff_of_reports (hjob : c.Accepted job) (hothers : ∀ e ∈ events, ¬ e.Takes (c.label job.id))
    (hreports : (c.run events).head.Reports job.id .canceled) :
    (∀ node ∈ job.nodes, c.Happens events (Cancels job.id node)) ∧
      ((∀ more, (∀ e ∈ more, ¬ e.Takes (c.label job.id)) →
          ∀ node ∈ job.nodes, ¬ (c.run (events ++ more)).Runs job.id node) ↔
        ∀ node ∈ job.nodes, ¬ (c.run events).IsOpen job.id node) ∧
      ∀ node ∈ job.nodes, c.Happens events (Catches job.id node) → ¬ (c.run events).IsOpen job.id node := by
  have hcancels := happens_of_reports hjob hreports
  have hcalled {s : List Event} {e : Event} {node : String} (h : Cancels job.id node (c.run s) e) :
      ¬ Waits job.id (c.run s).head := by
    obtain ⟨k, now, refusal, call, w, -, hwire, -⟩ := h
    exact not_waits_of_cancel hjob rfl (List.mem_of_getElem? hwire)
  have horderly (s : List Event) (node : String) :
      ∀ w, (c.run s).worker? node = some w → w.executor.Orderly ((c.run s).label job.id) := by
    intro w hw
    exact hjob.orderly s _ hw
  refine ⟨hcancels, ⟨?_, ?_⟩, ?_⟩
  · intro hstopped node hnode hopen
    obtain ⟨more, hmore, hruns⟩ := exists_runs_of_isOpen (horderly events node) hopen
    rw [label_run] at hmore
    rw [← run_append] at hruns
    exact hstopped more hmore node hnode hruns
  · intro hclosed more hmore node hnode hruns
    obtain ⟨s, e, hs, hfirst⟩ := hcancels node hnode
    have hwaits : ¬ Waits job.id (c.run events).head := fun hlast =>
      hcalled hfirst (waits_of_run hjob ((List.prefix_append s [e]).trans hs) hlast)
    exact hclosed node hnode (isOpen_of_run hjob hwaits hmore (isOpen_of_runs hruns))
  · rintro node - ⟨s, e, ⟨rest, rfl⟩, hcatches⟩ hopen
    have hafter : ¬ (c.run (s ++ [e])).IsOpen job.id node := by
      rw [run_concat]
      exact not_isOpen_of_catches (horderly s node) hcatches
    have hwaits : ¬ Waits job.id (c.run (s ++ [e])).head := fun hlast =>
      hcalled hcatches.1 (waits_of_run hjob (List.prefix_append s [e]) hlast)
    exact hafter (isOpen_of_run hjob hwaits (fun e he => hothers e (List.mem_append_right _ he)) hopen)

/-- A head node with one worker and no job. -/
def small : Cluster :=
  { address := ⟨"HEAD", 50505⟩, head := Dispatch.idle,
    workers := SortedMap.ofList [("N1:50505", .new "N1" ⟨"N1", 50505⟩)] }

/-- It has accepted a job. -/
def busy : Cluster :=
  small.headStep (Dispatch.epoch, .submit { command := "c", nodes := ["N1"] } ["N1"] 1 false)

/-- The command runs on the worker before the job is cancelled. -/
def caught : List Event :=
  [.head Dispatch.epoch (.begin 1), .arrive 0 Dispatch.epoch none, .work "N1:50505" (.writeScript 0 .done),
    .work "N1:50505" (.spawn 0 none), .work "N1:50505" (.register 0), .arrive 0 Dispatch.epoch none,
    .head Dispatch.epoch (.launch 1), .head Dispatch.epoch (.cancel (SortedSet.ofList [1])),
    .arrive 0 Dispatch.epoch none, .arrive 0 Dispatch.epoch none, .head Dispatch.epoch (.cancelEnded 0 1)]

/-- The call to cancel the job overtakes the call to run it. -/
def crossed : List Event :=
  [.head Dispatch.epoch (.begin 1), .head Dispatch.epoch (.cancel (SortedSet.ofList [1])),
    .arrive 1 Dispatch.epoch none, .arrive 1 Dispatch.epoch none, .head Dispatch.epoch (.cancelEnded 0 1)]

/-- The call to run the job comes after all. -/
def late : List Event :=
  [.arrive 0 Dispatch.epoch none, .work "N1:50505" (.writeScript 0 .done), .work "N1:50505" (.spawn 0 none)]

theorem accepted_busy :
    busy.Accepted (Job.new 1 { command := "c", nodes := ["N1"] } ["N1"] Dispatch.epoch.1) := by
  refine ⟨small, .plain, ["N1"], ∅, { command := "c", nodes := ["N1"] }, false, ["N1"], 1, false, Dispatch.epoch,
    ⟨small, Dispatch.idle.store, [], rfl, rfl, ?_, by simp, rfl⟩, by decide +kernel, by decide +kernel, rfl⟩
  intro a w hw
  rcases get?_insert_eq_some (m := ∅) hw with ⟨-, rfl⟩ | hno
  · exact ⟨rfl, rfl⟩
  · cases hno

theorem stopped_of_caught :
    (∀ node ∈ ["N1"], busy.Happens caught (Cancels 1 node)) ∧
      ((∀ more, (∀ e ∈ more, ¬ e.Takes (busy.label 1)) →
          ∀ node ∈ ["N1"], ¬ (busy.run (caught ++ more)).Runs 1 node) ↔
        ∀ node ∈ ["N1"], ¬ (busy.run caught).IsOpen 1 node) ∧
      ∀ node ∈ ["N1"], busy.Happens caught (Catches 1 node) → ¬ (busy.run caught).IsOpen 1 node :=
  stopped_iff_of_reports accepted_busy (by simp [caught, Event.Takes]) (by decide +kernel)

/-- The job is reported as cancelled, and its command runs afterwards. -/
theorem crossed_runs_late :
    busy.Accepted (Job.new 1 { command := "c", nodes := ["N1"] } ["N1"] Dispatch.epoch.1) ∧
      (∀ e ∈ crossed ++ late, ¬ e.Takes (busy.label 1)) ∧ (busy.run crossed).head.Reports 1 .canceled ∧
      (busy.run (crossed ++ late)).Runs 1 "N1" := by
  refine ⟨accepted_busy, by simp [crossed, late, Event.Takes], by decide +kernel, ?_⟩
  have halive : ((busy.run (crossed ++ late)).worker? "N1").map
      (fun w => decide (w.executor.Alive ((busy.run (crossed ++ late)).label 1))) = some true := by
    decide +kernel
  obtain ⟨w, hw, hruns⟩ := Option.map_eq_some_iff.1 halive
  exact ⟨w, hw, of_decide_eq_true hruns⟩

end Cluster

end Muster
