import Muster.Proofs.Cluster
import Muster.Proofs.Confirming
import Muster.Proofs.Decimal

/-!
# A job on its way to the workers

When a head node accepts a job, no message is on its way for it and no worker knows it.
-/

namespace Muster

theorem Job.label_injective (headnode : String) {i j : Int} (h : Job.label headnode i = Job.label headnode j) :
    i = j := Text.toString_int_injective ((String.append_right_inj _).1 h)

/-- The job of a message. -/
def Message.id : Message → Int
  | .start id _ | .started id .. | .cancel _ id _ | .canceled _ id .. => id

namespace Cluster

open Dispatch (History)
open Store (newestId)

/-- Somebody else has a worker run a command under the label. -/
def Event.Takes (label : String) : Event → Prop
  | .work _ (.accept other _ _) => other = label
  | _ => False

variable {c : Cluster} {id : Int}

@[simp] theorem address_step (e : Event) : (c.step e).address = c.address := by
  cases e with
  | head now e =>
    simp only [step]
    split <;> rfl
  | lose k => rfl
  | work address event =>
    simp only [step]
    split <;> rfl
  | arrive k now refusal =>
    simp only [step]
    split
    · rename_i m _
      cases m with
      | started | canceled => rfl
      | start id order =>
        simp only [receive, startAt]
        split
        · split <;> rfl
        · rfl
      | cancel call id node =>
        simp only [receive]
        split <;> rfl
    · rfl

@[simp] theorem label_step (e : Event) (id : Int) : (c.step e).label id = c.label id := by
  rw [label, label, address_step]

@[simp] theorem label_run (events : List Event) (id : Int) : (c.run events).label id = c.label id := by
  induction events using List.reverseRecOn with
  | nil => rfl
  | append_singleton events e ih => rw [run_concat, label_step, ih]

/-! ### New jobs -/

/-- Nothing is on its way for a job with this id, and no worker has run a command of it. -/
structure IsNew (id : Int) (c : Cluster) : Prop where
  wire : ∀ m ∈ c.wire, m.id ≠ id
  workers : ∀ a w, c.workers.get? a = some w → ∀ e ∈ w.executor.executions, e.label ≠ c.label id

/-- What the head node does not know yet does not come to the workers. -/
theorem isNew_step (h : c.IsNew id) {e : Event} (hbefore : c.head.Unheard id)
    (hafter : (c.step e).head.Unheard id) (hother : ¬ e.Takes (c.label id)) : (c.step e).IsNew id := by
  refine ⟨?_, ?_⟩
  · intro m hm
    rcases mem_wire_step hm with hold | hsent
    · exact h.wire m hold
    · cases hsent with
      | start _ hrun =>
        intro hid
        have hnone := hbefore.run
        rw [← hid] at hnone
        cases hrun.symm.trans hnone
      | started _ _ _ hwire => exact h.wire (.start _ _) (List.mem_of_getElem? hwire)
      | canceled _ _ hwire => exact h.wire (.cancel ..) (List.mem_of_getElem? hwire)
      | cancel _ hcall hj =>
        intro hid
        exact (hafter.calls _ (List.mem_of_getElem? hcall)).1 ⟨_, hj, hid⟩
  · intro a w' hw' u hu
    rw [label_step]
    obtain ⟨w, hw, hsame | ⟨event, hdoes, hstep⟩⟩ := worker_step hw'
    · exact h.workers a w hw u (hsame ▸ hu)
    · intro hlabel
      rcases Executor.exists_label_of_step (hstep ▸ hu) hlabel with ⟨u', hu', hold⟩ | ⟨command, arguments, rfl⟩
      · exact h.workers a w hw u' hu' hold
      · generalize heq : c.label id = name at hdoes
        cases hdoes with
        | work => exact hother heq.symm
        | start _ _ hwire =>
          have hid := Job.label_injective _ heq
          exact h.wire _ (List.mem_of_getElem? hwire) hid.symm

/-- The states that a head node and its workers come to, which start with some store and without commands,
where nobody else uses the labels of the head node. -/
def Reached (c : Cluster) : Prop :=
  ∃ (start : Cluster) (store : Store) (events : List Event), start.head = { store } ∧ start.wire = [] ∧
    (∀ a w, start.workers.get? a = some w → w.executor.executions = [] ∧ w.executor.running = ∅) ∧
    (∀ e ∈ events, ∀ id, ¬ e.Takes (start.label id)) ∧ c = start.run events

theorem reached_head (h : c.Reached) : c.head.Reached := by
  obtain ⟨start, store, events, hhead, -, -, -, rfl⟩ := h
  exact ⟨store, start.history events, by rw [head_run, hhead]⟩

theorem isNew_of_reached (h : c.Reached) {jobs : List Job} (hread : c.head.store.jobs = .ok jobs)
    (hid : newestId jobs < id) : c.IsNew id := by
  obtain ⟨start, store, events, hhead, hwire, hworkers, hothers, rfl⟩ := h
  induction events using List.reverseRecOn generalizing jobs with
  | nil =>
    refine ⟨?_, ?_⟩
    · rw [run_nil, hwire]
      simp
    · intro a w hw e he
      rw [(hworkers a w hw).1] at he
      cases he
  | append_singleton events e ih =>
    have hbefore : (start.run events).Reached := ⟨start, store, events, hhead, hwire, hworkers,
      fun e he => hothers e (List.mem_append_left _ he), rfl⟩
    have hafter : (start.run (events ++ [e])).Reached :=
      ⟨start, store, _, hhead, hwire, hworkers, hothers, rfl⟩
    have hunheard := Dispatch.unheard_of_reached (reached_head hafter) hread hid
    rw [run_concat] at hread hunheard ⊢
    rw [head_step] at hread
    obtain ⟨old, hold, hle⟩ := Dispatch.newestId_of_runAt hread
    have hlt : newestId old < id := by omega
    refine isNew_step (ih hlt (fun e he => hothers e (List.mem_append_left _ he)) hold)
      (Dispatch.unheard_of_reached (reached_head hbefore) hold hlt) hunheard ?_
    rw [label_run]
    exact hothers e (by simp) id

theorem orderly_step {label : String} (h : ∀ a w, c.workers.get? a = some w → w.executor.Orderly label)
    (e : Event) {a : String} {w' : Clusnode} (hw' : (c.step e).workers.get? a = some w') :
    w'.executor.Orderly label := by
  obtain ⟨w, hw, hsame | ⟨event, -, hstep⟩⟩ := worker_step hw'
  · rw [hsame]
    exact h a w hw
  · rw [hstep]
    exact Executor.orderly_step (h a w hw) event

theorem orderly_run {label : String} (h : ∀ a w, c.workers.get? a = some w → w.executor.Orderly label)
    (events : List Event) {a : String} {w : Clusnode} (hw : (c.run events).workers.get? a = some w) :
    w.executor.Orderly label := by
  induction events using List.reverseRecOn generalizing a w with
  | nil => exact h a w hw
  | append_singleton events e ih =>
    rw [run_concat] at hw
    exact orderly_step (fun a w hw => ih hw) e hw

theorem orderly_of_reached (h : c.Reached) (label : String) {a : String} {w : Clusnode}
    (hw : c.workers.get? a = some w) : w.executor.Orderly label := by
  obtain ⟨start, -, events, -, -, hworkers, -, rfl⟩ := h
  refine orderly_run ?_ events hw
  intro a w hw
  obtain ⟨hexecutions, hrunning⟩ := hworkers a w hw
  exact ⟨by simp [hrunning], by simp [hexecutions]⟩

/-! ### Accepted jobs -/

/-- The head node accepts a job. -/
def Accepted (c : Cluster) (job : Job) : Prop :=
  ∃ (before : Cluster) (engine : Pattern.Engine) (ready : List String) (groups : Groups) (spec : JobSpec)
    (intersect : Bool) (nodes : List String) (capacity : Nat) (keepsOutput : Bool) (now : Moment),
    before.Reached ∧ Dispatch.check engine ready groups spec intersect = .ok nodes ∧
      (before.head.submit spec nodes capacity keepsOutput now.1).2 = .ok job ∧
      c = before.headStep (now, .submit spec nodes capacity keepsOutput)

variable {job : Job}

theorem Accepted.head (h : c.Accepted job) : c.head.Accepted job := by
  obtain ⟨before, engine, ready, groups, spec, intersect, nodes, capacity, keepsOutput, now, hreached, hcheck,
    hsubmit, rfl⟩ := h
  exact ⟨before.head, engine, ready, groups, spec, intersect, nodes, capacity, keepsOutput, now,
    reached_head hreached, hcheck, Prod.ext rfl hsubmit⟩

theorem Accepted.isNew (h : c.Accepted job) : c.IsNew job.id := by
  obtain ⟨before, _, _, _, spec, _, nodes, capacity, keepsOutput, now, hreached, -, hsubmit, rfl⟩ := h
  obtain ⟨jobs, hread, hlt⟩ := Dispatch.newestId_lt_of_submit hsubmit
  obtain ⟨hwire, hworkers⟩ := isNew_of_reached hreached hread hlt
  refine ⟨?_, hworkers⟩
  intro m hm
  rcases List.mem_append.1 hm with hm | hm
  · exact hwire m hm
  · cases hm

theorem Accepted.orderly (h : c.Accepted job) (events : List Event) (label : String) {a : String}
    {w : Clusnode} (hw : (c.run events).workers.get? a = some w) : w.executor.Orderly label := by
  obtain ⟨before, _, _, _, _, _, _, _, _, _, hreached, -, -, rfl⟩ := h
  refine orderly_run ?_ events hw
  intro a w hold
  exact orderly_of_reached hreached label (show before.workers.get? a = some w from hold)

end Cluster

end Muster
