import Muster.Clusnode
import Muster.Proofs.Calls
import Muster.Proofs.Executing

/-!
# A head node and its workers

The calls of a head node to run and to cancel jobs, on their way to the workers and back. Messages arrive in
any order or are lost, the head node and the workers go on in between, and a call can fail for the head node
while its message still arrives. What the streams of the workers bring to the head node is left open.
-/

namespace Muster

open Dispatch (Order History)

/-- A call of a head node, or the answer to one. -/
inductive Message
  | start (id : Int) (order : Order)
  | started (id : Int) (node : String) (accepted : Bool)
  | cancel (call : Nat) (id : Int) (node : String)
  | canceled (call : Nat) (id : Int) (node : String) (accepted : Bool)
  deriving DecidableEq, Repr

/-- A head node, the workers by their addresses, and the messages that are on their way. -/
structure Cluster where
  address : Address
  head : Dispatch
  workers : SortedMap String Clusnode
  wire : List Message := []

namespace Cluster

inductive Event
  /-- The head node goes on, or a call of it fails. -/
  | head (now : Moment) (e : Dispatch.Event)
  /-- A message arrives. The system may refuse a worker to kill a command. -/
  | arrive (k : Nat) (now : Moment) (refusal : Option String)
  | lose (k : Nat)
  /-- An execution of a worker goes on, or somebody else calls the worker. -/
  | work (address : String) (e : Executor.Event)

/-- An event of the head node that needs no message. -/
def isOwn : Dispatch.Event → Bool
  | .answered _ _ true | .cancelAnswered _ _ _ true => false
  | _ => true

/-- The calls that the head node makes with an event. -/
def sent (d : Dispatch) (e : Moment × Dispatch.Event) : List Message :=
  match e.2 with
  | .begin id =>
    match d.run? id, (d.stepAt e).run? id with
    | some run, some _ => if run.phase = .accepted then run.tasks.map fun t => .start id t.order else []
    | _, _ => []
  | .cancel _ =>
    match (d.stepAt e).cancels[d.cancels.length]? with
    | some c => c.jobs.flatMap fun j => j.waiting.map fun node => .cancel d.cancels.length j.id node
    | none => []
  | _ => []

def headStep (c : Cluster) (e : Moment × Dispatch.Event) : Cluster :=
  { c with head := c.head.stepAt e, wire := c.wire ++ sent c.head e }

/-- A worker after a call, and the answer on its way. -/
def answer (c : Cluster) (address : String) (w : Clusnode) (m : Message) : Cluster :=
  { c with workers := c.workers.insert address w, wire := c.wire ++ [m] }

/-- A worker takes a call to run a command. -/
def startAt (c : Cluster) (w : Clusnode) (id : Int) (order : Order) : Cluster :=
  let address := Address.ofDisplayName order.node
  match w.startJob c.address.text id order.command order.arguments with
  | .ok w => c.answer address w (.started id order.node true)
  | .error _ => c.answer address w (.started id order.node false)

/-- A worker takes a call to cancel a job. -/
def cancelAt (c : Cluster) (w : Clusnode) (call : Nat) (id : Int) (node : String) (refusal : Option String) :
    Cluster :=
  let (w, result) := w.cancelJob c.address.text id refusal
  c.answer (Address.ofDisplayName node) w (.canceled call id node result.toOption.isSome)

/-- What a message does where it arrives; calls to nobody are lost. -/
def receive (c : Cluster) (now : Moment) (refusal : Option String) : Message → Cluster
  | .start id order =>
    match c.workers.get? (Address.ofDisplayName order.node) with
    | some w => c.startAt w id order
    | none => c
  | .started id node accepted => c.headStep (now, .answered id node accepted)
  | .cancel call id node =>
    match c.workers.get? (Address.ofDisplayName node) with
    | some w => c.cancelAt w call id node refusal
    | none => c
  | .canceled call id node accepted => c.headStep (now, .cancelAnswered call id node accepted)

/-- What an event does; one that cannot happen does nothing. -/
def step (c : Cluster) : Event → Cluster
  | .head now e => if isOwn e then c.headStep (now, e) else c
  | .arrive k now refusal =>
    match c.wire[k]? with
    | some m => { c with wire := c.wire.eraseIdx k }.receive now refusal m
    | none => c
  | .lose k => { c with wire := c.wire.eraseIdx k }
  | .work address e =>
    match c.workers.get? address with
    | some w => { c with workers := c.workers.insert address { w with executor := w.executor.step e } }
    | none => c

def run (c : Cluster) (events : List Event) : Cluster := events.foldl step c

@[simp] theorem run_nil (c : Cluster) : c.run [] = c := rfl

@[simp] theorem run_append (c : Cluster) (s t : List Event) : c.run (s ++ t) = (c.run s).run t :=
  List.foldl_append

@[simp] theorem run_concat (c : Cluster) (s : List Event) (e : Event) :
    c.run (s ++ [e]) = (c.run s).step e := by
  rw [run_append]
  rfl

/-- Such an event has come in such a state. -/
def Happens (c : Cluster) (events : List Event) (p : Cluster → Event → Prop) : Prop :=
  ∃ s e, s ++ [e] <+: events ∧ p (c.run s) e

theorem Happens.mono {c : Cluster} {s events : List Event} {p : Cluster → Event → Prop}
    (h : c.Happens s p) (hs : s <+: events) : c.Happens events p := by
  obtain ⟨t, e, ht, hp⟩ := h
  exact ⟨t, e, ht.trans hs, hp⟩

theorem happens_last (c : Cluster) (events : List Event) {e : Event} {p : Cluster → Event → Prop}
    (h : p (c.run events) e) : c.Happens (events ++ [e]) p := ⟨events, e, List.prefix_rfl, h⟩

/-! ### What the head node goes through -/

/-- The event of the head node that comes with an event. -/
def headEvent? (c : Cluster) : Event → Option (Moment × Dispatch.Event)
  | .head now e => if isOwn e then some (now, e) else none
  | .arrive k now _ =>
    match c.wire[k]? with
    | some (.started id node accepted) => some (now, .answered id node accepted)
    | some (.canceled call id node accepted) => some (now, .cancelAnswered call id node accepted)
    | _ => none
  | .lose _ | .work .. => none

/-- The events that the head node goes through. -/
def history (c : Cluster) : List Event → History
  | [] => []
  | e :: rest => (c.headEvent? e).toList ++ (c.step e).history rest

theorem history_append (c : Cluster) (s t : List Event) :
    c.history (s ++ t) = c.history s ++ (c.run s).history t := by
  induction s generalizing c with
  | nil => rfl
  | cons e rest ih =>
    rw [List.cons_append, history, history, ih, List.append_assoc]
    rfl

theorem history_concat (c : Cluster) (s : List Event) (e : Event) :
    c.history (s ++ [e]) = c.history s ++ ((c.run s).headEvent? e).toList := by
  rw [history_append, history, history, List.append_nil]

theorem head_receive (c : Cluster) (now : Moment) (refusal : Option String) (m : Message) :
    (c.receive now refusal m).head = match m with
      | .started id node accepted => c.head.stepAt (now, .answered id node accepted)
      | .canceled call id node accepted => c.head.stepAt (now, .cancelAnswered call id node accepted)
      | _ => c.head := by
  cases m with
  | start id order =>
    simp only [receive, startAt]
    split
    · split <;> rfl
    · rfl
  | cancel call id node =>
    simp only [receive]
    split <;> rfl
  | started | canceled => rfl

theorem head_step (c : Cluster) (e : Event) :
    (c.step e).head = c.head.runAt (c.headEvent? e).toList := by
  cases e with
  | head now e =>
    simp only [step, headEvent?]
    split <;> rfl
  | arrive k now refusal =>
    simp only [step, headEvent?]
    cases hm : c.wire[k]? with
    | none => rfl
    | some m =>
      simp only [head_receive]
      cases m <;> rfl
  | lose k => rfl
  | work address e =>
    simp only [step]
    split <;> rfl

theorem head_run (c : Cluster) (events : List Event) :
    (c.run events).head = c.head.runAt (c.history events) := by
  induction events using List.reverseRecOn with
  | nil => rfl
  | append_singleton events e ih =>
    rw [run_concat, head_step, history_concat, Dispatch.runAt_append, ih]

/-! ### What an event does elsewhere -/

/-- The label of a job of the head node on the workers. -/
def label (c : Cluster) (id : Int) : String := Job.label c.address.text id

/-- What an event makes a worker do. -/
inductive Does (c : Cluster) : Event → String → Executor.Event → Prop
  | work (address : String) (event : Executor.Event) : Does c (.work address event) address event
  | start {k : Nat} {id : Int} {order : Order} (now : Moment) (refusal : Option String)
      (h : c.wire[k]? = some (.start id order)) :
      Does c (.arrive k now refusal) (Address.ofDisplayName order.node)
        (.accept (c.label id) order.command order.arguments)
  | cancel {k call : Nat} {id : Int} {node : String} (now : Moment)
      (h : c.wire[k]? = some (.cancel call id node)) :
      Does c (.arrive k now none) (Address.ofDisplayName node) (.cancel (c.label id) false)

/-- The messages that an event sends. -/
inductive Sends (c : Cluster) : Event → Message → Prop
  | start {id : Int} {run : Dispatch.Run} {t : Dispatch.Task} (now : Moment) (hrun : c.head.run? id = some run)
      (hphase : run.phase = .accepted) (ht : t ∈ run.tasks) :
      Sends c (.head now (.begin id)) (.start id t.order)
  | started {k : Nat} {id : Int} {order : Order} (now : Moment) (refusal : Option String) (accepted : Bool)
      (h : c.wire[k]? = some (.start id order)) :
      Sends c (.arrive k now refusal) (.started id order.node accepted)
  | cancel {ids : JobIds} {call : Dispatch.Cancel} {j : Dispatch.CancelJob} {node : String} (now : Moment)
      (hcall : (c.head.stepAt (now, .cancel ids)).cancels[c.head.cancels.length]? = some call)
      (hj : j ∈ call.jobs) (hnode : node ∈ j.waiting) :
      Sends c (.head now (.cancel ids)) (.cancel c.head.cancels.length j.id node)
  | canceled {k call : Nat} {id : Int} {node : String} {w : Clusnode} (now : Moment) (refusal : Option String)
      (h : c.wire[k]? = some (.cancel call id node))
      (hw : c.workers.get? (Address.ofDisplayName node) = some w) :
      Sends c (.arrive k now refusal)
        (.canceled call id node (w.cancelJob c.address.text id refusal).2.toOption.isSome)

theorem get?_insert_eq_some {m : SortedMap String Clusnode} {address a : String} {w w' : Clusnode}
    (h : (m.insert address w).get? a = some w') : a = address ∧ w' = w ∨ m.get? a = some w' := by
  by_cases ha : a = address
  · rw [ha, SortedMap.get?_insert_self, Option.some.injEq] at h
    exact .inl ⟨ha, h.symm⟩
  · rw [SortedMap.get?_insert_of_ne _ _ ha] at h
    exact .inr h

theorem text_ne_empty (a : Address) : a.text ≠ "" := by
  intro h
  have hlist := congrArg String.toList h
  simp [Address.text] at hlist

/-- A worker that is called to run a command accepts it, unless it knows the label. -/
theorem startAt_eq (c : Cluster) (w : Clusnode) (id : Int) (order : Order) :
    ∃ accepted, c.startAt w id order = c.answer (Address.ofDisplayName order.node)
      { w with executor := w.executor.step (.accept (c.label id) order.command order.arguments) }
      (.started id order.node accepted) := by
  simp only [startAt, Clusnode.startJob, if_neg (text_ne_empty c.address)]
  by_cases hrunning : w.executor.isRunning (Job.label c.address.text id)
  · refine ⟨false, ?_⟩
    simp [hrunning, label, Executor.step]
  · refine ⟨true, ?_⟩
    simp [hrunning, label]

theorem cancelJob_executor (c : Cluster) (w : Clusnode) (id : Int) (refusal : Option String) :
    (w.cancelJob c.address.text id refusal).1.executor = w.executor ∨ refusal = none ∧
      (w.cancelJob c.address.text id refusal).1.executor = w.executor.step (.cancel (c.label id) false) := by
  cases refusal with
  | none => exact .inr ⟨rfl, rfl⟩
  | some reason =>
    simp only [Clusnode.cancelJob]
    split <;> exact .inl rfl

/-- A worker is as it was, or has done what the event made it do. -/
theorem worker_step {c : Cluster} {e : Event} {a : String} {w' : Clusnode}
    (h : (c.step e).workers.get? a = some w') :
    ∃ w, c.workers.get? a = some w ∧
      (w'.executor = w.executor ∨ ∃ event, c.Does e a event ∧ w'.executor = w.executor.step event) := by
  cases e with
  | head now e =>
    simp only [step] at h
    split at h <;> exact ⟨w', h, .inl rfl⟩
  | lose k => exact ⟨w', h, .inl rfl⟩
  | work address event =>
    simp only [step] at h
    split at h
    · rename_i w hw
      rcases get?_insert_eq_some h with ⟨rfl, rfl⟩ | h
      · exact ⟨w, hw, .inr ⟨event, .work a event, rfl⟩⟩
      · exact ⟨w', h, .inl rfl⟩
    · exact ⟨w', h, .inl rfl⟩
  | arrive k now refusal =>
    simp only [step] at h
    split at h
    · rename_i m hm
      cases m with
      | started | canceled => exact ⟨w', h, .inl rfl⟩
      | start id order =>
        simp only [receive] at h
        split at h
        · rename_i w hw
          obtain ⟨accepted, heq⟩ := startAt_eq { c with wire := c.wire.eraseIdx k } w id order
          rw [heq] at h
          rcases get?_insert_eq_some h with ⟨rfl, rfl⟩ | h
          · exact ⟨w, hw, .inr ⟨_, .start now refusal hm, rfl⟩⟩
          · exact ⟨w', h, .inl rfl⟩
        · exact ⟨w', h, .inl rfl⟩
      | cancel call id node =>
        simp only [receive] at h
        split at h
        · rename_i w hw
          rcases get?_insert_eq_some h with ⟨rfl, rfl⟩ | h
          · refine ⟨w, hw, ?_⟩
            rcases cancelJob_executor c w id refusal with hsame | ⟨rfl, hdone⟩
            · exact .inl hsame
            · exact .inr ⟨_, .cancel now hm, hdone⟩
          · exact ⟨w', h, .inl rfl⟩
        · exact ⟨w', h, .inl rfl⟩
    · exact ⟨w', h, .inl rfl⟩

theorem mem_sent {d : Dispatch} {now : Moment} {e : Dispatch.Event} {m : Message} (h : m ∈ sent d (now, e)) :
    (∃ id run t, e = .begin id ∧ d.run? id = some run ∧ run.phase = .accepted ∧ t ∈ run.tasks ∧
      m = .start id t.order) ∨
    ∃ ids call j node, e = .cancel ids ∧ (d.stepAt (now, e)).cancels[d.cancels.length]? = some call ∧
      j ∈ call.jobs ∧ node ∈ j.waiting ∧ m = .cancel d.cancels.length j.id node := by
  cases e with
  | begin id =>
    simp only [sent] at h
    split at h
    · rename_i run after hrun hafter
      split at h
      · rename_i hphase
        obtain ⟨t, ht, rfl⟩ := List.mem_map.1 h
        exact .inl ⟨id, run, t, rfl, hrun, hphase, ht, rfl⟩
      · cases h
    · cases h
  | cancel ids =>
    simp only [sent] at h
    split at h
    · rename_i call hcall
      obtain ⟨j, hj, hmem⟩ := List.mem_flatMap.1 h
      obtain ⟨node, hnode, rfl⟩ := List.mem_map.1 hmem
      exact .inr ⟨ids, call, j, node, rfl, hcall, hj, hnode, rfl⟩
    · cases h
  | _ => cases h

/-- A message was on its way, or the event sends it. -/
theorem mem_wire_step {c : Cluster} {e : Event} {m : Message} (h : m ∈ (c.step e).wire) :
    m ∈ c.wire ∨ c.Sends e m := by
  cases e with
  | head now e =>
    simp only [step] at h
    split at h
    · rcases List.mem_append.1 h with h | h
      · exact .inl h
      · rcases mem_sent h with ⟨id, run, t, rfl, hrun, hphase, ht, rfl⟩ |
          ⟨ids, call, j, node, rfl, hcall, hj, hnode, rfl⟩
        · exact .inr (.start now hrun hphase ht)
        · exact .inr (.cancel now hcall hj hnode)
    · exact .inl h
  | lose k => exact .inl (List.mem_of_mem_eraseIdx h)
  | work address event =>
    simp only [step] at h
    split at h <;> exact .inl h
  | arrive k now refusal =>
    simp only [step] at h
    split at h
    · rename_i message hm
      have hrest {message : Message} (h : message ∈ c.wire.eraseIdx k) : message ∈ c.wire :=
        List.mem_of_mem_eraseIdx h
      cases message with
      | started | canceled =>
        rcases List.mem_append.1 h with h | h
        · exact .inl (hrest h)
        · cases h
      | start id order =>
        simp only [receive] at h
        split at h
        · rename_i w hw
          obtain ⟨accepted, heq⟩ := startAt_eq { c with wire := c.wire.eraseIdx k } w id order
          rw [heq] at h
          rcases List.mem_append.1 h with h | h
          · exact .inl (hrest h)
          · rw [List.mem_singleton.1 h]
            exact .inr (.started now refusal accepted hm)
        · exact .inl (hrest h)
      | cancel call id node =>
        simp only [receive] at h
        split at h
        · rename_i w hw
          rcases List.mem_append.1 h with h | h
          · exact .inl (hrest h)
          · rw [List.mem_singleton.1 h]
            exact .inr (.canceled now refusal hm hw)
        · exact .inl (hrest h)
    · exact .inl h

end Cluster

end Muster
