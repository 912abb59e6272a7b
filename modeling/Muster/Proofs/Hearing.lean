import Muster.Proofs.Listing

/-!
# What is heard of a node

A node answers its call or refuses it, and one that answers sends replies until its stream ends. From when the
calls of a job are made, what the events tell of a node decides its code and the frames that are offered to the
submitter, whatever else happens meanwhile.
-/

namespace Muster

namespace Dispatch

/-! ### Answers -/

/-- The last code that the replies bring. -/
def lastCode (replies : List Reply) : Option Int := (replies.filterMap Reply.exitCode).getLast?

theorem lastCode_concat (replies : List Reply) (r : Reply) :
    lastCode (replies ++ [r]) = r.code (lastCode replies) := by
  unfold lastCode Reply.code
  cases h : r.exitCode <;> simp [List.filterMap_append, h]

namespace Answer

def replies : Answer → List Reply
  | refused => []
  | stream replies => replies

def exitCode (a : Answer) : Int := (lastCode a.replies).getD exitUnreachable

/-- What there is for the submitter: the output, reply by reply, and behind it the code. -/
def frames (a : Answer) : List Frame := a.replies.flatMap Reply.frames ++ [.exit a.exitCode]

end Answer

/-! ### What the events tell -/

/-- The call that an event belongs to. -/
def Event.call? : Event → Option (Int × String)
  | .answered id node _ | .reply id node _ | .ended id node => some (id, node)
  | .submit .. | .begin _ | .launch _ | .finish _ | .leave _ | .cancel _ | .cancelAnswered ..
  | .cancelEnded .. => none

/-- How much of a node's answer is known. -/
inductive Hearing
  | nothing
  | part (replies : List Reply)
  | whole (answer : Answer)
  deriving DecidableEq, Repr

namespace Hearing

/-- What is known after an event of the node; one that cannot come tells nothing. -/
def hear : Hearing → Event → Hearing
  | nothing, .answered _ _ true => part []
  | nothing, .answered _ _ false => whole .refused
  | part replies, .reply _ _ r => part (replies ++ [r])
  | part replies, .ended _ _ => whole (.stream replies)
  | h, _ => h

/-- What is known after an event of whatever call. -/
def heed (id : Int) (node : String) (h : Hearing) (e : Moment × Event) : Hearing :=
  if e.2.call? = some (id, node) then h.hear e.2 else h

def replies : Hearing → List Reply
  | nothing => []
  | part replies => replies
  | whole answer => answer.replies

/-- Something was sent to standard error. -/
def hasErrors (h : Hearing) : Bool := h.replies.any fun r => r.stderr ≠ ""

/-- What is offered to the submitter so far. -/
def frames : Hearing → List Frame
  | whole answer => answer.frames
  | h => h.replies.flatMap Reply.frames

@[simp] theorem hear_whole (answer : Answer) (e : Event) : (whole answer).hear e = whole answer := by
  cases e <;> rfl

@[simp] theorem heed_whole (id : Int) (node : String) (answer : Answer) (e : Moment × Event) :
    (whole answer).heed id node e = whole answer := by
  simp [heed]

theorem heed_of_ne {id : Int} {node : String} (h : Hearing) {e : Moment × Event}
    (he : e.2.call? ≠ some (id, node)) : h.heed id node e = h := if_neg he

theorem foldl_hear_replies (id : Int) (node : String) (before l : List Reply) :
    (l.map fun r => Event.reply id node r).foldl hear (part before) = part (before ++ l) := by
  induction l generalizing before with
  | nil => simp
  | cons r rest ih => simpa [hear] using ih (before ++ [r])

/-- Every answer is known once its events have come. -/
theorem foldl_hear_events (id : Int) (node : String) (answer : Answer) :
    (answer.events id node).foldl hear nothing = whole answer := by
  cases answer with
  | refused => rfl
  | stream replies =>
    rw [Answer.events, List.cons_append, List.foldl_cons, List.foldl_append]
    change ([Event.ended id node]).foldl hear ((replies.map fun r => Event.reply id node r).foldl hear (part [])) = _
    rw [foldl_hear_replies]
    rfl

end Hearing

/-- The calls of a job are made. -/
def hasCalled (id : Int) (d : Dispatch) : Bool := (d.run? id).any fun run => run.phase ≠ .accepted

/-- What the events of a run tell of a node, from when its call is made. -/
def hearing (id : Int) (node : String) : Dispatch → History → Hearing
  | _, [] => .nothing
  | d, e :: rest =>
    if d.hasCalled id then (e :: rest).foldl (Hearing.heed id node) .nothing
    else hearing id node (d.stepAt e) rest

section

variable {id : Int} {node : String} {d : Dispatch} {events : History}

open Classical in
theorem hearing_concat (d : Dispatch) (events : History) (e : Moment × Event) :
    d.hearing id node (events ++ [e]) =
      if d.Reaches events fun d => d.hasCalled id then (d.hearing id node events).heed id node e else .nothing := by
  induction events generalizing d with
  | nil =>
    rw [reaches_nil]
    simp [hearing]
  | cons first rest ih =>
    rw [List.cons_append, hearing, hearing, reaches_cons]
    by_cases hcalled : d.hasCalled id
    · simp [hcalled]
    · simp [hcalled, ih]

theorem hearing_of_not_called (h : ¬ d.Reaches events fun d => d.hasCalled id) :
    d.hearing id node events = .nothing := by
  induction events using List.reverseRecOn with
  | nil => rfl
  | append_singleton events e =>
    rw [reaches_concat, not_or] at h
    rw [hearing_concat, if_neg h.1]

theorem hearing_concat_of_called (h : d.Reaches events fun d => d.hasCalled id) (e : Moment × Event) :
    d.hearing id node (events ++ [e]) = (d.hearing id node events).heed id node e := by
  rw [hearing_concat, if_pos h]

theorem hearing_append_of_called (h : d.Reaches events fun d => d.hasCalled id) (more : History) :
    d.hearing id node (events ++ more) = more.foldl (Hearing.heed id node) (d.hearing id node events) := by
  induction more using List.reverseRecOn with
  | nil => simp
  | append_singleton more e ih =>
    obtain ⟨s, hs, hcalled⟩ := h
    rw [← List.append_assoc, hearing_concat_of_called ⟨s, hs.trans (List.prefix_append _ _), hcalled⟩, ih,
      List.foldl_append]
    rfl

/-- Whatever else happens meanwhile, a node is heard once the events of its answer have come. -/
theorem hearing_of_answer (h : d.Reaches events fun d => d.hasCalled id)
    (hnothing : d.hearing id node events = .nothing) {more : History} {answer : Answer}
    (hmore : (more.map Prod.snd).filter (fun e => e.call? = some (id, node)) = answer.events id node) :
    d.hearing id node (events ++ more) = .whole answer := by
  rw [hearing_append_of_called h, hnothing, ← Hearing.foldl_hear_events id node answer, ← hmore, List.foldl_filter,
    List.foldl_map]
  simp only [decide_eq_true_eq]
  rfl

theorem hearing_of_prefix {s : History} (hs : s <+: events) {answer : Answer}
    (h : d.hearing id node s = .whole answer) : d.hearing id node events = .whole answer := by
  obtain ⟨more, rfl⟩ := hs
  induction more using List.reverseRecOn with
  | nil => simpa using h
  | append_singleton more e ih =>
    have hcalled : d.Reaches (s ++ more) fun d => d.hasCalled id := by
      by_contra hno
      rw [hearing_of_not_called hno] at ih
      cases ih
    rw [← List.append_assoc, hearing_concat_of_called hcalled, ih, Hearing.heed_whole]

end

end Dispatch

end Muster
