import Mathlib.Data.List.Induction
import Muster.Proofs.DisplayName
import Muster.Proofs.Sorted

/-!
# What is known of one node

The last heartbeat of a node, its counter, and the attempt to ask for its name that is under way. An event
changes them in one of a few ways, and events of other nodes leave them alone. There is an attempt only while
the counter says so, and never a second one.
-/

namespace Muster

theorem SortedMap.get?_erase_of_ne {κ α : Type} [Ord κ] [Std.LawfulEqOrd κ] (m : SortedMap κ α) {k j : κ}
    (h : j ≠ k) : (m.erase k).get? j = m.get? j := by
  ext v
  rw [get?_erase_eq_some_iff, and_iff_right h]

namespace Liveness

@[simp] theorem run_nil (timeout : Int) (l : Liveness) : l.run timeout [] = l := rfl

@[simp] theorem run_concat (timeout : Int) (l : Liveness) (events : List Event) (e : Event) :
    l.run timeout (events ++ [e]) = (l.run timeout events).step timeout e := by
  rw [run_append]
  rfl

/-! ### What happens to a node -/

section

variable (timeout : Int) (d : String) (l : Liveness) (e : Event)

/-- A heartbeat of the node is accepted. -/
def Reports : Prop :=
  ∃ nodename host l', e = .heartbeat nodename host ∧ l.heartbeat timeout nodename host = .ok (l', d)

/-- The last heartbeat of the node was longer ago than the timeout. -/
def IsLate : Prop := ∃ last, l.reported.get? d = some last ∧ l.isGap timeout last

/-- A heartbeat of the node that comes after a gap. -/
def Reconnects : Prop := Reports timeout d l e ∧ IsLate timeout d l

/-- The first heartbeat of the node, or one that comes after a gap. -/
def Opens : Prop := Reports timeout d l e ∧ (l.reported.get? d = none ∨ IsLate timeout d l)

/-- An attempt for the node asks its host. -/
def Asks (a : Attempt) : Prop :=
  e = .ask a ∧ a ∈ l.pending ∧ a.asked = false ∧ a.due ≤ l.now ∧ a.display = d

/-- An attempt for the node that has asked ends. -/
def Completes (a : Attempt) (reply : ProbeReply) : Prop :=
  e = .answer a reply ∧ a ∈ l.pending ∧ a.asked ∧ a.display = d

end

/-- Something happened at some time of a run, and something else has not happened since then. -/
def Since (timeout : Int) (l : Liveness) (events : List Event) (p q : Liveness → Event → Prop) : Prop :=
  ∃ s e t, events = s ++ e :: t ∧ p (l.run timeout s) e ∧
    ∀ u e' v, t = u ++ e' :: v → ¬ q (l.run timeout (s ++ e :: u)) e'

section

variable {timeout : Int} {l : Liveness} {p q : Liveness → Event → Prop}

theorem not_since_nil : ¬ l.Since timeout [] p q := by
  rintro ⟨s, e, t, h, -⟩
  simp at h

theorem since_concat (events : List Event) (e : Event) :
    l.Since timeout (events ++ [e]) p q ↔
      p (l.run timeout events) e ∨ l.Since timeout events p q ∧ ¬ q (l.run timeout events) e := by
  constructor
  · rintro ⟨s, e', t, h, hp, hq⟩
    obtain rfl | ⟨front, last, rfl⟩ := List.eq_nil_or_concat t
    · obtain ⟨rfl, he⟩ := List.append_inj' h rfl
      cases he
      exact .inl hp
    · rw [List.concat_eq_append, ← List.cons_append, ← List.append_assoc] at h
      obtain ⟨rfl, he⟩ := List.append_inj' h rfl
      cases he
      refine .inr ⟨⟨s, e', front, rfl, hp, ?_⟩, hq front e [] (by simp)⟩
      intro u e'' v hfront
      exact hq u e'' (v ++ [e]) (by simp [hfront])
  · rintro (hp | ⟨⟨s, e', t, rfl, hp, hq⟩, hlast⟩)
    · exact ⟨events, e, [], rfl, hp, by simp⟩
    · refine ⟨s, e', t ++ [e], by simp, hp, ?_⟩
      intro u e'' v h
      obtain rfl | ⟨front, last, rfl⟩ := List.eq_nil_or_concat v
      · obtain ⟨rfl, he⟩ := List.append_inj' h rfl
        cases he
        exact hlast
      · rw [List.concat_eq_append, ← List.cons_append, ← List.append_assoc] at h
        obtain ⟨rfl, -⟩ := List.append_inj' h rfl
        exact hq u e'' front rfl

end

/-! ### One node -/

/-- What is known of one node. -/
structure Watch where
  reported : Option Nat
  counter : Option Int
  pending : List Attempt

def watch (d : String) (l : Liveness) : Watch :=
  ⟨l.reported.get? d, l.counters.get? d, l.pending.filter fun a => a.display == d⟩

theorem mem_watch {d : String} {l : Liveness} {a : Attempt} :
    a ∈ (l.watch d).pending ↔ a ∈ l.pending ∧ a.display = d := by
  simp [watch]

/-- An attempt for a node that begins now, after some failures. -/
def attempt (d : String) (failures : Int) (l : Liveness) : Attempt where
  display := d
  name := Address.nameOf d
  host := Address.ofDisplayName d
  failures
  due := if 0 < failures then l.now + backoff failures else l.now

/-- The attempt that begins, unless everything was shut down. -/
def begun (d : String) (failures : Int) (l : Liveness) : List Attempt :=
  if l.stopped then [] else [l.attempt d failures]

/-- An attempt once another is marked as asked. -/
def marked (a b : Attempt) : Attempt := if b = a then { b with asked := true } else b

/-- The ways in which an event changes what is known of a node. -/
inductive Turn (timeout : Int) (d : String) (l : Liveness) (e : Event) : Watch → Prop
  | stayed (hreport : ¬ Reports timeout d l e) (hcompletes : ∀ a reply, ¬ Completes d l e a reply) :
      Turn timeout d l e (l.watch d)
  | asked {a : Attempt} (he : e = .ask a) (ha : a ∈ (l.watch d).pending) (hopen : a.asked = false)
      (hdue : a.due ≤ l.now) :
      Turn timeout d l e { l.watch d with pending := (l.watch d).pending.map (marked a) }
  | noted {n : Int} (hreport : Reports timeout d l e) (hcounter : (l.watch d).counter = some n)
      (hn : n ≤ 0 ∨ pinned ≤ n) (hkept : n = validating ∨ ¬ IsLate timeout d l) :
      Turn timeout d l e { l.watch d with reported := some l.now }
  | retried {n : Int} (hreport : Reports timeout d l e) (hcounter : (l.watch d).counter = some n)
      (hn : 0 < n ∧ n < pinned) (hkept : ¬ IsLate timeout d l) :
      Turn timeout d l e ⟨some l.now, some validating, (l.watch d).pending ++ l.begun d n⟩
  | started (hreport : Reports timeout d l e) (hnew : (l.watch d).counter = none ∨
        (l.watch d).counter ≠ some validating ∧ IsLate timeout d l) :
      Turn timeout d l e ⟨some l.now, some validating, (l.watch d).pending ++ l.begun d 0⟩
  | completed {a : Attempt} {reply : ProbeReply} (h : Completes d l e a reply) :
      Turn timeout d l e { l.watch d with
        pending := (l.watch d).pending.erase a
        counter := if (l.watch d).counter = some validating then some (outcome a.name a.failures reply)
          else (l.watch d).counter }
  | stopped (he : e = .shutdown) : Turn timeout d l e { l.watch d with pending := [] }

section

variable {timeout : Int} {d : String} {l : Liveness}

/-- Whether a heartbeat comes after a gap. -/
def isLate (timeout : Int) (d : String) (l : Liveness) : Bool :=
  match l.reported.get? d with
  | some last => l.isGap timeout last
  | none => false

theorem isLate_iff : l.isLate timeout d ↔ IsLate timeout d l := by
  unfold isLate IsLate
  split
  · rename_i last hlast
    simp [hlast]
  · rename_i hnone
    simp [hnone]

/-- A heartbeat is noted, and after a gap the counter is taken away. -/
def renewed (timeout : Int) (d : String) (l : Liveness) : Liveness :=
  if l.isLate timeout d && l.counters.get? d != some validating then
    { l with reported := l.reported.insert d l.now, counters := l.counters.erase d }
  else { l with reported := l.reported.insert d l.now }

theorem note_eq (name host : String) : l.note timeout d name host =
    match attemptDue? ((l.renewed timeout d).counters.get? d) with
    | some failures => (l.renewed timeout d).begin d name host failures
    | none => l.renewed timeout d := rfl

theorem watch_renewed : (l.renewed timeout d).watch d = ⟨some l.now,
    if l.isLate timeout d && (l.watch d).counter != some validating then none else (l.watch d).counter,
    (l.watch d).pending⟩ := by
  unfold renewed
  split
  · rename_i hlate
    have hcounter : (l.watch d).counter = l.counters.get? d := rfl
    simp only [hcounter, if_pos hlate]
    simp [watch]
  · rename_i hlate
    have hcounter : (l.watch d).counter = l.counters.get? d := rfl
    simp only [hcounter, if_neg hlate]
    simp [watch]

theorem watch_renewed_of_ne {other : String} (hne : d ≠ other) :
    (l.renewed timeout other).watch d = l.watch d := by
  unfold renewed
  split
  · simp [watch, SortedMap.get?_insert_of_ne _ _ hne, SortedMap.get?_erase_of_ne _ hne]
  · simp [watch, SortedMap.get?_insert_of_ne _ _ hne]

theorem begun_renewed (n : Int) : (l.renewed timeout d).begun d n = l.begun d n := by
  unfold renewed
  split <;> rfl

theorem pending_begin (failures : Int) :
    (l.begin d (Address.nameOf d) (Address.ofDisplayName d) failures).pending = l.pending ++ l.begun d failures := by
  cases hstopped : l.stopped <;> simp [begin, begun, attempt, hstopped]

theorem watch_begin (failures : Int) :
    (l.begin d (Address.nameOf d) (Address.ofDisplayName d) failures).watch d =
      ⟨l.reported.get? d, some validating, (l.watch d).pending ++ l.begun d failures⟩ := by
  have hown : (l.begun d failures).filter (fun a => a.display == d) = l.begun d failures := by
    unfold begun
    split
    · rfl
    · simp [attempt]
  simp only [watch, pending_begin, List.filter_append, hown]
  simp [begin]

theorem watch_begin_of_ne {other : String} (hne : d ≠ other) (name host : String) (failures : Int) :
    (l.begin other name host failures).watch d = l.watch d := by
  have hpending : (l.begin other name host failures).pending.filter (fun a => a.display == d) =
      l.pending.filter fun a => a.display == d := by
    cases hstopped : l.stopped <;> simp [begin, hstopped, Ne.symm hne]
  simp only [watch, hpending]
  simp [begin, SortedMap.get?_insert_of_ne _ _ hne]

/-- A heartbeat of another node changes nothing. -/
theorem watch_note_of_ne {other : String} (hne : d ≠ other) (name host : String) :
    (l.note timeout other name host).watch d = l.watch d := by
  rw [note_eq]
  split
  · rw [watch_begin_of_ne hne, watch_renewed_of_ne hne]
  · exact watch_renewed_of_ne hne

/-- What a heartbeat of the node does. -/
theorem turn_note {e : Event} (hreport : Reports timeout d l e) :
    Turn timeout d l e
      ((l.note timeout d (Address.nameOf d) (Address.ofDisplayName d)).watch d) := by
  have hcounter : (l.renewed timeout d).counters.get? d =
      if l.isLate timeout d && (l.watch d).counter != some validating then none else (l.watch d).counter :=
    congrArg Watch.counter watch_renewed
  have hreported : (l.renewed timeout d).reported.get? d = some l.now := congrArg Watch.reported watch_renewed
  have hbegin (n : Int) : ((l.renewed timeout d).begin d (Address.nameOf d) (Address.ofDisplayName d) n).watch d =
      ⟨some l.now, some validating, (l.watch d).pending ++ l.begun d n⟩ := by
    rw [watch_begin, hreported, begun_renewed, watch_renewed]
  rw [note_eq, hcounter]
  by_cases hrenew : l.isLate timeout d && (l.watch d).counter != some validating
  · simp only [if_pos hrenew, attemptDue?]
    rw [hbegin]
    simp only [Bool.and_eq_true, bne_iff_ne] at hrenew
    exact .started hreport (.inr ⟨hrenew.2, isLate_iff.1 hrenew.1⟩)
  · rw [if_neg hrenew]
    cases hold : (l.watch d).counter with
    | none =>
      simp only [attemptDue?]
      rw [hbegin]
      exact .started hreport (.inl hold)
    | some n =>
      have hkept : n = validating ∨ ¬ IsLate timeout d l := by
        by_contra hboth
        rw [not_or, not_not] at hboth
        simp [hold, hboth.1, isLate_iff.2 hboth.2] at hrenew
      by_cases hn : 0 < n ∧ n < pinned
      · simp only [attemptDue?, if_pos hn]
        rw [hbegin]
        exact .retried hreport hold hn (hkept.resolve_left (Int.ne_of_gt hn.1))
      · simp only [attemptDue?, if_neg hn]
        rw [watch_renewed, if_neg hrenew]
        exact .noted hreport hold (by omega) hkept

/-- Only waiting takes time, and a heartbeat shuts nothing down. -/
theorem now_note (other name host : String) :
    (l.note timeout other name host).now = l.now ∧ (l.note timeout other name host).stopped = l.stopped := by
  have hrenewed : (l.renewed timeout other).now = l.now ∧ (l.renewed timeout other).stopped = l.stopped := by
    unfold renewed
    split <;> exact ⟨rfl, rfl⟩
  rw [note_eq]
  split
  · exact hrenewed
  · exact hrenewed

theorem now_step {e : Event} (he : ∀ ms, e ≠ .wait ms) : (l.step timeout e).now = l.now := by
  cases e with
  | heartbeat nodename host =>
    rw [step]
    split
    · rename_i hbeat
      obtain ⟨-, rfl⟩ := heartbeat_eq_ok hbeat
      exact (now_note _ _ _).1
    · rfl
  | wait ms => exact absurd rfl (he ms)
  | ask | answer =>
    rw [step]
    split <;> rfl
  | shutdown => rfl

theorem stopped_step {e : Event} (he : e ≠ .shutdown) : (l.step timeout e).stopped = l.stopped := by
  cases e with
  | heartbeat nodename host =>
    rw [step]
    split
    · rename_i hbeat
      obtain ⟨-, rfl⟩ := heartbeat_eq_ok hbeat
      exact (now_note _ _ _).2
    · rfl
  | wait ms => rfl
  | ask | answer =>
    rw [step]
    split <;> rfl
  | shutdown => exact absurd rfl he

theorem marked_display (a b : Attempt) : (marked a b).display = b.display := by
  unfold marked
  split <;> rfl

theorem watch_ask (a : Attempt) : ({ l with pending := l.pending.map (marked a) } : Liveness).watch d =
    if a.display = d then { l.watch d with pending := (l.watch d).pending.map (marked a) } else l.watch d := by
  have hpending : (l.pending.map (marked a)).filter (fun b => b.display == d) =
      (l.watch d).pending.map (marked a) := by
    rw [List.filter_map]
    simp only [Function.comp_def, marked_display]
    rfl
  split
  · simp only [watch, hpending]
  · rename_i hne
    have hsame : (l.watch d).pending.map (marked a) = (l.watch d).pending := by
      refine (List.map_congr_left ?_).trans (List.map_id' _)
      intro b hb
      rw [marked, if_neg]
      rintro rfl
      exact hne (mem_watch.1 hb).2
    rw [hsame] at hpending
    rw [watch, hpending]
    rfl

theorem watch_conclude (a : Attempt) (reply : ProbeReply) : (l.conclude a reply).watch d =
    if a.display = d then { l.watch d with
      pending := (l.watch d).pending.erase a
      counter := if (l.watch d).counter = some validating then some (outcome a.name a.failures reply)
        else (l.watch d).counter }
    else l.watch d := by
  have hpending : (l.pending.erase a).filter (fun b => b.display == d) = (l.watch d).pending.erase a :=
    List.erase_filter.symm
  have hreported : (l.conclude a reply).reported = l.reported := rfl
  split
  · rename_i hd
    subst hd
    unfold conclude
    simp only [watch, hpending, Watch.mk.injEq, true_and, and_true]
    split <;> simp_all
  · rename_i hne
    have herase : (l.watch d).pending.erase a = (l.watch d).pending :=
      List.erase_of_not_mem fun hmem => hne (mem_watch.1 hmem).2
    have hcounter : (l.conclude a reply).counters.get? d = l.counters.get? d := by
      unfold conclude
      simp only
      split
      · exact SortedMap.get?_insert_of_ne _ _ (Ne.symm hne)
      · rfl
    rw [watch, hcounter, hreported]
    have hrest : (l.conclude a reply).pending.filter (fun b => b.display == d) = (l.watch d).pending :=
      hpending.trans herase
    rw [hrest]
    rfl

/-- A heartbeat ends no attempt. -/
theorem not_completes_of_reports {e : Event} (h : Reports timeout d l e) (a : Attempt) (reply : ProbeReply) :
    ¬ Completes d l e a reply := by
  obtain ⟨nodename, host, l', rfl, -⟩ := h
  rintro ⟨he, -⟩
  cases he

/-- Every event changes what is known of a node in one of these ways. -/
theorem turn_step (timeout : Int) (d : String) (l : Liveness) (e : Event) :
    Turn timeout d l e ((l.step timeout e).watch d) := by
  have hstays (hreport : ¬ Reports timeout d l e) (hcompletes : ∀ a reply, ¬ Completes d l e a reply)
      (hsame : (l.step timeout e).watch d = l.watch d) : Turn timeout d l e ((l.step timeout e).watch d) := by
    rw [hsame]
    exact .stayed hreport hcompletes
  cases e with
  | heartbeat nodename host =>
    have hcompletes : ∀ a reply, ¬ Completes d l (.heartbeat nodename host) a reply := by
      rintro a reply ⟨he, -⟩
      cases he
    cases hbeat : l.heartbeat timeout nodename host with
    | error fault =>
      refine hstays ?_ hcompletes (by rw [step, hbeat])
      rintro ⟨_, _, _, he, hok⟩
      cases he
      rw [hbeat] at hok
      cases hok
    | ok r =>
      obtain ⟨l', other⟩ := r
      have hstep : l.step timeout (.heartbeat nodename host) = l' := by rw [step, hbeat]
      obtain ⟨-, rfl⟩ := heartbeat_eq_ok hbeat
      by_cases hne : d = other
      · subst hne
        rw [hstep]
        exact turn_note ⟨nodename, host, _, rfl, hbeat⟩
      · refine hstays ?_ hcompletes (by rw [hstep, watch_note_of_ne hne])
        rintro ⟨_, _, _, he, hok⟩
        cases he
        rw [hbeat, Except.ok.injEq, Prod.mk.injEq] at hok
        exact hne hok.2.symm
  | wait ms => exact hstays (by rintro ⟨_, _, _, he, -⟩; cases he) (by rintro _ _ ⟨he, -⟩; cases he) rfl
  | ask a =>
    have hreport : ¬ Reports timeout d l (.ask a) := by
      rintro ⟨_, _, _, he, -⟩
      cases he
    have hcompletes : ∀ b reply, ¬ Completes d l (.ask a) b reply := by
      rintro _ _ ⟨he, -⟩
      cases he
    by_cases hcan : a ∈ l.pending ∧ !a.asked ∧ a.due ≤ l.now
    · have hwatch : (l.step timeout (.ask a)).watch d = if a.display = d then
          { l.watch d with pending := (l.watch d).pending.map (marked a) } else l.watch d := by
        rw [step, if_pos hcan]
        exact watch_ask a
      by_cases hd : a.display = d
      · rw [hwatch, if_pos hd]
        exact .asked rfl (mem_watch.2 ⟨hcan.1, hd⟩) (by simpa using hcan.2.1) hcan.2.2
      · exact hstays hreport hcompletes (by rw [hwatch, if_neg hd])
    · exact hstays hreport hcompletes (by rw [step, if_neg hcan])
  | answer a reply =>
    have hreport : ¬ Reports timeout d l (.answer a reply) := by
      rintro ⟨_, _, _, he, -⟩
      cases he
    by_cases hcan : a ∈ l.pending ∧ a.asked ∧ a.display = d
    · rw [step, if_pos ⟨hcan.1, hcan.2.1⟩, watch_conclude, if_pos hcan.2.2]
      exact .completed ⟨rfl, hcan⟩
    · have hcompletes : ∀ b r, ¬ Completes d l (.answer a reply) b r := by
        rintro b r ⟨he, hb⟩
        cases he
        exact hcan hb
      refine hstays hreport hcompletes ?_
      rw [step]
      split
      · rename_i hasked
        have hne : a.display ≠ d := fun hd => hcan ⟨hasked.1, hasked.2, hd⟩
        rw [watch_conclude, if_neg hne]
      · rfl
  | shutdown => exact .stopped rfl

end

/-! ### One attempt at a time -/

/-- The attempt for a node goes with its counter, its name and its address. -/
structure Watch.Fits (d : String) (w : Watch) : Prop where
  single : w.pending.length ≤ 1
  probing : w.pending ≠ [] → w.counter = some validating
  known : w.counter ≠ none → w.reported ≠ none
  own : ∀ a ∈ w.pending, a.display = d ∧ a.name = Address.nameOf d ∧ a.host = Address.ofDisplayName d
  failures : ∀ a ∈ w.pending, 0 ≤ a.failures ∧ a.failures < pinned
  range : ∀ n, w.counter = some n → validated ≤ n ∧ n ≤ pinned

section

variable {timeout : Int} {d : String} {l : Liveness} {e : Event} {w : Watch}

theorem Turn.reported_eq (ht : Turn timeout d l e w) (hno : ¬ Reports timeout d l e) :
    w.reported = (l.watch d).reported := by
  cases ht with
  | noted hreport | retried hreport | started hreport => exact absurd hreport hno
  | stayed | asked | completed | stopped => rfl

theorem Watch.Fits.pending_eq_nil (h : w.Fits d) (hcounter : w.counter ≠ some validating) : w.pending = [] := by
  by_contra hne
  exact hcounter (h.probing hne)

theorem Watch.Fits.pending_eq (h : w.Fits d) {a : Attempt} (ha : a ∈ w.pending) : w.pending = [a] := by
  obtain ⟨b, hb⟩ := List.length_eq_one_iff.1 (Nat.le_antisymm h.single (List.length_pos_of_mem ha))
  rw [hb] at ha ⊢
  rw [List.mem_singleton.1 ha]

theorem begun_eq (h : l.stopped = false) (n : Int) : l.begun d n = [l.attempt d n] := by
  simp [begun, h]

theorem mem_begun {n : Int} {a : Attempt} (h : a ∈ l.begun d n) : a = l.attempt d n := by
  unfold begun at h
  split at h
  · cases h
  · exact List.mem_singleton.1 h

theorem length_begun (n : Int) : (l.begun d n).length ≤ 1 := by
  unfold begun
  split <;> simp

theorem fits_begun {n : Int} (hn : 0 ≤ n ∧ n < pinned) (t : Nat) :
    (⟨some t, some validating, l.begun d n⟩ : Watch).Fits d := by
  refine ⟨length_begun n, fun _ => rfl, by simp, ?_, ?_, ?_⟩
  · intro a ha
    rw [mem_begun ha]
    exact ⟨rfl, rfl, rfl⟩
  · intro a ha
    rw [mem_begun ha]
    exact hn
  · rintro _ ⟨⟩
    decide

theorem outcome_range {failures : Int} (h : 0 ≤ failures) (name : String) (reply : ProbeReply) :
    validated ≤ outcome name failures reply ∧ outcome name failures reply ≤ pinned := by
  unfold outcome validated pinned
  cases reply with
  | named replied =>
    simp only
    split <;> decide
  | unreachable =>
    simp only
    omega

/-- Each way of a change keeps the attempt with the counter. -/
theorem Turn.fits (ht : Turn timeout d l e w) (h : (l.watch d).Fits d) : w.Fits d := by
  cases ht with
  | stayed => exact h
  | asked =>
    refine ⟨by simpa using h.single, by simpa using h.probing, h.known, ?_, ?_, h.range⟩
    · intro b hb
      obtain ⟨c, hc, rfl⟩ := List.mem_map.1 hb
      have hown := h.own c hc
      unfold marked
      split <;> exact hown
    · intro b hb
      obtain ⟨c, hc, rfl⟩ := List.mem_map.1 hb
      have hfailures := h.failures c hc
      unfold marked
      split <;> exact hfailures
  | noted => exact ⟨h.single, h.probing, by simp, h.own, h.failures, h.range⟩
  | @retried n _ hcounter hn =>
    have hne : (l.watch d).counter ≠ some validating := by
      rw [hcounter]
      rintro ⟨⟩
      exact absurd hn.1 (by decide)
    rw [h.pending_eq_nil hne, List.nil_append]
    exact fits_begun ⟨Int.le_of_lt hn.1, hn.2⟩ l.now
  | started _ hnew =>
    have hne : (l.watch d).counter ≠ some validating := by
      rcases hnew with hnone | ⟨hne, -⟩
      · simp [hnone]
      · exact hne
    rw [h.pending_eq_nil hne, List.nil_append]
    exact fits_begun (by decide) l.now
  | @completed a reply hdone =>
    have ha := mem_watch.2 ⟨hdone.2.1, hdone.2.2.2⟩
    have hprobing := h.probing (List.ne_nil_of_mem ha)
    rw [h.pending_eq ha, List.erase_cons_head, if_pos hprobing]
    refine ⟨by simp, by simp, fun _ => h.known (by simp [hprobing]), by simp, by simp, ?_⟩
    rintro _ ⟨⟩
    exact outcome_range (h.failures a ha).1 a.name reply
  | stopped => exact ⟨by simp, by simp, h.known, by simp, by simp, h.range⟩

/-- There is an attempt only while the counter says so, and never a second one. -/
theorem fits_run (localName : String) (timeout : Int) (events : List Event) (d : String) :
    (((ofLocal localName).run timeout events).watch d).Fits d := by
  induction events using List.reverseRecOn with
  | nil => exact ⟨by simp [watch, ofLocal], by simp [watch, ofLocal], by simp [watch, ofLocal],
      by simp [watch, ofLocal], by simp [watch, ofLocal], by simp [watch, ofLocal]⟩
  | append_singleton events e ih =>
    rw [run_concat]
    exact (turn_step timeout d _ e).fits ih

end

/-! ### A node that reports under its own name -/

/-- The attempt for a node that reports under its own name. -/
def ownAttempt (failures : Int) (due : Nat) (asked : Bool) : Attempt :=
  { display := "NODE", name := "NODE", host := "NODE:50505", failures, due, asked }

theorem heartbeat_node (timeout : Int) (l : Liveness) :
    l.heartbeat timeout "node" "node" = .ok (l.note timeout "NODE" "NODE" "NODE:50505", "NODE") := by
  have hname : claimedName "node" = .ok "NODE" := by
    have hplain : ("node".contains '(' || "node".contains ')') = false := by simp
    rw [claimedName, hplain]
    decide +kernel
  have haddress : Address.parse "node" l.localName = .ok ⟨"NODE", 50505⟩ := rfl
  have hdisplay : (Address.displayName ⟨"NODE", 50505⟩ "NODE") = "NODE" := by decide +kernel
  rw [heartbeat, hname, haddress]
  simp only [bind, Except.bind, hdisplay]
  rfl

theorem reports_node (timeout : Int) (l : Liveness) : Reports timeout "NODE" l (.heartbeat "node" "node") :=
  ⟨"node", "node", _, rfl, heartbeat_node timeout l⟩

theorem step_node (timeout : Int) (l : Liveness) :
    l.step timeout (.heartbeat "node" "node") = l.note timeout "NODE" "NODE" "NODE:50505" := by
  rw [step, heartbeat_node]

theorem run_node (timeout : Int) (l : Liveness) (events : List Event) :
    l.run timeout (.heartbeat "node" "node" :: events) =
      (l.note timeout "NODE" "NODE" "NODE:50505").run timeout events := by
  rw [run, List.foldl_cons, step_node]
  rfl

end Liveness

end Muster
