import Muster.Proofs.Watch

/-!
# When nodes are asked

There is an attempt for a node exactly while its counter says so. A node that is new, or that comes back when no
attempt is under way, is asked at once. After failures it is asked again some time after its next heartbeat, and
this time grows with their number. No other heartbeat starts anything.
-/

namespace Muster

namespace Liveness

/-- No attempt for the node is under way. -/
def Idle (d : String) (l : Liveness) : Prop := ∀ a ∈ l.pending, a.display ≠ d

section

variable (timeout : Int) (d : String) (l : Liveness) (e : Event)

/-- The first heartbeat of the node, or one after a gap that finds no attempt under way. -/
def Resets : Prop := Reports timeout d l e ∧ (l.reported.get? d = none ∨ IsLate timeout d l ∧ Idle d l)

/-- An attempt for the node is answered with a name. -/
def Answers : Prop := ∃ a name, Completes d l e a (.named name)

/-- One attempt for the node is started, and no other; it can ask from the time `due` on. -/
def Starts (due : Nat) : Prop :=
  ∃ a, (l.step timeout e).pending = l.pending ++ [a] ∧ a.display = d ∧ a.host = Address.ofDisplayName d ∧
    a.asked = false ∧ a.due = due

end

/-- Whether an attempt for the node ends without an answer. -/
def fails (d : String) (l : Liveness) : Event → Bool
  | .answer a .unreachable => a ∈ l.pending && a.asked && a.display == d
  | _ => false

/-- How many attempts for the node end without an answer. -/
def failuresIn (timeout : Int) (d : String) (l : Liveness) : List Event → Nat
  | [] => 0
  | e :: rest => (l.fails d e).toNat + (l.step timeout e).failuresIn timeout d rest

/-- Time does not pass while an attempt should ask. -/
def Prompt (timeout : Int) (l : Liveness) (events : List Event) : Prop :=
  ∀ s ms t, events = s ++ .wait ms :: t → ∀ a ∈ (l.run timeout s).pending, a.asked = false →
    (l.run timeout s).now + ms ≤ a.due

/-- A node that has reported has a counter, and there is an attempt whenever the counter says so. -/
structure Watch.Tended (w : Watch) : Prop where
  probing : w.counter = some validating → w.pending ≠ []
  listed : w.reported ≠ none → w.counter ≠ none

/-- A node after `n` failures in a row: it is about to be asked again, or waits for a heartbeat. -/
inductive Streak (n : Nat) (w : Watch) : Prop
  | trying {a : Attempt} (hcounter : w.counter = some validating) (hpending : w.pending = [a])
      (hfailures : a.failures = (min n 9 : Nat))
  | failing (hn : 0 < n) (hcounter : w.counter = some ((min n 9 : Nat) : Int)) (hpending : w.pending = [])

section

variable {timeout : Int} {d : String} {l : Liveness} {e : Event} {w : Watch}

theorem fails_iff : l.fails d e ↔ ∃ a, Completes d l e a .unreachable := by
  constructor
  · intro h
    unfold fails at h
    split at h
    · rename_i a
      simp only [Bool.and_eq_true, decide_eq_true_eq, beq_iff_eq] at h
      exact ⟨a, rfl, h.1.1, h.1.2, h.2⟩
    · cases h
  · rintro ⟨a, rfl, hmem, hasked, hd⟩
    simp [fails, hmem, hasked, hd]

theorem fails_eq_false (h : ∀ a reply, ¬ Completes d l e a reply) : l.fails d e = false := by
  rw [Bool.eq_false_iff]
  intro hfails
  obtain ⟨a, ha⟩ := fails_iff.1 hfails
  exact h a .unreachable ha

theorem failuresIn_concat (rest : List Event) : l.failuresIn timeout d (rest ++ [e]) =
    l.failuresIn timeout d rest + ((l.run timeout rest).fails d e).toNat := by
  induction rest generalizing l with
  | nil => simp [failuresIn]
  | cons first rest ih =>
    rw [List.cons_append, failuresIn, ih, failuresIn, Nat.add_assoc]
    rfl

theorem idle_iff : Idle d l ↔ (l.watch d).pending = [] := by
  rw [List.eq_nil_iff_forall_not_mem]
  constructor
  · intro h a ha
    exact h a (mem_watch.1 ha).1 (mem_watch.1 ha).2
  · intro h a ha hd
    exact h a (mem_watch.2 ⟨ha, hd⟩)

theorem outcome_ne_validating {failures : Int} (h : 0 ≤ failures) (name : String) (reply : ProbeReply) :
    outcome name failures reply ≠ validating := by
  cases reply with
  | named replied =>
    simp only [outcome]
    split <;> decide
  | unreachable =>
    simp only [outcome, validating, pinned]
    omega

/-! ### Steps -/

/-- A heartbeat only adds attempts for its own node. -/
theorem pending_of_reports (h : Reports timeout d l e) {new : List Attempt}
    (hwatch : ((l.step timeout e).watch d).pending = (l.watch d).pending ++ new) :
    (l.step timeout e).pending = l.pending ++ new := by
  obtain ⟨nodename, host, l', rfl, hbeat⟩ := h
  have hstep : l.step timeout (.heartbeat nodename host) = l' := by rw [step, hbeat]
  obtain ⟨-, rfl⟩ := heartbeat_eq_ok hbeat
  have hrenewed : (l.renewed timeout d).pending = l.pending := by
    unfold renewed
    split <;> rfl
  rw [hstep, note_eq] at hwatch ⊢
  split at hwatch
  · rename_i n _
    rw [watch_begin, begun_renewed, watch_renewed] at hwatch
    rw [pending_begin, begun_renewed, hrenewed, List.append_cancel_left hwatch]
  · rw [watch_renewed, List.self_eq_append_right] at hwatch
    rw [hwatch, List.append_nil, hrenewed]

theorem starts_of_watch (h : Reports timeout d l e) {n : Int}
    (hwatch : ((l.step timeout e).watch d).pending = (l.watch d).pending ++ [l.attempt d n]) :
    Starts timeout d l e (l.attempt d n).due :=
  ⟨l.attempt d n, pending_of_reports h hwatch, rfl, rfl, rfl, rfl⟩

/-- A heartbeat is only noted, or it starts an attempt: one more after some failures, or the first anew. -/
theorem Turn.of_reports (ht : Turn timeout d l e w) (hreport : Reports timeout d l e) :
    (∃ n, (l.watch d).counter = some n ∧ (n ≤ 0 ∨ pinned ≤ n) ∧ (n = validating ∨ ¬ IsLate timeout d l) ∧
        w = { l.watch d with reported := some l.now }) ∨
      (∃ n, (l.watch d).counter = some n ∧ (0 < n ∧ n < pinned) ∧ ¬ IsLate timeout d l ∧
        w = ⟨some l.now, some validating, (l.watch d).pending ++ l.begun d n⟩) ∨
      ((l.watch d).counter = none ∨ (l.watch d).counter ≠ some validating ∧ IsLate timeout d l) ∧
        w = ⟨some l.now, some validating, (l.watch d).pending ++ l.begun d 0⟩ := by
  cases ht with
  | stayed hno => exact absurd hreport hno
  | asked he =>
    subst he
    obtain ⟨_, _, _, he, -⟩ := hreport
    cases he
  | noted _ hcounter hn hkept => exact .inl ⟨_, hcounter, hn, hkept, rfl⟩
  | retried _ hcounter hn hkept => exact .inr (.inl ⟨_, hcounter, hn, hkept, rfl⟩)
  | started _ hnew => exact .inr (.inr ⟨hnew, rfl⟩)
  | completed hdone => exact absurd hdone (not_completes_of_reports hreport _ _)
  | stopped he =>
    subst he
    obtain ⟨_, _, _, he, -⟩ := hreport
    cases he

theorem Turn.tended (ht : Turn timeout d l e w) (hfits : (l.watch d).Fits d) (hstopped : l.stopped = false)
    (he : e ≠ .shutdown) (h : (l.watch d).Tended) : w.Tended := by
  cases ht with
  | stayed => exact h
  | asked => exact ⟨by simpa using h.probing, h.listed⟩
  | noted _ hcounter => exact ⟨h.probing, fun _ => by simp [hcounter]⟩
  | retried | started => exact ⟨by simp [begun_eq hstopped], by simp⟩
  | @completed a reply hdone =>
    have ha := mem_watch.2 ⟨hdone.2.1, hdone.2.2.2⟩
    rw [if_pos (hfits.probing (List.ne_nil_of_mem ha))]
    refine ⟨fun hcounter => ?_, by simp⟩
    exact absurd (Option.some.inj hcounter) (outcome_ne_validating (hfits.failures a ha).1 a.name reply)
  | stopped hshutdown => exact absurd hshutdown he

/-- A heartbeat that starts everything anew leaves one attempt, which is due at once. -/
theorem Turn.reset (ht : Turn timeout d l e w) (hfits : (l.watch d).Fits d) (h : (l.watch d).Tended)
    (hstopped : l.stopped = false) (hresets : Resets timeout d l e) :
    w = ⟨some l.now, some validating, (l.watch d).pending ++ [l.attempt d 0]⟩ := by
  obtain ⟨hreport, hcause⟩ := hresets
  have hopens {n : Int} (hcounter : (l.watch d).counter = some n) :
      IsLate timeout d l ∧ (l.watch d).pending = [] := by
    rcases hcause with hfirst | ⟨hlate, hidle⟩
    · exact absurd hfirst (hfits.known (by simp [hcounter]))
    · exact ⟨hlate, idle_iff.1 hidle⟩
  rcases ht.of_reports hreport with ⟨n, hcounter, -, hkept, -⟩ | ⟨n, hcounter, -, hkept, -⟩ | ⟨-, hw⟩
  · obtain ⟨hlate, hidle⟩ := hopens hcounter
    rcases hkept with rfl | hopen
    · exact absurd hidle (h.probing hcounter)
    · exact absurd hlate hopen
  · exact absurd (hopens hcounter).1 hkept
  · rw [hw, begun_eq hstopped]

/-- A failure more is counted, and nothing else changes the streak before an answer or a new beginning. -/
theorem Turn.streak (ht : Turn timeout d l e w) (hstopped : l.stopped = false) (he : e ≠ .shutdown)
    (hopen : ¬ (Resets timeout d l e ∨ Answers d l e)) {n : Nat} (h : Streak n (l.watch d)) :
    Streak (n + (l.fails d e).toNat) w := by
  obtain ⟨hresets, hanswers⟩ := not_or.1 hopen
  have hsame (hno : ∀ a reply, ¬ Completes d l e a reply) : n + (l.fails d e).toNat = n := by
    rw [fails_eq_false hno]
    rfl
  cases ht with
  | stayed _ hcompletes =>
    rw [hsame hcompletes]
    exact h
  | @asked a hask ha =>
    rw [hsame (by subst hask; rintro _ _ ⟨he, -⟩; cases he)]
    cases h with
    | @trying b hcounter hpending hfailures =>
      have hmarked : (marked a b).failures = b.failures := by
        unfold marked
        split <;> rfl
      exact .trying hcounter (by rw [hpending]; rfl) (hmarked.trans hfailures)
    | failing _ _ hpending =>
      rw [hpending] at ha
      cases ha
  | noted hreport =>
    rw [hsame (not_completes_of_reports hreport)]
    cases h with
    | trying hcounter hpending hfailures => exact .trying hcounter hpending hfailures
    | failing hn hcounter hpending => exact .failing hn hcounter hpending
  | @retried m hreport hcounter hm =>
    rw [hsame (not_completes_of_reports hreport)]
    cases h with
    | trying hprobing =>
      rw [hprobing] at hcounter
      cases hcounter
      exact absurd hm.1 (by decide)
    | failing _ hold hpending =>
      rw [hold] at hcounter
      cases hcounter
      exact .trying rfl (by rw [hpending, begun_eq hstopped]; rfl) rfl
  | started hreport hnew =>
    exfalso
    cases h with
    | trying hcounter => simp [hcounter] at hnew
    | failing _ hcounter hpending =>
      rcases hnew with hnone | ⟨-, hlate⟩
      · simp [hcounter] at hnone
      · exact hresets ⟨hreport, .inr ⟨hlate, idle_iff.2 hpending⟩⟩
  | @completed a reply hdone =>
    have ha := mem_watch.2 ⟨hdone.2.1, hdone.2.2.2⟩
    cases reply with
    | named name => exact absurd ⟨a, name, hdone⟩ hanswers
    | unreachable =>
      have hfails : (l.fails d e).toNat = 1 := by
        rw [fails_iff.2 ⟨a, hdone⟩]
        rfl
      cases h with
      | trying hcounter hpending hfailures =>
        rw [hpending, List.mem_singleton] at ha
        subst ha
        rw [hfails, hpending, List.erase_cons_head, if_pos hcounter]
        refine .failing (Nat.succ_pos n) (congrArg some ?_) rfl
        rw [outcome, hfailures, pinned]
        omega
      | failing _ _ hpending =>
        rw [hpending] at ha
        cases ha
  | stopped hshutdown => exact absurd hshutdown he

/-- After an answer the node is not asked again before a new beginning. -/
theorem Turn.answered (ht : Turn timeout d l e w) (hfits : (l.watch d).Fits d)
    (h : Answers d l e ∨ ((l.watch d).counter = some validated ∨ (l.watch d).counter = some pinned) ∧
      ¬ Resets timeout d l e) : w.counter = some validated ∨ w.counter = some pinned := by
  have hbefore (hno : ∀ a reply, ¬ Completes d l e a reply) :=
    h.resolve_left fun ⟨a, name, hdone⟩ => hno a (.named name) hdone
  cases ht with
  | stayed _ hcompletes => exact (hbefore hcompletes).1
  | asked hask =>
    refine (hbefore ?_).1
    subst hask
    rintro _ _ ⟨he, -⟩
    cases he
  | noted hreport => exact (hbefore (not_completes_of_reports hreport)).1
  | retried hreport hcounter hn =>
    exfalso
    rcases (hbefore (not_completes_of_reports hreport)).1 with hold | hold
    all_goals
      rw [hold] at hcounter
      cases hcounter
      exact absurd hn (by decide)
  | started hreport hnew =>
    exfalso
    obtain ⟨hcounter, hresets⟩ := hbefore (not_completes_of_reports hreport)
    rcases hnew with hnone | ⟨hne, hlate⟩
    · simp [hnone] at hcounter
    · exact hresets ⟨hreport, .inr ⟨hlate, idle_iff.2 (hfits.pending_eq_nil hne)⟩⟩
  | @completed a reply hdone =>
    have ha := mem_watch.2 ⟨hdone.2.1, hdone.2.2.2⟩
    have hprobing := hfits.probing (List.ne_nil_of_mem ha)
    rcases h with ⟨b, name, hanswer⟩ | ⟨hcounter, -⟩
    · cases hdone.1.symm.trans hanswer.1
      simp only [if_pos hprobing, outcome]
      split <;> simp
    · rw [hprobing] at hcounter
      rcases hcounter with hcounter | hcounter <;> cases hcounter
  | stopped hshutdown =>
    refine (hbefore ?_).1
    subst hshutdown
    rintro _ _ ⟨he, -⟩
    cases he

/-! ### Times -/

theorem le_due_attempt (d : String) (n : Int) (l : Liveness) : l.now ≤ (l.attempt d n).due := by
  unfold attempt
  dsimp only
  split <;> omega

theorem marked_eq_of_open {a b : Attempt} (h : (marked a b).asked = false) : marked a b = b := by
  unfold marked at h ⊢
  split at h
  · cases h
  · rename_i hne
    rw [if_neg hne]

/-- An attempt is never made at a time that has passed. -/
theorem Turn.ahead (ht : Turn timeout d l e w)
    (h : ∀ a ∈ (l.watch d).pending, a.asked = false → l.now ≤ a.due) :
    ∀ a ∈ w.pending, a.asked = false → l.now ≤ a.due := by
  have hbegun (n : Int) : ∀ a ∈ (l.watch d).pending ++ l.begun d n, a.asked = false → l.now ≤ a.due := by
    intro a ha hopen
    rcases List.mem_append.1 ha with hold | hnew
    · exact h a hold hopen
    · rw [mem_begun hnew]
      exact le_due_attempt d n l
  cases ht with
  | stayed | noted => exact h
  | asked =>
    intro b hb hopen
    obtain ⟨c, hc, rfl⟩ := List.mem_map.1 hb
    have hsame := marked_eq_of_open hopen
    rw [hsame] at hopen ⊢
    exact h c hc hopen
  | retried | started => exact hbegun _
  | completed =>
    intro b hb
    exact h b (List.mem_of_mem_erase hb)
  | stopped => simp

/-- An attempt that has not asked yet stays until it asks. -/
theorem Turn.kept (ht : Turn timeout d l e w) (he : e ≠ .shutdown) {a : Attempt} (ha : a ∈ (l.watch d).pending)
    (hopen : a.asked = false) : a ∈ w.pending ∨ Asks d l e a := by
  cases ht with
  | stayed | noted => exact .inl ha
  | @asked b hask hb _ hdue =>
    by_cases hab : a = b
    · subst hab
      exact .inr ⟨hask, (mem_watch.1 ha).1, hopen, hdue, (mem_watch.1 ha).2⟩
    · refine .inl (List.mem_map.2 ⟨a, ha, ?_⟩)
      rw [marked, if_neg hab]
  | retried | started => exact .inl (List.mem_append_left _ ha)
  | @completed b _ hdone =>
    refine .inl ((List.mem_erase_of_ne ?_).2 ha)
    rintro rfl
    exact absurd hdone.2.2.1 (by simp [hopen])
  | stopped hshutdown => exact absurd hshutdown he

theorem ahead_step (h : ∀ a ∈ l.pending, a.asked = false → l.now ≤ a.due)
    (hwait : ∀ ms, e = .wait ms → ∀ a ∈ l.pending, a.asked = false → l.now + ms ≤ a.due) :
    ∀ a ∈ (l.step timeout e).pending, a.asked = false → (l.step timeout e).now ≤ a.due := by
  by_cases he : ∃ ms, e = .wait ms
  · obtain ⟨ms, rfl⟩ := he
    exact hwait ms rfl
  · intro a ha hopen
    rw [now_step fun ms hms => he ⟨ms, hms⟩]
    refine (turn_step timeout a.display l e).ahead ?_ a (mem_watch.2 ⟨ha, rfl⟩) hopen
    intro b hb
    exact h b (mem_watch.1 hb).1

end

/-! ### Whole runs -/

section

variable {localName : String} {timeout : Int} {events : List Event}

theorem stopped_run (hrun : .shutdown ∉ events) : ((ofLocal localName).run timeout events).stopped = false := by
  induction events using List.reverseRecOn with
  | nil => rfl
  | append_singleton events e ih =>
    rw [List.mem_append, List.mem_singleton, not_or] at hrun
    rw [run_concat, stopped_step (Ne.symm hrun.2)]
    exact ih hrun.1

theorem tended_run (hrun : .shutdown ∉ events) (d : String) :
    (((ofLocal localName).run timeout events).watch d).Tended := by
  induction events using List.reverseRecOn with
  | nil => exact ⟨by simp [watch, ofLocal], by simp [watch, ofLocal]⟩
  | append_singleton events e ih =>
    rw [List.mem_append, List.mem_singleton, not_or] at hrun
    rw [run_concat]
    exact (turn_step timeout d _ e).tended (fits_run localName timeout events d) (stopped_run hrun.1)
      (Ne.symm hrun.2) (ih hrun.1)

/-- The failures since a node was reset make its streak, as long as no attempt is answered. -/
theorem streak_run {d : String} {s : List Event} {e : Event} {t : List Event} (hrun : .shutdown ∉ s ++ e :: t)
    (hresets : Resets timeout d ((ofLocal localName).run timeout s) e)
    (hopen : ∀ u e' v, t = u ++ e' :: v →
      ¬ (Resets timeout d ((ofLocal localName).run timeout (s ++ e :: u)) e' ∨
        Answers d ((ofLocal localName).run timeout (s ++ e :: u)) e')) :
    Streak (((ofLocal localName).run timeout (s ++ [e])).failuresIn timeout d t)
      (((ofLocal localName).run timeout (s ++ e :: t)).watch d) := by
  induction t using List.reverseRecOn with
  | nil =>
    have hs : .shutdown ∉ s := fun hmem => hrun (List.mem_append_left _ hmem)
    have hfits := fits_run localName timeout s d
    have htended : (((ofLocal localName).run timeout s).watch d).Tended := tended_run hs d
    have hidle : (((ofLocal localName).run timeout s).watch d).pending = [] := by
      rcases hresets.2 with hfirst | ⟨-, hidle⟩
      · by_contra hne
        exact hfits.known (by simp [hfits.probing hne]) hfirst
      · exact idle_iff.1 hidle
    rw [run_concat, (turn_step timeout d _ e).reset hfits htended (stopped_run hs) hresets, hidle]
    exact .trying rfl rfl rfl
  | append_singleton t e' ih =>
    have hsplit : s ++ e :: (t ++ [e']) = (s ++ e :: t) ++ [e'] := by simp
    rw [hsplit, List.mem_append, List.mem_singleton, not_or] at hrun
    have hstreak := ih hrun.1 fun u e'' v ht => hopen u e'' (v ++ [e']) (by simp [ht])
    have hlater : ((ofLocal localName).run timeout (s ++ [e])).run timeout t =
        (ofLocal localName).run timeout (s ++ e :: t) := by
      rw [← run_append, List.append_assoc]
      rfl
    rw [failuresIn_concat, hlater, hsplit, run_concat _ _ (s ++ e :: t)]
    exact (turn_step timeout d _ e').streak (stopped_run hrun.1) (Ne.symm hrun.2) (hopen t e' [] rfl) hstreak

theorem answered_run {d : String}
    (h : (ofLocal localName).Since timeout events (Answers d) (Resets timeout d)) :
    (((ofLocal localName).run timeout events).watch d).counter = some validated ∨
      (((ofLocal localName).run timeout events).watch d).counter = some pinned := by
  induction events using List.reverseRecOn with
  | nil => exact absurd h not_since_nil
  | append_singleton events e ih =>
    rw [since_concat] at h
    rw [run_concat]
    refine (turn_step timeout d _ e).answered (fits_run localName timeout events d) ?_
    rcases h with hnow | ⟨hbefore, hno⟩
    · exact .inl hnow
    · exact .inr ⟨ih hbefore, hno⟩

/-- Since a node that has reported was reset, an attempt was answered, or none was. -/
theorem since_resets {d : String} (h : (((ofLocal localName).run timeout events).watch d).reported ≠ none) :
    (ofLocal localName).Since timeout events (Resets timeout d)
        (fun l e => Resets timeout d l e ∨ Answers d l e) ∨
      (ofLocal localName).Since timeout events (Answers d) (Resets timeout d) := by
  induction events using List.reverseRecOn with
  | nil => exact absurd rfl h
  | append_singleton events e ih =>
    rw [since_concat, since_concat]
    rw [run_concat] at h
    by_cases hresets : Resets timeout d ((ofLocal localName).run timeout events) e
    · exact .inl (.inl hresets)
    by_cases hanswers : Answers d ((ofLocal localName).run timeout events) e
    · exact .inr (.inl hanswers)
    have hbefore : (((ofLocal localName).run timeout events).watch d).reported ≠ none := by
      intro hnone
      have hreport : ¬ Reports timeout d ((ofLocal localName).run timeout events) e :=
        fun hreport => hresets ⟨hreport, .inl hnone⟩
      exact h (((turn_step timeout d _ e).reported_eq hreport).trans hnone)
    exact (ih hbefore).imp (fun hsince => .inr ⟨hsince, not_or.2 ⟨hresets, hanswers⟩⟩)
      fun hsince => .inr ⟨hsince, hresets⟩

theorem Prompt.front {l : Liveness} {e : Event} (h : l.Prompt timeout (events ++ [e])) : l.Prompt timeout events := by
  rintro s ms t rfl
  exact h s ms (t ++ [e]) (by simp)

/-- As long as time does not pass an attempt that should ask, each that has not asked is still to come. -/
theorem ahead_run (h : (ofLocal localName).Prompt timeout events) :
    ∀ a ∈ ((ofLocal localName).run timeout events).pending, a.asked = false →
      ((ofLocal localName).run timeout events).now ≤ a.due := by
  induction events using List.reverseRecOn with
  | nil => simp [ofLocal]
  | append_singleton events e ih =>
    rw [run_concat]
    refine ahead_step (ih h.front) ?_
    rintro ms rfl
    exact h events ms [] rfl

/-- An attempt asks at the very time at which it is due. -/
theorem asks_run {s t : List Event} (h : (ofLocal localName).Prompt timeout (s ++ t)) (hrun : .shutdown ∉ s ++ t)
    {a : Attempt} (ha : a ∈ ((ofLocal localName).run timeout s).pending) (hopen : a.asked = false) :
    (a ∈ ((ofLocal localName).run timeout (s ++ t)).pending ∧
        ((ofLocal localName).run timeout (s ++ t)).now ≤ a.due) ∨
      ∃ u e v, t = u ++ e :: v ∧ Asks a.display ((ofLocal localName).run timeout (s ++ u)) e a ∧
        ((ofLocal localName).run timeout (s ++ u)).now = a.due := by
  induction t using List.reverseRecOn with
  | nil =>
    rw [List.append_nil] at h ⊢
    exact .inl ⟨ha, ahead_run h a ha hopen⟩
  | append_singleton t e ih =>
    rw [← List.append_assoc] at h hrun ⊢
    rw [List.mem_append, List.mem_singleton, not_or] at hrun
    rcases ih h.front hrun.1 with ⟨hmem, hnow⟩ | ⟨u, e', v, rfl, hasks⟩
    · have hturn := turn_step timeout a.display ((ofLocal localName).run timeout (s ++ t)) e
      rcases hturn.kept (Ne.symm hrun.2) (mem_watch.2 ⟨hmem, rfl⟩) hopen with hkept | hasks
      · rw [← run_concat] at hkept
        have hstill := (mem_watch.1 hkept).1
        exact .inl ⟨hstill, ahead_run h a hstill hopen⟩
      · exact .inr ⟨t, e, [], rfl, hasks, Nat.le_antisymm hnow hasks.2.2.2.1⟩
    · exact .inr ⟨u, e', v ++ [e], by simp, hasks⟩

/-- A node whose last attempts failed waits for a heartbeat, and the wait after it grows with their number. -/
theorem Streak.waits {l : Liveness} {d : String} {n : Nat} (h : Streak n (l.watch d)) (hidle : Idle d l) :
    0 < n ∧ l.counters.get? d = some ((min n 9 : Nat) : Int) ∧
      (l.attempt d (min n 9 : Nat)).due = l.now + min (Nat.pow 2 (min n 9)) 60 * 1000 := by
  cases h with
  | trying _ hpending =>
    rw [idle_iff.1 hidle] at hpending
    cases hpending
  | failing hn hcounter =>
    refine ⟨hn, hcounter, ?_⟩
    have hpos : 0 < ((min n 9 : Nat) : Int) := by omega
    simp only [attempt, if_pos hpos, backoff, Int.toNat_natCast]

/-- After failures the next heartbeat starts an attempt that is due after the wait. -/
theorem starts_of_streak {l : Liveness} {d : String} {n : Nat} {e : Event} (hstopped : l.stopped = false)
    (h : Streak n (l.watch d)) (hidle : Idle d l) (hreport : Reports timeout d l e)
    (hopen : ¬ IsLate timeout d l) : Starts timeout d l e (l.now + min (Nat.pow 2 (min n 9)) 60 * 1000) := by
  obtain ⟨hn, hcounter, hdue⟩ := h.waits hidle
  have hold : (l.watch d).counter = some ((min n 9 : Nat) : Int) := hcounter
  rw [← hdue]
  refine starts_of_watch hreport ?_
  rcases (turn_step timeout d l e).of_reports hreport with
    ⟨m, hm, hrange, -⟩ | ⟨m, hm, -, -, hw⟩ | ⟨hnone | ⟨-, hlate⟩, -⟩
  · have hmin := Option.some.inj (hold.symm.trans hm)
    unfold pinned at hrange
    omega
  · rw [hw, begun_eq hstopped, Option.some.inj (hold.symm.trans hm)]
  · simp [hold] at hnone
  · exact absurd hlate hopen

theorem starts_of_resets {d : String} {e : Event} (hrun : .shutdown ∉ events)
    (hresets : Resets timeout d ((ofLocal localName).run timeout events) e) :
    Starts timeout d ((ofLocal localName).run timeout events) e ((ofLocal localName).run timeout events).now := by
  refine starts_of_watch (n := 0) hresets.1 ?_
  rw [(turn_step timeout d _ e).reset (fits_run localName timeout events d) (tended_run hrun d)
    (stopped_run hrun) hresets]

/-- A heartbeat of a node that is neither reset nor waits after a failure starts nothing. -/
theorem pending_of_settled {d : String} {e : Event} (hrun : .shutdown ∉ events)
    (hreport : Reports timeout d ((ofLocal localName).run timeout events) e)
    (hresets : ¬ Resets timeout d ((ofLocal localName).run timeout events) e)
    (hsettled : ¬ (Idle d ((ofLocal localName).run timeout events) ∧
      (ofLocal localName).Since timeout events (Resets timeout d)
        fun l e => Resets timeout d l e ∨ Answers d l e)) :
    (((ofLocal localName).run timeout events).step timeout e).pending =
      ((ofLocal localName).run timeout events).pending := by
  have hfits := fits_run localName timeout events d
  rcases (turn_step timeout d _ e).of_reports hreport with
    ⟨n, -, -, -, hw⟩ | ⟨n, hcounter, hn, -, -⟩ | ⟨hnew, -⟩
  · have hsame : ((((ofLocal localName).run timeout events).step timeout e).watch d).pending =
        (((ofLocal localName).run timeout events).watch d).pending ++ [] := by rw [hw, List.append_nil]
    rw [pending_of_reports hreport hsame, List.append_nil]
  · exfalso
    have hne : (((ofLocal localName).run timeout events).watch d).counter ≠ some validating := by
      rw [hcounter]
      rintro ⟨⟩
      exact absurd hn.1 (by decide)
    rcases since_resets (hfits.known (by simp [hcounter])) with hsince | hsince
    · exact hsettled ⟨idle_iff.2 (hfits.pending_eq_nil hne), hsince⟩
    · rcases answered_run hsince with hold | hold
      all_goals
        rw [hold] at hcounter
        cases hcounter
        exact absurd hn (by decide)
  · refine absurd ⟨hreport, ?_⟩ hresets
    rcases hnew with hnone | ⟨hne, hlate⟩
    · left
      by_contra hreported
      exact (tended_run hrun d).listed hreported hnone
    · exact .inr ⟨hlate, idle_iff.2 (hfits.pending_eq_nil hne)⟩

/-- Before a shutdown there is one attempt for a node while its counter says so, and else none. The first heartbeat
of the node, and one after a gap that finds no attempt, start one that is due at once. After failures without an
answer since then the counter is their number, at most 9, and the next heartbeat starts an attempt that is due after
twice as long for each failure, at most a minute. No other heartbeat starts anything. If time does not pass an
attempt that should ask, each asks at the time at which it is due. -/
theorem schedule_of_run {localName : String} {timeout : Int} {events : List Event} {l : Liveness}
    (hl : (ofLocal localName).run timeout events = l) (hrun : .shutdown ∉ events) (d : String) :
    ((l.counters.get? d = some validating ↔ (l.watch d).pending.length = 1) ∧ (l.watch d).pending.length ≤ 1) ∧
      (∀ e, Resets timeout d l e → Starts timeout d l e l.now) ∧
      (∀ s e t n, events = s ++ e :: t → Resets timeout d ((ofLocal localName).run timeout s) e →
        (∀ u e' v, t = u ++ e' :: v →
          ¬ (Resets timeout d ((ofLocal localName).run timeout (s ++ e :: u)) e' ∨
            Answers d ((ofLocal localName).run timeout (s ++ e :: u)) e')) →
        ((ofLocal localName).run timeout (s ++ [e])).failuresIn timeout d t = n → Idle d l →
        0 < n ∧ l.counters.get? d = some ((min n 9 : Nat) : Int) ∧
          ∀ e', Reports timeout d l e' → ¬ IsLate timeout d l →
            Starts timeout d l e' (l.now + min (Nat.pow 2 (min n 9)) 60 * 1000)) ∧
      (∀ e, Reports timeout d l e → ¬ Resets timeout d l e →
        ¬ (Idle d l ∧ (ofLocal localName).Since timeout events (Resets timeout d)
          fun l e => Resets timeout d l e ∨ Answers d l e) →
        (l.step timeout e).pending = l.pending) ∧
      (∀ nodename host, (∀ other, ¬ Reports timeout other l (.heartbeat nodename host)) →
        l.step timeout (.heartbeat nodename host) = l) ∧
      ((ofLocal localName).Prompt timeout events → ∀ s t a, events = s ++ t →
        a ∈ ((ofLocal localName).run timeout s).pending → a.asked = false →
        (a ∈ l.pending ∧ l.now ≤ a.due) ∨
          ∃ u e v, t = u ++ e :: v ∧ Asks a.display ((ofLocal localName).run timeout (s ++ u)) e a ∧
            ((ofLocal localName).run timeout (s ++ u)).now = a.due) := by
  subst hl
  have hfits := fits_run localName timeout events d
  have htended : (((ofLocal localName).run timeout events).watch d).Tended := tended_run hrun d
  refine ⟨⟨⟨fun hcounter => ?_, fun hone => ?_⟩, hfits.single⟩, fun e => starts_of_resets hrun, ?_,
    fun e => pending_of_settled hrun, ?_, ?_⟩
  · exact Nat.le_antisymm hfits.single (List.length_pos_iff.2 (htended.probing hcounter))
  · exact hfits.probing (List.ne_nil_of_length_pos (by omega))
  · rintro s e t n rfl hresets hopen rfl hidle
    have hstreak := streak_run hrun hresets hopen
    obtain ⟨hn, hcounter, -⟩ := hstreak.waits hidle
    exact ⟨hn, hcounter, fun e' => starts_of_streak (stopped_run hrun) hstreak hidle⟩
  · intro nodename host hno
    cases hbeat : ((ofLocal localName).run timeout events).heartbeat timeout nodename host with
    | error fault => rw [step, hbeat]
    | ok r => exact absurd ⟨nodename, host, r.1, rfl, hbeat⟩ (hno r.2)
  · rintro hprompt s t a rfl ha hopen
    exact asks_run hprompt hrun ha hopen

/-- The host of a new node cannot be reached. -/
def unreached : List Event :=
  [.ask (ownAttempt 0 0 false), .answer (ownAttempt 0 0 true) .unreachable, .wait 1000]

/-- After the next heartbeat it is asked again. -/
def askedAgain : List Event := [.wait 2000, .ask (ownAttempt 1 3000 false)]

theorem prompt_cons {l : Liveness} {e : Event}
    (hwait : ∀ ms, e = .wait ms → ∀ a ∈ l.pending, a.asked = false → l.now + ms ≤ a.due)
    (h : (l.step timeout e).Prompt timeout events) : l.Prompt timeout (e :: events) := by
  rintro s ms t heq
  cases s with
  | nil =>
    cases heq
    exact hwait ms rfl
  | cons first s =>
    rw [List.cons_append, List.cons.injEq] at heq
    obtain ⟨rfl, rfl⟩ := heq
    exact h s ms t rfl

theorem not_resets_unreached {u v : List Event} {e : Event} (h : unreached = u ++ e :: v) (l : Liveness) :
    ¬ (Resets 10 "NODE" l e ∨ Answers "NODE" l e) := by
  have he : e ∈ u ++ e :: v := by simp
  rw [← h] at he
  simp only [unreached, List.mem_cons, List.not_mem_nil, or_false] at he
  rcases he with rfl | rfl | rfl
  all_goals rintro (⟨⟨_, _, _, he, -⟩, -⟩ | ⟨_, _, he, -⟩) <;> cases he

theorem prompt_askedAgain : (ofLocal "head").Prompt 10
    (.heartbeat "node" "node" :: unreached ++ [.heartbeat "node" "node"] ++ askedAgain) := by
  refine prompt_cons (by simp) ?_
  rw [step_node]
  refine prompt_cons (by simp) (prompt_cons (by simp) (prompt_cons ?_ (prompt_cons (by simp) ?_)))
  · rintro _ ⟨⟩
    decide +kernel
  · rw [step_node]
    refine prompt_cons ?_ (prompt_cons (by simp) (by rintro (_ | _) ms t h <;> cases h))
    rintro _ ⟨⟩
    decide +kernel

theorem schedule_of_unreached :
    ((ofLocal "head").run 10 (.heartbeat "node" "node" :: unreached)).counters.get? "NODE" = some 1 ∧
      Starts 10 "NODE" ((ofLocal "head").run 10 (.heartbeat "node" "node" :: unreached))
        (.heartbeat "node" "node") 3000 ∧
      ∃ u e v, askedAgain = u ++ e :: v ∧
        Asks "NODE" ((ofLocal "head").run 10
          (.heartbeat "node" "node" :: unreached ++ [.heartbeat "node" "node"] ++ u)) e (ownAttempt 1 3000 false) ∧
        ((ofLocal "head").run 10
          (.heartbeat "node" "node" :: unreached ++ [.heartbeat "node" "node"] ++ u)).now = 3000 := by
  have hresets : Resets 10 "NODE" ((ofLocal "head").run 10 []) (.heartbeat "node" "node") :=
    ⟨reports_node 10 _, .inl rfl⟩
  have hfailures : ((ofLocal "head").run 10 ([] ++ [.heartbeat "node" "node"])).failuresIn 10 "NODE" unreached =
      1 := by
    rw [List.nil_append, run_node]
    decide +kernel
  have hidle : Idle "NODE" ((ofLocal "head").run 10 (.heartbeat "node" "node" :: unreached)) := by
    rw [idle_iff, run_node]
    decide +kernel
  have hopen : ¬ IsLate 10 "NODE" ((ofLocal "head").run 10 (.heartbeat "node" "node" :: unreached)) := by
    rw [← isLate_iff, run_node]
    decide +kernel
  have hnow : ((ofLocal "head").run 10 (.heartbeat "node" "node" :: unreached)).now = 1000 := by
    rw [run_node]
    decide +kernel
  have hpending : ownAttempt 1 3000 false ∈ ((ofLocal "head").run 10
      (.heartbeat "node" "node" :: unreached ++ [.heartbeat "node" "node"])).pending := by
    rw [run_append, run_node, run_node]
    decide +kernel
  have hasked : ownAttempt 1 3000 false ∉ ((ofLocal "head").run 10
      (.heartbeat "node" "node" :: unreached ++ [.heartbeat "node" "node"] ++ askedAgain)).pending := by
    rw [List.append_assoc, run_append, List.singleton_append, run_node, run_node]
    decide +kernel
  obtain ⟨-, -, hstreak, -⟩ := schedule_of_run
    (l := (ofLocal "head").run 10 (.heartbeat "node" "node" :: unreached)) rfl (by decide) "NODE"
  obtain ⟨-, hcounter, hstarts⟩ :=
    hstreak [] _ unreached 1 rfl hresets (fun u e v h => not_resets_unreached h _) hfailures hidle
  obtain ⟨-, -, -, -, -, hasks⟩ := schedule_of_run (l := (ofLocal "head").run 10
    (.heartbeat "node" "node" :: unreached ++ [.heartbeat "node" "node"] ++ askedAgain)) rfl (by decide) "NODE"
  refine ⟨hcounter, ?_, ?_⟩
  · have hnext := hstarts _ (reports_node 10 _) hopen
    rw [hnow] at hnext
    exact hnext
  · exact (hasks prompt_askedAgain _ _ _ rfl hpending rfl).resolve_left fun hkept => hasked hkept.1

end

end Liveness

end Muster
