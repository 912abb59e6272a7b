import Muster.Proofs.Watch

/-!
# Nodes that are ready

A node is ready only after an attempt at its address was answered with the name that it claims, and only until
a heartbeat comes after a gap. A node that gave another name is not asked again before that, and one that was
lost is asked again before it is ready.
-/

namespace Muster

namespace Liveness

/-- An attempt at the address of the node is answered with the name that it claims. -/
def Confirms (d : String) (l : Liveness) (e : Event) : Prop :=
  ∃ a name, Completes d l e a (.named name) ∧ a.host = Address.ofDisplayName d ∧
    Text.upper name = Address.nameOf d

/-- An attempt at the address of the node is answered with another name. -/
def Mismatches (d : String) (l : Liveness) (e : Event) : Prop :=
  ∃ a name, Completes d l e a (.named name) ∧ a.host = Address.ofDisplayName d ∧
    Text.upper name ≠ Address.nameOf d

/-- An attempt for the node ends. -/
def Ends (d : String) (l : Liveness) (e : Event) : Prop := ∃ a reply, Completes d l e a reply

section

variable {timeout : Int} {d : String} {l : Liveness} {e : Event} {w : Watch}

theorem not_ends_of_reports (h : Reports timeout d l e) : ¬ Ends d l e := by
  rintro ⟨a, reply, hdone⟩
  exact not_completes_of_reports h a reply hdone

theorem outcome_eq_validated {name : String} {failures : Int} {reply : ProbeReply} (hf : 0 ≤ failures)
    (h : outcome name failures reply = validated) :
    ∃ replied, reply = .named replied ∧ Text.upper replied = name := by
  cases reply with
  | named replied =>
    by_cases hname : Text.upper replied = name
    · exact ⟨replied, rfl, hname⟩
    · simp only [outcome, if_neg hname] at h
      cases h
  | unreachable =>
    simp only [outcome, validated, pinned] at h
    omega

/-- A node is confirmed by an answer, or was so before, and then it has neither been asked again nor has come
back after a gap. -/
theorem Turn.validated (ht : Turn timeout d l e w) (h : (l.watch d).Fits d) (hw : w.counter = some validated) :
    Confirms d l e ∨ (l.watch d).counter = some validated ∧ ¬ (Ends d l e ∨ Opens timeout d l e) := by
  cases ht with
  | stayed hreport hcompletes =>
    refine .inr ⟨hw, ?_⟩
    rintro (⟨a, reply, hends⟩ | ⟨hopens, -⟩)
    · exact hcompletes a reply hends
    · exact hreport hopens
  | asked he =>
    refine .inr ⟨hw, ?_⟩
    subst he
    rintro (⟨_, _, he, -⟩ | ⟨⟨_, _, _, he, -⟩, -⟩) <;> cases he
  | @noted n hreport hcounter _ hkept =>
    refine .inr ⟨hw, ?_⟩
    rintro (hends | ⟨-, hfirst | hlate⟩)
    · exact not_ends_of_reports hreport hends
    · exact h.known (by simp [hcounter]) hfirst
    · have hn : n = Liveness.validated := Option.some.inj (hcounter.symm.trans hw)
      rcases hkept with hprobing | hopen
      · rw [hn] at hprobing
        cases hprobing
      · exact hopen hlate
  | retried => cases hw
  | started => cases hw
  | @completed a reply hdone =>
    have ha := mem_watch.2 ⟨hdone.2.1, hdone.2.2.2⟩
    obtain ⟨-, hname, hhost⟩ := h.own a ha
    simp only [if_pos (h.probing (List.ne_nil_of_mem ha)), Option.some.injEq] at hw
    obtain ⟨replied, rfl, hreplied⟩ := outcome_eq_validated (h.failures a ha).1 hw
    exact .inl ⟨a, replied, hdone, hhost, hreplied.trans hname⟩
  | stopped he =>
    refine .inr ⟨hw, ?_⟩
    subst he
    rintro (⟨_, _, he, -⟩ | ⟨⟨_, _, _, he, -⟩, -⟩) <;> cases he

/-- A node that gave another name stays so until it comes back after a gap. -/
theorem Turn.mismatched (ht : Turn timeout d l e w) (h : (l.watch d).Fits d)
    (hpinned : Mismatches d l e ∨ (l.watch d).counter = some pinned ∧ ¬ Reconnects timeout d l e) :
    w.counter = some pinned := by
  have hcompleted (hno : ¬ Ends d l e) : (l.watch d).counter = some pinned ∧ ¬ Reconnects timeout d l e :=
    hpinned.resolve_left fun ⟨a, name, hdone, _⟩ => hno ⟨a, .named name, hdone⟩
  cases ht with
  | stayed _ hcompletes => exact (hcompleted fun ⟨a, reply, hends⟩ => hcompletes a reply hends).1
  | asked he =>
    refine (hcompleted ?_).1
    subst he
    rintro ⟨_, _, he, -⟩
    cases he
  | noted hreport => exact (hcompleted (not_ends_of_reports hreport)).1
  | retried hreport hcounter hn =>
    rw [(hcompleted (not_ends_of_reports hreport)).1] at hcounter
    cases hcounter
    exact absurd hn.2 (by decide)
  | started hreport hnew =>
    obtain ⟨hcounter, hopen⟩ := hcompleted (not_ends_of_reports hreport)
    rcases hnew with hnone | ⟨-, hlate⟩
    · rw [hcounter] at hnone
      cases hnone
    · exact absurd ⟨hreport, hlate⟩ hopen
  | @completed a reply hdone =>
    have ha := mem_watch.2 ⟨hdone.2.1, hdone.2.2.2⟩
    have hprobing := h.probing (List.ne_nil_of_mem ha)
    rcases hpinned with ⟨b, name, hdone', -, hname⟩ | ⟨hcounter, -⟩
    · have he := hdone.1.symm.trans hdone'.1
      cases he
      rw [← (h.own a ha).2.1] at hname
      simp only [if_pos hprobing, outcome, if_neg hname]
    · rw [hprobing] at hcounter
      cases hcounter
  | stopped he =>
    refine (hcompleted ?_).1
    subst he
    rintro ⟨_, _, he, -⟩
    cases he

/-! ### Lost nodes -/

/-- A node whose heartbeats stay out stays lost. -/
theorem isLate_step (h : IsLate timeout d l) (hno : ¬ Opens timeout d l e) :
    IsLate timeout d (l.step timeout e) := by
  have hreport : ¬ Reports timeout d l e := fun hreport => hno ⟨hreport, .inr h⟩
  have hsame : (l.step timeout e).reported.get? d = l.reported.get? d := (turn_step timeout d l e).reported_eq hreport
  obtain ⟨last, hlast, hgap⟩ := h
  refine ⟨last, hsame.trans hlast, ?_⟩
  have hnow : l.now ≤ (l.step timeout e).now := by
    by_cases hwait : ∃ ms, e = .wait ms
    · obtain ⟨ms, rfl⟩ := hwait
      exact Nat.le_add_right _ _
    · exact Nat.le_of_eq (now_step fun ms he => hwait ⟨ms, he⟩).symm
  simp only [isGap, decide_eq_true_eq] at hgap ⊢
  omega

end

theorem stateOf_eq_ready {timeout : Int} {d : String} {l : Liveness} (h : l.stateOf timeout d = some .ready) :
    (l.watch d).counter = some validated ∧ ¬ IsLate timeout d l := by
  obtain ⟨last, hlast, hstate⟩ := Option.map_eq_some_iff.1 h
  unfold stateSince at hstate
  split at hstate
  · cases hstate
  · rename_i hopen
    split at hstate
    · rename_i hcounter
      refine ⟨hcounter, ?_⟩
      rintro ⟨other, hother, hgap⟩
      rw [hlast, Option.some.injEq] at hother
      subst hother
      exact hopen hgap
    · cases hstate

theorem isLate_of_lost {timeout : Int} {d : String} {l : Liveness} (h : l.stateOf timeout d = some .lost) :
    IsLate timeout d l := by
  obtain ⟨last, hlast, hstate⟩ := Option.map_eq_some_iff.1 h
  refine ⟨last, hlast, ?_⟩
  unfold stateSince at hstate
  split at hstate
  · assumption
  · split at hstate <;> cases hstate

/-! ### Whole runs -/

section

variable {localName : String} {timeout : Int} {d : String} {events : List Event}

/-- One of the heartbeats of a node was the last that was its first or came after a gap. -/
theorem opened_of_reported (h : (((ofLocal localName).run timeout events).watch d).reported ≠ none) :
    (ofLocal localName).Since timeout events (Opens timeout d) (Opens timeout d) := by
  induction events using List.reverseRecOn with
  | nil => exact absurd rfl h
  | append_singleton events e ih =>
    rw [run_concat] at h
    rw [since_concat]
    by_cases hopens : Opens timeout d ((ofLocal localName).run timeout events) e
    · exact .inl hopens
    refine .inr ⟨ih fun hnone => ?_, hopens⟩
    have hno : ¬ Reports timeout d ((ofLocal localName).run timeout events) e :=
      fun hreport => hopens ⟨hreport, .inl hnone⟩
    exact h (((turn_step timeout d _ e).reported_eq hno).trans hnone)

/-- A node that is confirmed was so by the last attempt for it, since it last came back. -/
theorem confirmed_of_validated
    (h : (((ofLocal localName).run timeout events).watch d).counter = some validated) :
    (ofLocal localName).Since timeout events (Confirms d) fun l e => Ends d l e ∨ Opens timeout d l e := by
  induction events using List.reverseRecOn with
  | nil => cases h
  | append_singleton events e ih =>
    rw [run_concat] at h
    rw [since_concat]
    have hfits := fits_run localName timeout events d
    rcases (turn_step timeout d _ e).validated hfits h with hnow | ⟨hbefore, hno⟩
    · exact .inl hnow
    · exact .inr ⟨ih hbefore, hno⟩

theorem pinned_of_mismatched
    (h : (ofLocal localName).Since timeout events (Mismatches d) (Reconnects timeout d)) :
    (((ofLocal localName).run timeout events).watch d).counter = some pinned := by
  induction events using List.reverseRecOn with
  | nil => exact absurd h not_since_nil
  | append_singleton events e ih =>
    rw [since_concat] at h
    rw [run_concat]
    refine (turn_step timeout d _ e).mismatched (fits_run localName timeout events d) ?_
    rcases h with hnow | ⟨hbefore, hno⟩
    · exact .inl hnow
    · exact .inr ⟨ih hbefore, hno⟩

theorem isLate_run {rest : List Event} {l : Liveness} (h : IsLate timeout d l)
    (hno : ∀ s e t, rest = s ++ e :: t → ¬ Opens timeout d (l.run timeout s) e) :
    IsLate timeout d (l.run timeout rest) := by
  induction rest using List.reverseRecOn with
  | nil => exact h
  | append_singleton rest e ih =>
    rw [run_concat]
    refine isLate_step (ih ?_) (hno rest e [] rfl)
    rintro s e' t rfl
    exact hno s e' (t ++ [e]) (by simp)

/-- A node that was lost is ready again only after it was confirmed anew. -/
theorem confirmed_of_lost {rest : List Event}
    (hlost : ((ofLocal localName).run timeout events).stateOf timeout d = some .lost)
    (hready : ((ofLocal localName).run timeout (events ++ rest)).stateOf timeout d = some .ready) :
    ∃ s e t, rest = s ++ e :: t ∧ Confirms d ((ofLocal localName).run timeout (events ++ s)) e := by
  obtain ⟨hvalidated, hopen⟩ := stateOf_eq_ready hready
  obtain ⟨s, e, t, heq, hconfirms, hno⟩ := confirmed_of_validated hvalidated
  rcases List.append_eq_append_iff.1 heq with ⟨u, rfl, hrest⟩ | ⟨u, rfl, hrest⟩
  · exact ⟨u, e, t, hrest, hconfirms⟩
  · cases u with
    | nil => exact ⟨[], e, t, hrest.symm, by simpa using hconfirms⟩
    | cons first u =>
      -- The answer came before the node was lost, and no heartbeat has come after the gap.
      rw [List.cons_append, List.cons.injEq] at hrest
      obtain ⟨rfl, rfl⟩ := hrest
      refine absurd ?_ hopen
      rw [run_append]
      refine isLate_run (isLate_of_lost hlost) ?_
      rintro v e' t rfl hopens
      refine hno (u ++ v) e' t (by simp) (.inr ?_)
      rw [← List.cons_append, ← List.append_assoc, run_append]
      exact hopens

/-- Heartbeats of a node claim the name that its display name tells. A node that is ready was confirmed by the
last attempt for it, at its address and with its name, since it first reported or last came back after a gap. After
another name it is neither ready nor asked until it comes back after a gap. A node that was lost is ready again
only after it was confirmed anew. -/
theorem ready_of_run (localName : String) (timeout : Int) (events : List Event) (d : String) :
    (∀ nodename host l',
        ((ofLocal localName).run timeout events).heartbeat timeout nodename host = .ok (l', d) →
        claimedName nodename = .ok (Address.nameOf d)) ∧
      (((ofLocal localName).run timeout events).stateOf timeout d = some .ready →
        (ofLocal localName).Since timeout events (Opens timeout d) (Opens timeout d) ∧
          (ofLocal localName).Since timeout events (Confirms d) fun l e => Ends d l e ∨ Opens timeout d l e) ∧
      ((ofLocal localName).Since timeout events (Mismatches d) (Reconnects timeout d) →
        ((ofLocal localName).run timeout events).stateOf timeout d ≠ some .ready ∧
          ∀ e a, ¬ Asks d ((ofLocal localName).run timeout events) e a) ∧
      (∀ rest, ((ofLocal localName).run timeout events).stateOf timeout d = some .lost →
        ((ofLocal localName).run timeout (events ++ rest)).stateOf timeout d = some .ready →
        ∃ s e t, rest = s ++ e :: t ∧ Confirms d ((ofLocal localName).run timeout (events ++ s)) e) := by
  refine ⟨fun nodename host l' h => (heartbeat_eq_ok h).1, ?_, ?_, fun rest => confirmed_of_lost⟩
  · intro h
    obtain ⟨last, hlast, -⟩ := Option.map_eq_some_iff.1 h
    refine ⟨opened_of_reported ?_, confirmed_of_validated (stateOf_eq_ready h).1⟩
    rw [watch, hlast]
    exact Option.some_ne_none last
  intro h
  have hcounter := pinned_of_mismatched h
  refine ⟨?_, ?_⟩
  · intro hready
    rw [(stateOf_eq_ready hready).1] at hcounter
    cases hcounter
  · rintro e a ⟨-, ha, -, -, hd⟩
    have hprobing := (fits_run localName timeout events d).probing (List.ne_nil_of_mem (mem_watch.2 ⟨ha, hd⟩))
    rw [hcounter] at hprobing
    cases hprobing

/-- The host of the node is asked and gives a name. -/
def asking (due : Nat) (name : String) : List Event :=
  [.ask (ownAttempt 0 due false), .answer (ownAttempt 0 due true) (.named name)]

/-- A node is confirmed, and stays away for longer than the timeout. -/
def absence : List Event := .heartbeat "node" "node" :: asking 0 "Node" ++ [.wait 10001]

/-- It comes back, and is confirmed anew. -/
def comeback : List Event := .heartbeat "node" "node" :: asking 10001 "node"

/-- The host gives another name. -/
def imposture : List Event := .heartbeat "node" "node" :: asking 0 "other"

theorem ready_of_comeback :
    ((ofLocal "head").run 10 absence).stateOf 10 "NODE" = some .lost ∧
      ((ofLocal "head").run 10 (absence ++ comeback)).stateOf 10 "NODE" = some .ready ∧
      (∃ s e t, comeback = s ++ e :: t ∧ Confirms "NODE" ((ofLocal "head").run 10 (absence ++ s)) e) ∧
      ((ofLocal "head").Since 10 (absence ++ comeback) (Confirms "NODE") fun l e =>
        Ends "NODE" l e ∨ Opens 10 "NODE" l e) ∧
      ((ofLocal "head").run 10 imposture).stateOf 10 "NODE" ≠ some .ready := by
  have hlost : ((ofLocal "head").run 10 absence).stateOf 10 "NODE" = some .lost := by
    rw [absence, List.cons_append, run_node]
    decide +kernel
  have hready : ((ofLocal "head").run 10 (absence ++ comeback)).stateOf 10 "NODE" = some .ready := by
    rw [run_append, comeback, run_node, absence, List.cons_append, run_node]
    decide +kernel
  have hasked : ownAttempt 0 0 true ∈
      ((ofLocal "head").run 10 [.heartbeat "node" "node", .ask (ownAttempt 0 0 false)]).pending := by
    rw [run_node]
    decide +kernel
  have hmismatch : (ofLocal "head").Since 10 imposture (Mismatches "NODE") (Reconnects 10 "NODE") :=
    ⟨_, _, [], rfl, ⟨ownAttempt 0 0 true, "other", ⟨rfl, hasked, rfl, rfl⟩, by decide +kernel,
      by decide +kernel⟩, by simp⟩
  obtain ⟨-, -, -, hconfirmed⟩ := ready_of_run "head" 10 absence "NODE"
  obtain ⟨-, hopened, -⟩ := ready_of_run "head" 10 (absence ++ comeback) "NODE"
  obtain ⟨-, -, hrefused, -⟩ := ready_of_run "head" 10 imposture "NODE"
  exact ⟨hlost, hready, hconfirmed comeback hlost hready, (hopened hready).2, (hrefused hmismatch).1⟩

end

end Liveness

end Muster
