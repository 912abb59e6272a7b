import Muster.Proofs.Cluster
import Muster.Proofs.Serving

/-!
# Nodes by their display names

On one head node a display name stands for one claimed name at one address: two heartbeats get the same display
name exactly if they have both in common. That address is the one that is asked for the name, and the one that is
called to run and to cancel jobs.
-/

namespace Muster

/-! ### Addresses by their texts -/

namespace Address

/-- Host and port are told from the text in which they stand with a separator between them, as the digits of the
port stand after the last one. -/
theorem eq_of_append_digits {a b : Address} (sep : Char) (hsep : Text.isDigit sep = false)
    (h : a.host.toList ++ sep :: Nat.toDigits 10 a.port.toNat =
      b.host.toList ++ sep :: Nat.toDigits 10 b.port.toNat) : a = b := by
  have hdigits (c : Address) : sep ∉ Nat.toDigits 10 c.port.toNat := Text.not_mem_toDigits hsep _
  obtain ⟨hhost, hport⟩ := Text.eq_of_append_sep (hdigits a) (hdigits b) h
  have hnumber : a.port.toNat = b.port.toNat := by
    rw [← Nat.ofDigitChars_ten_toDigits (n := a.port.toNat), hport, Nat.ofDigitChars_ten_toDigits]
  cases a
  cases b
  simp only [mk.injEq]
  exact ⟨String.toList_inj.1 hhost, UInt16.toNat_inj.1 hnumber⟩

theorem text_injective {a b : Address} (h : a.text = b.text) : a = b :=
  eq_of_append_digits ':' (by decide) (by rw [← toList_text, ← toList_text, h])

end Address

/-! ### Calls to nodes -/

/-- The node that a message calls. -/
def Message.callee? : Message → Option String
  | .start _ order => some order.node
  | .cancel _ _ node => some node
  | .started .. | .canceled .. => none

/-- A call goes to the worker at the address of its node and to no other one. -/
theorem Cluster.receive_of_callee {c : Cluster} {m : Message} {node : String} (h : m.callee? = some node)
    (now : Moment) (refusal : Option String) :
    (c.workers.get? (Address.ofDisplayName node) = none → c.receive now refusal m = c) ∧
      ∀ other ≠ Address.ofDisplayName node,
        (c.receive now refusal m).workers.get? other = c.workers.get? other := by
  cases m with
  | start id order =>
    cases h
    simp only [receive]
    cases hw : c.workers.get? (Address.ofDisplayName order.node) with
    | none => exact ⟨fun _ => rfl, fun _ _ => rfl⟩
    | some w =>
      obtain ⟨accepted, hstart⟩ := startAt_eq c w id order
      refine ⟨fun hnone => absurd hnone (by simp), fun other hne => ?_⟩
      simp only [hstart]
      exact SortedMap.get?_insert_of_ne _ _ hne
  | cancel call id node =>
    cases h
    simp only [receive]
    cases hw : c.workers.get? (Address.ofDisplayName node) with
    | none => exact ⟨fun _ => rfl, fun _ _ => rfl⟩
    | some w =>
      refine ⟨fun hnone => absurd hnone (by simp), fun other hne => ?_⟩
      exact SortedMap.get?_insert_of_ne _ _ hne
  | started | canceled => cases h

/-! ### Heartbeats -/

namespace Liveness

/-- A head node goes on, at each event with the timeout that is set then. -/
def course (l : Liveness) (events : List (Int × Event)) : Liveness :=
  events.foldl (fun l e => l.step e.1 e.2) l

theorem course_append (l : Liveness) (s t : List (Int × Event)) : l.course (s ++ t) = (l.course s).course t :=
  List.foldl_append

theorem course_concat (l : Liveness) (s : List (Int × Event)) (e : Int × Event) :
    l.course (s ++ [e]) = (l.course s).step e.1 e.2 := by
  rw [course_append]
  rfl

theorem localName_course (l : Liveness) (events : List (Int × Event)) :
    (l.course events).localName = l.localName := by
  induction events using List.reverseRecOn with
  | nil => rfl
  | append_singleton events e ih => rw [course_concat, localName_step, ih]

/-- Attempts go with the display name also while the timeout changes. -/
theorem fits_course (localName : String) (events : List (Int × Event)) (d : String) :
    (((ofLocal localName).course events).watch d).Fits d := by
  induction events using List.reverseRecOn with
  | nil => exact fits_run localName 0 [] d
  | append_singleton events e ih =>
    rw [course_concat]
    exact (turn_step e.1 d _ e.2).fits ih

/-- What an accepted heartbeat says is told by its display name. -/
theorem told_of_heartbeat {l l' : Liveness} {timeout : Int} {nodename host d : String}
    (h : l.heartbeat timeout nodename host = .ok (l', d)) :
    Address.nameOf d = Text.upper (Text.trim nodename) ∧
      ∃ address, Address.parse host l.localName = .ok address ∧
        d = address.displayName (Text.upper (Text.trim nodename)) ∧ Address.ofDisplayName d = address.text := by
  obtain ⟨name, address, hname, haddress, rfl, -⟩ := heartbeat_eq_ok_iff.1 h
  obtain ⟨hplain, hupper⟩ := claimedName_eq_ok hname
  rw [← hupper] at hplain
  rw [← claimedName_eq hname]
  exact ⟨(Address.nameOf_displayName address hplain).trans hupper, address, haddress, rfl,
    Address.ofDisplayName_displayName address hplain⟩

/-- Two accepted heartbeats of one head node get the same display name exactly if the names they claim, trimmed and
in capitals, are the same and their hosts are the same address. The address that is read off the display name is
that of the host: every attempt for the node asks it, and every call to the node goes to the worker at it. -/
theorem display_eq_iff_of_heartbeats {localName : String} {s t : List (Int × Event)} {timeout timeout' : Int}
    {name other host otherHost d e : String} {l l' : Liveness}
    (hd : ((ofLocal localName).course s).heartbeat timeout name host = .ok (l, d))
    (he : ((ofLocal localName).course t).heartbeat timeout' other otherHost = .ok (l', e)) :
    (d = e ↔ Text.upper (Text.trim name) = Text.upper (Text.trim other) ∧
        Address.parse host (Text.upper localName) = Address.parse otherHost (Text.upper localName)) ∧
      ∃ address, Address.parse host (Text.upper localName) = .ok address ∧
        Address.ofDisplayName d = address.text ∧
        (∀ later, ∀ a ∈ (l.course later).pending, a.display = d → a.host = address.text) ∧
        ∀ (c : Cluster) now refusal m, m.callee? = some d →
          (c.workers.get? address.text = none → c.receive now refusal m = c) ∧
            ∀ apart ≠ address.text, (c.receive now refusal m).workers.get? apart = c.workers.get? apart := by
  obtain ⟨hname, address, haddress, hdisplay, htext⟩ := told_of_heartbeat hd
  obtain ⟨hother, address', haddress', hdisplay', htext'⟩ := told_of_heartbeat he
  rw [localName_course] at haddress haddress'
  refine ⟨⟨?_, ?_⟩, address, haddress, htext, ?_, ?_⟩
  · rintro rfl
    have hsame : address = address' := Address.text_injective (htext.symm.trans htext')
    exact ⟨hname.symm.trans hother, haddress.trans (hsame ▸ haddress'.symm)⟩
  · rintro ⟨hnames, hhosts⟩
    have hparsed := haddress.symm.trans (hhosts.trans haddress')
    rw [Except.ok.injEq] at hparsed
    rw [hdisplay, hdisplay', hparsed, hnames]
  · intro later a ha hshown
    have hcourse : l.course later = (ofLocal localName).course (s ++ (timeout, .heartbeat name host) :: later) := by
      have hstep : ((ofLocal localName).course s).step timeout (.heartbeat name host) = l := by rw [step, hd]
      rw [← hstep, course_append]
      rfl
    rw [hcourse] at ha
    have hfits := fits_course localName (s ++ (timeout, .heartbeat name host) :: later) d
    rw [(hfits.own a (mem_watch.2 ⟨ha, hshown⟩)).2.2, htext]
  · intro c now refusal m hcallee
    rw [← htext]
    exact c.receive_of_callee hcallee now refusal

/-- The host of a node has parentheses in its name. The node itself, on the machine's own name, reports with blanks
around its name, and otherwise spelled. -/
theorem heartbeat_bracketed {l : Liveness} (hlocal : l.localName = "N)(1") (timeout : Int) :
    (∃ l', l.heartbeat timeout " node " "n)(1 : 07" = .ok (l', "NODE(N)(1:7)")) ∧
      ∃ l', l.heartbeat timeout "Node" "localhost:7" = .ok (l', "NODE(N)(1:7)") := by
  have hclaim : claimedName " node " = .ok "NODE" ∧ claimedName "Node" = .ok "NODE" := by
    have hplain : (" node ".contains '(' || " node ".contains ')') = false ∧
        ("Node".contains '(' || "Node".contains ')') = false := by simp
    rw [claimedName, claimedName, hplain.1, hplain.2]
    decide +kernel
  have hparse : Address.parse "n)(1 : 07" "N)(1" = .ok ⟨"N)(1", 7⟩ ∧
      Address.parse "localhost:7" "N)(1" = .ok ⟨"N)(1", 7⟩ := by decide +kernel
  have hdisplay : "NODE(N)(1:7)" = (Address.displayName ⟨"N)(1", 7⟩ "NODE") := by decide +kernel
  exact ⟨⟨_, heartbeat_eq_ok_iff.2 ⟨_, _, hclaim.1, by rw [hlocal]; exact hparse.1, hdisplay, rfl⟩⟩,
    ⟨_, heartbeat_eq_ok_iff.2 ⟨_, _, hclaim.2, by rw [hlocal]; exact hparse.2, hdisplay, rfl⟩⟩⟩

/-- Both get one display name, so their hosts are one address, and the name tells it. -/
theorem display_of_bracketed :
    (∃ l, (ofLocal "n)(1").heartbeat 5 " node " "n)(1 : 07" = .ok (l, "NODE(N)(1:7)")) ∧
      (∃ l, ((ofLocal "n)(1").course [(5, .wait 9000)]).heartbeat 9 "Node" "localhost:7" =
        .ok (l, "NODE(N)(1:7)")) ∧
      Address.parse "n)(1 : 07" (Text.upper "n)(1") = Address.parse "localhost:7" (Text.upper "n)(1") ∧
      ∃ address, Address.parse "n)(1 : 07" (Text.upper "n)(1") = .ok address ∧
        Address.ofDisplayName "NODE(N)(1:7)" = address.text := by
  have hlocal : (ofLocal "n)(1").localName = "N)(1" := by decide +kernel
  obtain ⟨l, hd⟩ := (heartbeat_bracketed hlocal 5).1
  obtain ⟨l', he⟩ :=
    (heartbeat_bracketed ((localName_course _ [(5, .wait 9000)]).trans hlocal) 9).2
  have h := display_eq_iff_of_heartbeats (s := []) hd he
  obtain ⟨address, hparse, htext, -⟩ := h.2
  exact ⟨⟨l, hd⟩, ⟨l', he⟩, (h.1.1 rfl).2, address, hparse, htext⟩

end Liveness

end Muster
