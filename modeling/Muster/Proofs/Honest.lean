import Muster.Clusnode
import Muster.NodeConfig
import Muster.Proofs.Trimming
import Muster.Proofs.Watch

/-!
# Workers that give their own name

A worker reports with the name it is configured with, and gives that name when it is asked. The head node trims
the name that is reported and takes the name that is given as it is. So a worker is confirmed if its configured
name has no blanks at its ends, and is taken for another one if it has.
-/

namespace Muster

theorem NodeConfig.nodeName_of_new {name : String} {port : UInt16} {dataDir : String} {c : NodeConfig}
    (h : NodeConfig.new name port dataDir = .ok c) : c.nodeName = Text.upper name := by
  unfold NodeConfig.new at h
  simp only at h
  split at h
  · cases h
  · cases h
    rfl

namespace Clusnode

/-- A heartbeat of a worker, as it comes to a head node. -/
def beat (w : Clusnode) : Liveness.Event := .heartbeat w.reporter.nodeName w.reporter.host.text

/-- The worker of a node that is configured with a name. -/
def named (name : String) (host : Address) : Clusnode := .new (Text.upper name) host

variable (name : String) (host : Address)

@[simp] theorem validate_named : (named name host).validate = Text.upper name := Text.upper_upper _

@[simp] theorem beat_named : (named name host).beat = .heartbeat (Text.upper name) host.text := by
  rw [beat, named, Clusnode.new, Reporter.new]
  simp only [Text.upper_upper]

end Clusnode

namespace Liveness

section

variable {timeout : Int} {d : String} {l : Liveness} {e : Event} {w : Watch}

theorem claimedName_eq {nodename name : String} (h : claimedName nodename = .ok name) :
    name = Text.upper (Text.trim nodename) := by
  unfold claimedName at h
  split at h
  · cases h
  · split at h
    · cases h
    · rw [Except.ok.injEq] at h
      exact h.symm

/-- A display name tells the address from which its node reports. -/
theorem address_of_reports {nodename host : String} (h : Reports timeout d l (.heartbeat nodename host)) :
    ∃ address, Address.parse host l.localName = .ok address ∧ Address.ofDisplayName d = address.text := by
  obtain ⟨_, _, l', he, hok⟩ := h
  cases he
  obtain ⟨name, address, hname, haddress, rfl, -⟩ := heartbeat_eq_ok_iff.1 hok
  obtain ⟨hplain, hupper⟩ := claimedName_eq_ok hname
  rw [← hupper] at hplain
  exact ⟨address, haddress, Address.ofDisplayName_displayName address hplain⟩

/-- The name that a worker gives is the one that it claims, but for blanks at the ends. -/
theorem upper_validate_eq_iff {name : String} {host : Address}
    (h : Reports timeout d l (Clusnode.named name host).beat) :
    Text.upper (Clusnode.named name host).validate = Address.nameOf d ↔ Text.trim name = name := by
  rw [Clusnode.beat_named] at h
  obtain ⟨_, _, l', he, hok⟩ := h
  cases he
  rw [claimedName_eq (heartbeat_eq_ok hok).1, Clusnode.validate_named, Text.upper_upper, Text.trim_upper,
    Text.upper_upper, ← Text.trim_upper, eq_comm]
  exact Text.trim_upper_eq_iff name

/-- An attempt that is under way sets the counter when it ends. -/
theorem counter_of_completes (timeout : Int) {a : Attempt} {reply : ProbeReply} (h : (l.watch d).Fits d)
    (hdone : Completes d l e a reply) :
    a.name = Address.nameOf d ∧ a.host = Address.ofDisplayName d ∧
      ((l.step timeout e).watch d).counter = some (outcome a.name a.failures reply) := by
  have ha := mem_watch.2 ⟨hdone.2.1, hdone.2.2.2⟩
  refine ⟨(h.own a ha).2.1, (h.own a ha).2.2, ?_⟩
  rw [hdone.1, step, if_pos ⟨hdone.2.1, hdone.2.2.1⟩, watch_conclude, if_pos hdone.2.2.2]
  simp only [if_pos (h.probing (List.ne_nil_of_mem ha))]

/-- A node is taken for another one only by an answer with another name. -/
theorem Turn.spared (ht : Turn timeout d l e w) (h : (l.watch d).Fits d)
    (hanswers : ∀ a reply, Completes d l e a reply → outcome (Address.nameOf d) a.failures reply ≠ pinned)
    (hbefore : (l.watch d).counter ≠ some pinned) : w.counter ≠ some pinned := by
  cases ht with
  | stayed | asked | noted | stopped => exact hbefore
  | retried | started => simp [validating, pinned]
  | @completed a reply hdone =>
    have ha := mem_watch.2 ⟨hdone.2.1, hdone.2.2.2⟩
    simp only [if_pos (h.probing (List.ne_nil_of_mem ha)), (h.own a ha).2.1, ne_eq, Option.some.injEq]
    exact hanswers a reply hdone

theorem outcome_unreachable_ne_pinned (name : String) (failures : Int) :
    outcome name failures .unreachable ≠ pinned := by
  simp only [outcome, pinned]
  omega

theorem localName_step (timeout : Int) (l : Liveness) (e : Event) :
    (l.step timeout e).localName = l.localName := by
  cases e with
  | heartbeat nodename host =>
    rw [step]
    split
    · rename_i l' d hbeat
      obtain ⟨-, rfl⟩ := heartbeat_eq_ok hbeat
      have hrenewed : (l.renewed timeout d).localName = l.localName := by
        unfold renewed
        split <;> rfl
      rw [note_eq]
      split <;> exact hrenewed
    · rfl
  | ask | answer =>
    rw [step]
    split <;> rfl
  | wait | shutdown => rfl

theorem localName_run (localName : String) (timeout : Int) (events : List Event) :
    ((ofLocal localName).run timeout events).localName = Text.upper localName := by
  induction events using List.reverseRecOn with
  | nil => rfl
  | append_singleton events e ih => rw [run_concat, localName_step, ih]

end

/-- A node's counter is never that of one that gave another name, as long as no answer for it does. -/
theorem not_pinned_of_answers {localName : String} {timeout : Int} {d : String} {events : List Event}
    (h : ∀ s e t, events = s ++ e :: t → ∀ a reply,
      Completes d ((ofLocal localName).run timeout s) e a reply →
        outcome (Address.nameOf d) a.failures reply ≠ pinned) :
    (((ofLocal localName).run timeout events).watch d).counter ≠ some pinned := by
  induction events using List.reverseRecOn with
  | nil => simp [watch, ofLocal]
  | append_singleton events e ih =>
    rw [run_concat]
    refine (turn_step timeout d _ e).spared (fits_run localName timeout events d) (h events e [] rfl) (ih ?_)
    rintro s e' t rfl
    exact h s e' (t ++ [e]) (by simp)

/-- A worker reports with its configured name to a head node. Whenever an attempt for it ends with the name
that it gives, at the address from which it reported, it is confirmed if its configured name has no blanks at the
ends, and else it is taken for another one. Without such blanks it is never taken for another one in the whole
run, as long as its host gives that name or no answer. -/
theorem confirmed_iff_of_honest {name : String} {port : UInt16} {dataDir : String} {c : NodeConfig}
    (hconfig : NodeConfig.new name port dataDir = .ok c) (host : Address) (localName : String) (timeout : Int)
    {s : List Event} {d : String}
    (hreport : Reports timeout d ((ofLocal localName).run timeout s) (Clusnode.new c.nodeName host).beat)
    (t : List Event) :
    (∀ e a, Completes d ((ofLocal localName).run timeout (s ++ (Clusnode.new c.nodeName host).beat :: t)) e a
        (.named (Clusnode.new c.nodeName host).validate) →
      (∃ address, Address.parse host.text (Text.upper localName) = .ok address ∧ a.host = address.text) ∧
        ((ofLocal localName).run timeout
            (s ++ (Clusnode.new c.nodeName host).beat :: t ++ [e])).counters.get? d =
          some (if Text.trim name = name then validated else pinned)) ∧
      (Text.trim name = name →
        (∀ u e v, s ++ (Clusnode.new c.nodeName host).beat :: t = u ++ e :: v → ∀ a reply,
          Completes d ((ofLocal localName).run timeout u) e a reply →
            reply = .named (Clusnode.new c.nodeName host).validate ∨ reply = .unreachable) →
        ((ofLocal localName).run timeout (s ++ (Clusnode.new c.nodeName host).beat :: t)).counters.get? d ≠
          some pinned) := by
  have hworker : Clusnode.new c.nodeName host = Clusnode.named name host := by
    rw [NodeConfig.nodeName_of_new hconfig, Clusnode.named]
  rw [hworker] at hreport ⊢
  have hname := upper_validate_eq_iff hreport
  refine ⟨?_, ?_⟩
  · intro e a hdone
    have hfits := fits_run localName timeout (s ++ (Clusnode.named name host).beat :: t) d
    obtain ⟨hclaim, hhost, hcounter⟩ := counter_of_completes timeout hfits hdone
    rw [Clusnode.beat_named] at hreport
    obtain ⟨address, hparse, haddress⟩ := address_of_reports hreport
    rw [localName_run] at hparse
    refine ⟨⟨address, hparse, hhost.trans haddress⟩, ?_⟩
    rw [run_concat]
    refine hcounter.trans ?_
    simp only [outcome, hclaim, hname]
  · intro htrim hanswers
    refine not_pinned_of_answers ?_
    intro u e v heq a reply hdone
    rcases hanswers u e v heq a reply hdone with rfl | rfl
    · simp only [outcome, if_pos (hname.2 htrim)]
      decide
    · exact outcome_unreachable_ne_pinned _ _

/-- A node on the usual port whose name is spelled so. -/
def spelled (nodeName : String) : NodeConfig :=
  ⟨nodeName, ⟨"NODE", 50505⟩, 50505, "data", "data/clusrun.config", "data/clusrun.lock", []⟩

/-- The worker of such a node. -/
def worker (nodeName : String) : Clusnode := .new (spelled nodeName).nodeName (spelled nodeName).host

/-- It reports, and its host is asked for its name. -/
def introduced (nodeName : String) : List Event := [(worker nodeName).beat, .ask (ownAttempt 0 0 false)]

/-- Its host gives the name. -/
def answered (nodeName : String) : Event :=
  .answer (ownAttempt 0 0 true) (.named (worker nodeName).validate)

theorem heartbeat_of_claim {nodename : String} (hname : claimedName nodename = .ok "NODE") (timeout : Int)
    (l : Liveness) :
    l.heartbeat timeout nodename "NODE:50505" = .ok (l.note timeout "NODE" "NODE" "NODE:50505", "NODE") := by
  have haddress : Address.parse "NODE:50505" l.localName = .ok ⟨"NODE", 50505⟩ := rfl
  have hdisplay : (Address.displayName ⟨"NODE", 50505⟩ "NODE") = "NODE" := by decide +kernel
  rw [heartbeat, hname, haddress]
  simp only [bind, Except.bind, hdisplay]
  rfl

section

variable {nodeName : String} (hupper : Text.upper nodeName = nodeName) (hname : claimedName nodeName = .ok "NODE")

include hupper

theorem beat_worker : (worker nodeName).beat = .heartbeat nodeName "NODE:50505" := by
  have htext : (Address.text ⟨"NODE", 50505⟩) = "NODE:50505" := by decide +kernel
  simp only [worker, spelled, Clusnode.beat, Clusnode.new, Reporter.new, hupper, htext]

include hname

theorem reports_worker (timeout : Int) (l : Liveness) : Reports timeout "NODE" l (worker nodeName).beat :=
  ⟨nodeName, "NODE:50505", _, beat_worker hupper, heartbeat_of_claim hname timeout l⟩

theorem run_worker (timeout : Int) (l : Liveness) (events : List Event) :
    l.run timeout ((worker nodeName).beat :: events) =
      (l.note timeout "NODE" "NODE" "NODE:50505").run timeout events := by
  rw [run, List.foldl_cons, beat_worker hupper, step, heartbeat_of_claim hname]
  rfl

theorem completes_answered : Completes "NODE" ((ofLocal "head").run 10 (introduced nodeName)) (answered nodeName)
    (ownAttempt 0 0 true) (.named (worker nodeName).validate) := by
  refine ⟨rfl, ?_, rfl, rfl⟩
  rw [introduced, run_worker hupper hname]
  decide +kernel

end

theorem claimedName_node : claimedName "NODE" = .ok "NODE" := by
  have hplain : ("NODE".contains '(' || "NODE".contains ')') = false := by simp
  rw [claimedName, hplain]
  decide +kernel

/-- A worker with a plain name is confirmed. -/
theorem confirmed_of_plain :
    ((ofLocal "head").run 10 (introduced "NODE" ++ [answered "NODE"])).counters.get? "NODE" = some validated ∧
      ((ofLocal "head").run 10 (introduced "NODE")).counters.get? "NODE" ≠ some pinned := by
  have hupper : Text.upper "NODE" = "NODE" := by decide +kernel
  have htrim : Text.trim "node" = "node" := by decide +kernel
  have hconfig : NodeConfig.new "node" 50505 "data" = .ok (spelled "NODE") := rfl
  obtain ⟨hdone, hnever⟩ := confirmed_iff_of_honest hconfig ⟨"NODE", 50505⟩ "head" 10 (s := [])
    (reports_worker hupper claimedName_node 10 (ofLocal "head")) [.ask (ownAttempt 0 0 false)]
  obtain ⟨-, hcounter⟩ := hdone _ _ (completes_answered hupper claimedName_node)
  rw [if_pos htrim] at hcounter
  refine ⟨hcounter, hnever htrim ?_⟩
  intro u e v h a reply hcompletes
  have he : e ∈ u ++ e :: v := by simp
  rw [← h] at he
  simp only [List.nil_append, List.mem_cons, List.not_mem_nil, or_false] at he
  rcases he with rfl | rfl <;> cases hcompletes.1

/-- A worker with blanks around its name is accepted and gives the name that it reports with, and yet it is taken
for another one. -/
theorem padded_is_pinned :
    ∃ c, NodeConfig.new " node " 50505 "data" = .ok c ∧
      Reports 10 "NODE" (ofLocal "head") (Clusnode.new c.nodeName c.host).beat ∧
      Completes "NODE" ((ofLocal "head").run 10 (introduced c.nodeName)) (answered c.nodeName)
        (ownAttempt 0 0 true) (.named (Clusnode.new c.nodeName c.host).validate) ∧
      ((ofLocal "head").run 10 (introduced c.nodeName ++ [answered c.nodeName])).counters.get? "NODE" =
        some pinned := by
  have hupper : Text.upper " NODE " = " NODE " := by decide +kernel
  have hname : claimedName " NODE " = .ok "NODE" := by
    have hplain : (" NODE ".contains '(' || " NODE ".contains ')') = false := by simp
    rw [claimedName, hplain]
    decide +kernel
  refine ⟨spelled " NODE ", rfl, reports_worker hupper hname 10 _, completes_answered hupper hname, ?_⟩
  rw [introduced, List.cons_append]
  rw [show (spelled " NODE ").nodeName = " NODE " from rfl, run_worker hupper hname]
  decide +kernel

end Liveness

end Muster
