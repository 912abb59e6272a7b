import Mathlib.Logic.Relation
import Muster.Node
import Muster.Proofs.Calls
import Muster.Proofs.Honest
import Muster.Proofs.Shown

/-!
# Head nodes in the course of time

Whatever happens to a head node, the nodes that it knows are shown under their names: a node process is not
started with a name that has a colon, so no host of an address has one.
-/

namespace Muster

/-! ### The names that a head node comes to know -/

namespace Liveness

open Address (IsShown)

/-- The machine's own name has no colon, and every node is known under a name that it is shown under. -/
structure Shows (l : Liveness) : Prop where
  colon : ':' ∉ l.localName.toList
  reported : ∀ d, l.reported.contains d → IsShown d

variable {l : Liveness}

theorem claimedName_trimmed {nodename name : String} (h : claimedName nodename = .ok name) :
    Text.trim name = name ∧ name ≠ "" := by
  have hname := claimedName_eq h
  have hblank : Text.trim nodename ≠ "" := by
    unfold claimedName at h
    split at h
    · cases h
    · split at h
      · cases h
      · assumption
  have htwice : Text.trim (Text.trim nodename) = Text.trim nodename := by
    rw [Text.trim, Text.toList_trim, Text.trimmed_trimmed, Text.trim]
  refine ⟨by rw [hname, Text.trim_upper, htwice], ?_⟩
  rw [hname]
  intro hempty
  refine hblank (String.toList_eq_nil_iff.1 ?_)
  have hcapitals := congrArg String.toList hempty
  rw [Text.toList_upper] at hcapitals
  cases hlist : (Text.trim nodename).toList with
  | nil => rfl
  | cons c rest =>
    rw [hlist, Text.uppercase_cons] at hcapitals
    exact absurd (List.append_eq_nil_iff.1 hcapitals).1 (Text.upperChar_ne_nil c)

theorem isShown_of_heartbeat (h : ':' ∉ l.localName.toList) {timeout : Int} {nodename host d : String}
    {l' : Liveness} (hbeat : l.heartbeat timeout nodename host = .ok (l', d)) : IsShown d := by
  obtain ⟨name, address, hname, haddress, rfl, -⟩ := heartbeat_eq_ok_iff.1 hbeat
  obtain ⟨hplain, hupper⟩ := claimedName_eq_ok hname
  obtain ⟨htrim, hne⟩ := claimedName_trimmed hname
  exact ⟨address, name, ⟨Address.upper_host_of_parse haddress, Address.colon_not_mem_host haddress h, hupper,
    htrim, hne, hplain⟩, rfl⟩

/-- A node comes to be known by a heartbeat under its name. -/
theorem reported_step {timeout : Int} {e : Event} {d : String} (h : (l.step timeout e).reported.contains d) :
    l.reported.contains d ∨ ∃ nodename host l', l.heartbeat timeout nodename host = .ok (l', d) := by
  cases e with
  | heartbeat nodename host =>
    rw [step] at h
    split at h
    · rename_i l' display hbeat
      have hnote : l'.reported = l.reported.insert display l.now := by
        obtain ⟨-, rfl⟩ := heartbeat_eq_ok hbeat
        have hrenewed : (l.renewed timeout display).reported = l.reported.insert display l.now := by
          unfold renewed
          split <;> rfl
        rw [note_eq]
        split <;> exact hrenewed
      rw [SortedMap.contains, hnote] at h
      by_cases hd : d = display
      · subst hd
        exact .inr ⟨nodename, host, l', hbeat⟩
      · rw [SortedMap.get?_insert_of_ne _ _ hd] at h
        exact .inl h
    · exact .inl h
  | ask a | answer a reply =>
    rw [step] at h
    split at h <;> exact .inl h
  | wait ms | shutdown => exact .inl h

theorem Shows.step (h : l.Shows) (timeout : Int) (e : Event) : (l.step timeout e).Shows := by
  refine ⟨by rw [localName_step]; exact h.colon, fun d hd => ?_⟩
  rcases reported_step hd with hd | ⟨_, _, _, hbeat⟩
  · exact h.reported d hd
  · exact isShown_of_heartbeat h.colon hbeat

theorem shows_ofLocal {localName : String} (h : ':' ∉ localName.toList) : (ofLocal localName).Shows :=
  ⟨Address.colon_not_mem_upper h, fun _ hd => by simp [ofLocal, SortedMap.contains] at hd⟩

theorem Shows.ready (h : l.Shows) (timeout : Int) : ∀ node ∈ l.readyNodes timeout, IsShown node := by
  intro node hnode
  obtain ⟨e, he, rfl⟩ := List.mem_map.1 hnode
  refine h.reported e.1 ((SortedMap.mem_keys _ _).1 ?_)
  exact List.mem_map.2 ⟨e, (List.mem_filter.1 he).1, rfl⟩

theorem nodup_readyNodes (l : Liveness) (timeout : Int) : (l.readyNodes timeout).Nodup := SortedMap.keys_nodup _

end Liveness

namespace CommandLine.Program

theorem length_split (sep : Char) (s : List Char) : (Text.split sep s).length = s.count sep + 1 := by
  induction s with
  | nil => rfl
  | cons c rest ih =>
    rw [Text.split]
    split
    · rename_i heq
      simp [heq, ih]
    · rename_i hne
      rw [List.count_cons_of_ne hne, ← ih]
      split <;> simp_all

/-- An address has one colon at most. -/
theorem count_of_parse {address localName : String} {a : Address} (h : Address.parse address localName = .ok a) :
    address.toList.count ':' ≤ 1 := by
  have hlength := length_split ':' address.toList
  unfold Address.parse at h
  split at h
  · cases h
  · cases h
  · rename_i name rest hfew hsplit
    rw [hsplit] at hlength
    match rest, hfew with
    | [], _ => simp at hlength; omega
    | [_], _ => simp at hlength; omega
    | _ :: _ :: _, hfew => exact absurd rfl (hfew _ _ _)

/-- A node is not started with a name that has a colon. -/
theorem colon_of_config {name dataDir : String} {port : UInt16} {c : NodeConfig}
    (h : NodeConfig.new name port dataDir = .ok c) : ':' ∉ name.toList ∧ ':' ∉ c.host.host.toList := by
  unfold NodeConfig.new at h
  simp only at h
  split at h
  · cases h
  · rename_i host hparse
    cases h
    have hcount := count_of_parse hparse
    have hupper : ':' ∉ (Text.upper name).toList := by
      intro hmem
      have hpos := List.count_pos_iff.2 hmem
      simp only [String.toList_append, List.count_append] at hcount
      have hsep : (":".toList).count ':' = 1 := rfl
      omega
    refine ⟨?_, Address.colon_not_mem_host hparse hupper⟩
    intro hmem
    refine hupper ?_
    have hself : Text.upperChar ':' = [':'] := by decide +kernel
    rw [Text.toList_upper]
    exact List.mem_flatMap.2 ⟨':', hmem, by simp [hself]⟩

theorem colon_of_nodeConfig {localName file : String} {options : StartOptions} {config : NodeConfig}
    (h : nodeConfig localName file options = .ok config) : ':' ∉ config.host.host.toList := by
  unfold nodeConfig at h
  simp only [bind, Except.bind] at h
  split at h
  · cases h
  · rename_i c hnew
    obtain ⟨hname, hhost⟩ := colon_of_config hnew
    cases hopt : options.host with
    | none =>
      rw [hopt] at h
      cases h
      exact hhost
    | some address =>
      rw [hopt] at h
      simp only at h
      cases hparse : Address.parse address (options.name.getD localName) with
      | error fault =>
        rw [hparse] at h
        cases h
      | ok host =>
        rw [hparse] at h
        cases h
        exact Address.colon_not_mem_host hparse hname

end CommandLine.Program

namespace Headnode

open Dispatch (History)
open Address (IsShown)
open CommandLine.Program (again nodeConfig colon_of_nodeConfig)

/-! ### What becomes of a head node -/

/-- What can happen to a head node: nodes report, groups change, requests are accepted or refused, jobs go on, and
its process is started again with the list of jobs it left. -/
inductive Step : Headnode → Headnode → Prop
  | heard (h : Headnode) (timeout : Int) (e : Liveness.Event) :
      Step h { h with liveness := h.liveness.step timeout e }
  | regrouped (h : Headnode) (registry : Registry) : Step h { h with registry }
  | requested (h : Headnode) (engine : Pattern.Engine) (settings : Settings) {spec : JobSpec} {intersect : Bool} {nodes : List String}
      (capacity : Nat) (keepsOutput : Bool) (now : Moment)
      (hcheck : Dispatch.check engine (h.readyNodes settings) h.registry.groups spec intersect = .ok nodes) :
      Step h { h with dispatch := h.dispatch.stepAt (now, .submit spec nodes capacity keepsOutput) }
  | went (h : Headnode) (now : Moment) {e : Dispatch.Event}
      (he : ∀ spec nodes capacity keepsOutput, e ≠ .submit spec nodes capacity keepsOutput) :
      Step h { h with dispatch := h.dispatch.stepAt (now, e) }
  | restarted (h : Headnode) {localName file : String} {options : CommandLine.StartOptions} {config : NodeConfig}
      {output : Files} {groups : Json.Stored} {refusals : Store.Refusals} {store : Store} {h' : Headnode}
      (hconfig : nodeConfig localName file options = .ok config)
      (hstart : start config.host config.host.host ⟨h.dispatch.store.file, output⟩ groups refusals =
        (store, .ok h')) :
      Step h h'

/-- The states that a head node comes to which is started with some store. -/
inductive Serves : Headnode → Prop
  | started {localName file : String} {options : CommandLine.StartOptions} {config : NodeConfig} {store : Store}
      {groups : Json.Stored} {refusals : Store.Refusals} {opened : Store} {h : Headnode}
      (hconfig : nodeConfig localName file options = .ok config)
      (hstart : start config.host config.host.host store groups refusals = (opened, .ok h)) : Serves h
  | step {h h' : Headnode} (hserves : Serves h) (hstep : Step h h') : Serves h'

/-- A head node that is started knows no node, and of jobs and groups what their files open with. -/
theorem start_eq_ok {address : Address} {localName : String} {store opened : Store} {groups : Json.Stored}
    {refusals : Store.Refusals} {h : Headnode}
    (hstart : start address localName store groups refusals = (opened, .ok h)) :
    h.liveness = .ofLocal localName ∧ h.dispatch = { store := opened } ∧ store.recover refusals = (opened, .ok ()) ∧
      Registry.open? groups = .ok h.registry := by
  unfold start at hstart
  split at hstart
  · cases hstart
  · rename_i recovered _ hrecover
    cases hgroups : Registry.open? groups with
    | error fault =>
      rw [hgroups] at hstart
      cases hstart
    | ok registry =>
      rw [hgroups] at hstart
      cases hstart
      exact ⟨rfl, rfl, hrecover, rfl⟩

/-- What holds of the nodes it knows and of its jobs, whatever has happened. -/
theorem Serves.known {h : Headnode} (hserves : h.Serves) : h.liveness.Shows ∧ h.dispatch.Reached := by
  have hstarted {address : Address} {localName : String} {store opened : Store} {groups : Json.Stored}
      {refusals : Store.Refusals} {h : Headnode} (hcolon : ':' ∉ localName.toList)
      (hstart : start address localName store groups refusals = (opened, .ok h)) :
      h.liveness.Shows ∧ h.dispatch.Reached := by
    obtain ⟨hliveness, hdispatch, -⟩ := start_eq_ok hstart
    rw [hliveness, hdispatch]
    exact ⟨Liveness.shows_ofLocal hcolon, opened, [], rfl⟩
  have hstepped {d : Dispatch} (hd : d.Reached) (e : Moment × Dispatch.Event) : (d.stepAt e).Reached := by
    obtain ⟨store, events, rfl⟩ := hd
    exact ⟨store, events ++ [e], (Dispatch.runAt_concat _ _ _).symm⟩
  induction hserves with
  | started hconfig hstart => exact hstarted (colon_of_nodeConfig hconfig) hstart
  | step _ hstep ih =>
    cases hstep with
    | heard timeout e => exact ⟨ih.1.step timeout e, ih.2⟩
    | regrouped registry => exact ih
    | @requested _ settings spec _ nodes capacity keepsOutput now hcheck =>
      exact ⟨ih.1, hstepped ih.2 (now, .submit spec nodes capacity keepsOutput)⟩
    | went now he =>
      refine ⟨ih.1, ?_⟩
      exact hstepped ih.2 _
    | restarted hconfig hstart => exact hstarted (colon_of_nodeConfig hconfig) hstart

theorem Serves.later {h h' : Headnode} (hserves : h.Serves) (hlater : Relation.ReflTransGen Step h h') : h'.Serves := by
  induction hlater with
  | refl => exact hserves
  | tail _ hstep ih => exact ih.step hstep

end Headnode

end Muster
