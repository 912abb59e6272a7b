import Muster.Proofs.HostEntries
import Muster.Proofs.Membership
import Muster.Proofs.Opening
import Muster.Proofs.Rereading

/-!
# Nodes that are started again

A node that is started again reports to the head nodes to which it reported in the end. It reports to each under
the text of its address. This text is read as that address again, and whatever changes the list or the settings
saves the list with them. So the file keeps what the node reports to, and the list that is loaded from it comes
out the same.
-/

namespace Muster

open Json (Stored)

/-! ### Lists of head nodes -/

namespace Reporter

/-- An entry of a list stands for a head node, on a machine with its own name. -/
def Names (localName entry headnode : String) : Prop :=
  ∃ address, Address.parse entry localName = .ok address ∧ address.text = headnode

/-- The node at an address reports, and each of its head nodes stands for itself. -/
structure Keyed (own : Address) (r : Reporter) : Prop where
  host : r.host = own
  named : ∀ headnode ∈ r.headnodes, Names own.host headnode headnode

variable {host : Address} {r : Reporter} {entry headnode : String}

theorem mem_headnodes : headnode ∈ r.headnodes ↔ r.links.contains headnode := SortedMap.mem_keys _ _

/-- An entry that stands for a head node stands for it under the name that it is listed with. -/
theorem Names.self {localName : String} (hlocal : Address.IsHost localName) (h : Names localName entry headnode) :
    Names localName headnode headnode := by
  obtain ⟨address, hparse, rfl⟩ := h
  exact ⟨address, Address.parse_text_of_parse hlocal hparse, rfl⟩

theorem host_addOne (r : Reporter) (entry : String) : (r.addOne entry).1.host = r.host := by
  unfold addOne
  split
  · rfl
  · simp only
    split <;> rfl

theorem mem_headnodes_addOne (r : Reporter) (entry headnode : String) :
    headnode ∈ (r.addOne entry).1.headnodes ↔ headnode ∈ r.headnodes ∨ Names r.host.host entry headnode := by
  unfold addOne Names
  cases hparse : Address.parse entry r.host.host with
  | error fault => simp
  | ok address =>
    simp only [Except.ok.injEq, exists_eq_left']
    cases hlink : r.links.get? address.text with
    | some task =>
      refine ⟨.inl, ?_⟩
      rintro (h | rfl)
      · exact h
      · exact mem_headnodes.2 (by simp [SortedMap.contains, hlink])
    | none => rw [mem_headnodes, SortedMap.contains_insert, mem_headnodes, or_comm, eq_comm (a := headnode)]

theorem host_removeOne (r : Reporter) (entry : String) : (r.removeOne entry).1.host = r.host := by
  unfold removeOne
  split
  · rfl
  · simp only
    split <;> rfl

theorem mem_of_mem_removeOne (h : headnode ∈ (r.removeOne entry).1.headnodes) : headnode ∈ r.headnodes := by
  unfold removeOne at h
  split at h
  · exact h
  · simp only at h
    split at h
    · rw [mem_headnodes, SortedMap.contains_erase] at h
      exact mem_headnodes.2 h.2
    · exact h

theorem Keyed.addOne (hhost : Address.IsHost host.host) (h : Keyed host r) (entry : String) :
    Keyed host (r.addOne entry).1 := by
  refine ⟨(host_addOne r entry).trans h.host, fun headnode hmem => ?_⟩
  rcases (mem_headnodes_addOne r entry headnode).1 hmem with hmem | hnames
  · exact h.named headnode hmem
  · rw [h.host] at hnames
    exact hnames.self hhost

theorem Keyed.removeOne (h : Keyed host r) (entry : String) : Keyed host (r.removeOne entry).1 :=
  ⟨(host_removeOne r entry).trans h.host, fun headnode hmem => h.named headnode (mem_of_mem_removeOne hmem)⟩

theorem Keyed.applyAll {one : Reporter → String → Reporter × String × Change}
    (hone : ∀ r entry, Keyed host r → Keyed host (one r entry).1) (h : Keyed host r)
    (changes : SortedMap String Change) (entries : List String) :
    Keyed host (Reporter.applyAll one r changes entries).1 := by
  induction entries generalizing r changes with
  | nil => exact h
  | cons entry rest ih => exact ih (hone r entry h) _

/-- Whatever changes a list makes, its head nodes stand for themselves. -/
theorem Keyed.set (hhost : Address.IsHost host.host) (h : Keyed host r) (mode : Mode) (entries : List String) :
    Keyed host (r.set mode entries).1 := by
  have hadd := h.applyAll (fun r entry hr => hr.addOne hhost entry) ∅ entries
  cases mode with
  | add => exact hadd
  | remove => exact h.applyAll (fun r entry hr => hr.removeOne entry) ∅ entries
  | replace => exact hadd.applyAll (fun r entry hr => hr.removeOne entry) _ _

theorem keyed_new (nodeName : String) (host : Address) : Keyed host (.new nodeName host) :=
  ⟨rfl, fun _ h => nomatch h⟩

theorem Keyed.changeTask (h : Keyed host r) (task : Nat) (f : Task → Task) : Keyed host (r.changeTask task f) :=
  ⟨h.host, h.named⟩

/-- New entries that stand for themselves are added with a task for each. -/
theorem applyAll_addOne {entries : List String} (hnew : ∀ entry ∈ entries, entry ∉ r.headnodes)
    (hnames : ∀ entry ∈ entries, Names r.host.host entry entry) (hnodup : entries.Nodup)
    (changes : SortedMap String Change) :
    (∀ headnode, headnode ∈ (applyAll addOne r changes entries).1.headnodes ↔
        headnode ∈ r.headnodes ∨ headnode ∈ entries) ∧
      (applyAll addOne r changes entries).1.tasks =
        r.tasks ++ entries.map fun headnode => { headnode, cancelled := r.stopped } := by
  induction entries generalizing r changes with
  | nil => simp [applyAll]
  | cons entry rest ih =>
    obtain ⟨address, hparse, htext⟩ := hnames entry (by simp)
    have hlink : r.links.get? entry = none := by
      have hentry := hnew entry (by simp)
      simpa [mem_headnodes, SortedMap.contains] using hentry
    have hadd : r.addOne entry =
        ({ r with
          links := r.links.insert entry r.tasks.length
          tasks := r.tasks ++ [{ headnode := entry, cancelled := r.stopped }] }, entry, .added) := by
      simp only [addOne, hparse, htext, hlink]
    have hlinks (headnode : String) : headnode ∈ (r.addOne entry).1.headnodes ↔
        headnode = entry ∨ headnode ∈ r.headnodes := by
      rw [hadd, mem_headnodes, SortedMap.contains_insert, mem_headnodes]
    obtain ⟨hnotin, hrest⟩ := List.nodup_cons.1 hnodup
    have hnext := ih (r := (r.addOne entry).1)
      (fun other hother hmem => by
        rcases (hlinks other).1 hmem with rfl | hmem
        · exact hnotin hother
        · exact hnew other (by simp [hother]) hmem)
      (fun other hother => by
        rw [host_addOne]
        exact hnames other (by simp [hother])) hrest (changes.insert (r.addOne entry).2.1 (r.addOne entry).2.2)
    refine ⟨fun headnode => ?_, ?_⟩
    · rw [applyAll, hnext.1, hlinks, List.mem_cons]
      tauto
    · rw [applyAll, hnext.2, hadd]
      simp

/-- A new list that is given the head nodes of another list is that list, with a task for each. -/
theorem set_add_new (nodeName : String) (h : Keyed host r) :
    (((new nodeName host).set .add r.headnodes).1).headnodes = r.headnodes ∧
      (((new nodeName host).set .add r.headnodes).1).tasks = r.headnodes.map fun headnode => { headnode } := by
  have hnone (headnode : String) : headnode ∉ (new nodeName host).headnodes := fun hmem => nomatch hmem
  obtain ⟨hlinks, htasks⟩ := applyAll_addOne (r := new nodeName host) (fun entry _ => hnone entry) h.named
    (SortedMap.keys_nodup _) ∅
  refine ⟨SortedMap.keys_eq_of_mem_iff fun headnode => ?_, htasks⟩
  exact (hlinks headnode).trans (or_iff_right (hnone headnode))

end Reporter

/-! ### The list in the file -/

namespace ConfigFile

/-- The file keeps these head nodes for a host. -/
def Keeps (file : Stored) (host : String) (headnodes : List String) : Prop :=
  Sorted.look headnodesName (roleObject file host .clusnode) = some (Json.strings headnodes)

variable {file : Stored} {host : String} {headnodes : List String}

theorem Keeps.load (h : Keeps file host headnodes) (s : Settings) : (load file host s).2 = headnodes := by
  rw [load_eq, savedHeadnodes, h]
  simp [Json.strings, List.filterMap_map, Function.comp_def, Json.asString?]

theorem keeps_save (file : Stored) (host : String) (s : Settings) (headnodes : List String) :
    Keeps (save file host s (some headnodes)) host headnodes := by
  rw [Keeps, roleObject_save_self]
  exact (Sorted.look_put _ _ _ _).trans (if_pos Std.ReflCmp.compare_self)

theorem Keeps.save_none (h : Keeps file host headnodes) (s : Settings) :
    Keeps (save file host s none) host headnodes := by
  rw [Keeps, roleObject_save_self]
  exact (s.look_save_of_ne (fun setting _ => name_ne_headnodesName setting) _).trans h

theorem Keeps.save_of_ne (h : Keeps file host headnodes) {other : String} (hne : host ≠ other) (s : Settings)
    (saved : Option (List String)) : Keeps (save file other s saved) host headnodes := by
  rw [Keeps, roleObject_save_of_ne hne]
  exact h

end ConfigFile

/-! ### The course of a node -/

namespace Clusnode

theorem setHeadnodes_eq (c : Clusnode) (settings : Settings) (file : Stored) (mode : Reporter.Mode)
    (entries : List String) :
    c.setHeadnodes settings file mode entries =
      ({ c with reporter := (c.reporter.set mode entries).1 },
        ConfigFile.save file c.reporter.host.text settings (some (c.reporter.set mode entries).1.headnodes),
        (c.reporter.set mode entries).2.mapValues fun _ change => change.message) := rfl

theorem setConfigs_eq (c : Clusnode) (settings : Settings) (file : Stored) (configs : SortedMap String String) :
    c.setConfigs settings file configs =
      ((settings.set .clusnode configs).1,
        ConfigFile.save file c.reporter.host.text (settings.set .clusnode configs).1 (some c.reporter.headnodes),
        (settings.set .clusnode configs).2) := rfl

end Clusnode

namespace Node

/-- What can happen to a node while it serves, as far as its head nodes and its settings go. -/
inductive Event
  | setHeadnodes (mode : Reporter.Mode) (entries : List String)
  | setConfigs (role : Role) (configs : SortedMap String String)
  /-- The task of a head node goes on. -/
  | attempt (task : Nat)
  | attempted (task : Nat) (beat : Reporter.Beat)
  | stop (task : Nat)
  /-- Another node of the machine saves. -/
  | elsewhere (saving : ConfigFile.Saving)

/-- What becomes of a reporter. -/
def turn (node : Node) (e : Reporter.Event) : Node :=
  { node with clusnode := { node.clusnode with reporter := node.clusnode.reporter.step e } }

/-- What an event does to a node and to the file of the machine; one that cannot happen does nothing. -/
def serve (s : Node × Stored) : Event → Node × Stored
  | .setHeadnodes mode entries =>
    let (clusnode, file, _) := s.1.clusnode.setHeadnodes s.1.settings s.2 mode entries
    ({ s.1 with clusnode }, file)
  | .setConfigs .clusnode configs =>
    let (settings, file, _) := s.1.clusnode.setConfigs s.1.settings s.2 configs
    ({ s.1 with settings }, file)
  | .setConfigs .headnode configs =>
    let (settings, file, _) := Headnode.setConfigs s.1.config.host.text s.1.settings s.2 configs
    ({ s.1 with settings }, file)
  | .attempt task => (s.1.turn (.attempt task), s.2)
  | .attempted task beat => (s.1.turn (.attempted task beat), s.2)
  | .stop task => (s.1.turn (.stop task), s.2)
  | .elsewhere saving =>
    if saving.host = s.1.config.host.text then s
    else (s.1, ConfigFile.save s.2 saving.host saving.settings saving.headnodes)

def serveAll (s : Node × Stored) (events : List Event) : Node × Stored := events.foldl serve s

/-- A node with its configuration and its role of a head node as they were; its file keeps the head nodes that it
reports to. -/
structure Keeps (c : NodeConfig) (h : Headnode) (s : Node × Stored) : Prop where
  config : s.1.config = c
  headnode : s.1.headnode = h
  keyed : s.1.clusnode.reporter.Keyed c.host
  saved : ConfigFile.Keeps s.2 c.host.text s.1.clusnode.reporter.headnodes

variable {config : NodeConfig} {headnode : Headnode} {s : Node × Stored}

theorem Keeps.turn (h : Keeps config headnode s) {e : Reporter.Event}
    (hkeyed : (s.1.clusnode.reporter.step e).Keyed config.host)
    (hsame : (s.1.clusnode.reporter.step e).headnodes = s.1.clusnode.reporter.headnodes) :
    Keeps config headnode (s.1.turn e, s.2) := by
  refine ⟨h.config, h.headnode, hkeyed, ?_⟩
  have hsaved := h.saved
  rw [← hsame] at hsaved
  exact hsaved

/-- Whatever happens to a node, its file keeps its head nodes. -/
theorem Keeps.serve (hhost : Address.IsHost config.host.host) (h : Keeps config headnode s) (e : Event) :
    Keeps config headnode (serve s e) := by
  have htext : s.1.clusnode.reporter.host.text = config.host.text := by rw [h.keyed.host]
  cases e with
  | setHeadnodes mode entries =>
    refine ⟨h.config, h.headnode, h.keyed.set hhost mode entries, ?_⟩
    simp only [Node.serve, Clusnode.setHeadnodes_eq, htext]
    exact ConfigFile.keeps_save _ _ _ _
  | setConfigs role configs =>
    cases role with
    | clusnode =>
      refine ⟨h.config, h.headnode, h.keyed, ?_⟩
      simp only [Node.serve, Clusnode.setConfigs_eq, htext]
      exact ConfigFile.keeps_save _ _ _ _
    | headnode =>
      refine ⟨h.config, h.headnode, h.keyed, ?_⟩
      simp only [Node.serve, Headnode.setConfigs, h.config]
      exact h.saved.save_none _
  | attempt task => exact h.turn (h.keyed.changeTask task _) rfl
  | attempted task beat => exact h.turn (h.keyed.changeTask task _) rfl
  | stop task => exact h.turn (h.keyed.changeTask task _) rfl
  | elsewhere saving =>
    rw [Node.serve]
    split
    · exact h
    · rename_i hother
      refine ⟨h.config, h.headnode, h.keyed, h.saved.save_of_ne (fun heq => hother ?_) _ _⟩
      rw [h.config, heq]

theorem Keeps.serveAll (hhost : Address.IsHost config.host.host) (h : Keeps config headnode s)
    (events : List Event) : Keeps config headnode (serveAll s events) := by
  induction events generalizing s with
  | nil => exact h
  | cons e rest ih => exact ih (h.serve hhost e)

/-! ### Starts -/

/-- The list that a node begins to report to. -/
def firstReporter (config : NodeConfig) (file : Stored) : Reporter :=
  ((Reporter.new config.nodeName config.host).set .add
    (reportTo config (ConfigFile.load file config.host.text {}).2)).1

variable {file file₁ : Stored} {data data₁ : NodeData} {node : Node}

/-- A node is started exactly if it can be opened as a head node, and then it saves what it reports to. -/
theorem start_eq_ok_iff :
    start config file data = (data₁, file₁, .ok node) ↔
      ∃ store headnode,
        Headnode.start config.host config.host.host ⟨data.jobs, data.output⟩ data.groups = (store, .ok headnode) ∧
        data₁ = ⟨store.file, headnode.registry.file, store.output, true⟩ ∧
        file₁ = ConfigFile.save file config.host.text (ConfigFile.load file config.host.text {}).1
          (some (firstReporter config file).headnodes) ∧
        node = ⟨config, (ConfigFile.load file config.host.text {}).1, headnode,
          { Clusnode.new config.nodeName config.host with reporter := firstReporter config file }⟩ := by
  unfold start init
  simp only
  cases hopen : Headnode.start config.host config.host.host ⟨data.jobs, data.output⟩ data.groups with
  | mk store result =>
    cases result with
    | error fault => simp
    | ok headnode =>
      simp only [report, Prod.mk.injEq, Except.ok.injEq]
      constructor
      · rintro ⟨rfl, rfl, rfl⟩
        exact ⟨store, headnode, ⟨rfl, rfl⟩, rfl, rfl, rfl⟩
      · rintro ⟨_, _, ⟨rfl, rfl⟩, rfl, rfl, rfl⟩
        exact ⟨rfl, rfl, rfl⟩

theorem keeps_start (hhost : Address.IsHost config.host.host)
    (hstart : start config file data = (data₁, file₁, .ok node)) :
    Keeps config node.headnode (node, file₁) := by
  obtain ⟨store, headnode, -, -, rfl, rfl⟩ := start_eq_ok_iff.1 hstart
  exact ⟨rfl, rfl, (Reporter.keyed_new _ _).set hhost _ _, ConfigFile.keeps_save _ _ _ _⟩

end Node

/-! ### Opening what a node left -/

namespace Registry

/-- What was opened is opened again. -/
theorem open?_file {file : Stored} {opened : Registry} (h : open? file = .ok opened) :
    open? opened.file = .ok opened := by
  cases file with
  | absent =>
    cases h
    rfl
  | damaged => cases h
  | malformed => cases h
  | document spelled =>
    have hsame : opened.file = .document spelled := by
      unfold open? at h
      simp only at h
      split at h
      · cases h
        rfl
      · cases h
    rw [hsame, h]

end Registry

namespace Headnode

/-- A head node is opened again with what it kept when it was opened. -/
theorem exists_start_again {address : Address} {localName : String} {store opened : Store} {groups : Stored}
    {h : Headnode} (hstart : start address localName store groups = (opened, .ok h)) (other : Address)
    (otherName : String) :
    ∃ last again, start other otherName h.dispatch.store h.registry.file = (last, .ok again) := by
  obtain ⟨-, hdispatch, hrecover, hgroups⟩ := start_eq_ok hstart
  have hjobs : ∃ jobs, h.dispatch.store.jobs = .ok jobs := by
    rw [hdispatch]
    rcases Store.recover_cases hrecover with ⟨-, hempty, -⟩ | ⟨_, -, hmarked, -⟩
    · exact ⟨_, hempty⟩
    · exact ⟨_, hmarked⟩
  obtain ⟨jobs, hjobs⟩ := hjobs
  rw [start, Store.recover_eq hjobs, Registry.open?_file hgroups]
  exact ⟨_, _, rfl⟩

end Headnode

/-! ### The same head nodes again -/

namespace Node

variable {config again : NodeConfig} {file file₁ left : Stored} {data data₁ : NodeData} {node last : Node}

/-- A node is started and serves requests to change its head nodes and its settings, while its tasks go on and
other nodes of the machine save. If it reports to any head node in the end and is started again, with the file it
left and no head nodes configured, then it starts; and from then on it reports to exactly those head nodes, with
one task for each, and the file keeps exactly them. -/
theorem reports_again (hmade : config.Made) (htrim : Text.trim config.host.host = config.host.host)
    (hstart : start config file data = (data₁, file₁, .ok node)) {events : List Event}
    (hserve : serveAll (node, file₁) events = (last, left)) (hsome : last.clusnode.reporter.headnodes ≠ [])
    (hhost : again.host = config.host) (hnone : again.headnodes = []) :
    (∃ data₂ file₂ node₂, start again left last.data = (data₂, file₂, .ok node₂)) ∧
      ∀ data' data₂ file₂ node₂, start again left data' = (data₂, file₂, .ok node₂) →
        node₂.clusnode.reporter.headnodes = last.clusnode.reporter.headnodes ∧
          node₂.clusnode.reporter.tasks = last.clusnode.reporter.headnodes.map (fun headnode => { headnode }) ∧
          ConfigFile.Keeps file₂ config.host.text last.clusnode.reporter.headnodes := by
  have hkeeps := (keeps_start (hmade.isHost htrim) hstart).serveAll (hmade.isHost htrim) events
  rw [hserve] at hkeeps
  -- What is loaded from the file is reported to, as nothing else is configured.
  have hfirst : firstReporter again left =
      ((Reporter.new again.nodeName config.host).set .add last.clusnode.reporter.headnodes).1 := by
    rw [firstReporter, hhost, hkeeps.saved.load, reportTo, hnone]
    simp [hsome]
  obtain ⟨hheadnodes, htasks⟩ := Reporter.set_add_new again.nodeName hkeeps.keyed
  rw [← hfirst] at hheadnodes htasks
  refine ⟨?_, fun data' data₂ file₂ node₂ hagain => ?_⟩
  · obtain ⟨store, headnode, hopen, -, -, rfl⟩ := start_eq_ok_iff.1 hstart
    obtain ⟨last', again', hreopen⟩ := Headnode.exists_start_again hopen again.host again.host.host
    have hdata : last.headnode = headnode := hkeeps.headnode
    rw [← hdata] at hreopen
    exact ⟨_, _, _, start_eq_ok_iff.2 ⟨last', again', hreopen, rfl, rfl, rfl⟩⟩
  · obtain ⟨store, headnode, -, -, rfl, rfl⟩ := start_eq_ok_iff.1 hagain
    refine ⟨hheadnodes, htasks, ?_⟩
    rw [hheadnodes, hhost]
    exact ConfigFile.keeps_save _ _ _ _

/-- A node that is told to report to itself, at another port, and to a second node. -/
def told : NodeConfig :=
  ⟨"N1", ⟨"N1", 50505⟩, 50505, "data", "data/clusrun.config", "data/clusrun", [" localhost:02", "a"]⟩

/-- The same node, told nothing. -/
def untold : NodeConfig := { told with headnodes := [] }

/-- One of the head nodes is taken away, the other stays beside a new one, and another node saves in between. -/
def changes : List Event :=
  [.setHeadnodes .remove ["A:50505", "a:b:c"], .attempted 0 .accepted, .elsewhere ⟨"N2:50505", {}, some []⟩,
    .setHeadnodes .replace ["n1:2", "b", "-:"],
    .setConfigs .headnode (SortedMap.ofList [(Setting.maxJobCount.name, "7")])]

/-- The options of a command line that starts such a node. -/
def telling : CommandLine.StartOptions := { name := some "n1", headnodes := [" localhost:02", "a"], dataDir := some "data" }

theorem nodeConfig_telling : CommandLine.Program.nodeConfig "box" "data/clusrun" telling = .ok told := by decide +kernel

/-- It reports to both again, in a new data directory too. -/
theorem reports_again_of_changes :
    ∃ data₁ file₁ node last left, start told .absent {} = (data₁, file₁, .ok node) ∧
      serveAll (node, file₁) changes = (last, left) ∧
      last.clusnode.reporter.headnodes = ["B:50505", "N1:2"] ∧
      (∃ data₂ file₂ node₂, start untold left last.data = (data₂, file₂, .ok node₂)) ∧
      ∃ data₃ file₃ node₃, start untold left {} = (data₃, file₃, .ok node₃) ∧
        node₃.clusnode.reporter.headnodes = ["B:50505", "N1:2"] ∧
        ConfigFile.Keeps file₃ "N1:50505" ["B:50505", "N1:2"] := by
  have hopen (config : NodeConfig) (file : Stored) :
      ∃ data₁ file₁ node, start config file {} = (data₁, file₁, .ok node) := ⟨_, _, _, rfl⟩
  have hrun : ∃ data₁ file₁ node last left, start told .absent {} = (data₁, file₁, .ok node) ∧
      serveAll (node, file₁) changes = (last, left) ∧
      last.clusnode.reporter.headnodes = ["B:50505", "N1:2"] :=
    ⟨_, _, _, _, _, rfl, rfl, by decide +kernel⟩
  obtain ⟨data₁, file₁, node, last, left, hstart, hserve, hlast⟩ := hrun
  have htrim : Text.trim told.host.host = told.host.host := by decide
  have huntold : untold.host = told.host := rfl
  obtain ⟨hleft, hagain⟩ := reports_again (NodeConfig.made_of_nodeConfig nodeConfig_telling) htrim hstart hserve (by simp [hlast]) huntold rfl
  obtain ⟨data₃, file₃, node₃, hnew⟩ := hopen untold left
  obtain ⟨hheadnodes, -, hkeeps⟩ := hagain _ _ _ _ hnew
  rw [hlast] at hheadnodes hkeeps
  exact ⟨data₁, file₁, node, last, left, hstart, hserve, hlast, hleft, data₃, file₃, node₃, hnew, hheadnodes, hkeeps⟩

end Node

end Muster
