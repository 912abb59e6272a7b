import Mathlib.Data.List.Basic
import Muster.Proofs.Rerun

/-!
# Nodes that are named one by one

Each entry of such a request stands for a ready node, by its display name or by the address that is read off it. One
table holds both, and a later node takes an address from an earlier one; no address is ever a display name, so a
display name stands for its own node.
-/

namespace Muster

namespace Dispatch

open Address (IsShown)

/-- An entry of a request names a node, by its display name or by its address. -/
def Names (entry node : String) : Prop := key entry = node ∨ key entry = Address.ofDisplayName node

instance (entry node : String) : Decidable (Names entry node) :=
  inferInstanceAs (Decidable (_ ∨ _))

/-- The entries of a request that are not blank. -/
def wanted (spec : JobSpec) : List String := spec.nodes.filter fun entry => key entry ≠ ""

/-- The entries that name none of the nodes that are ready. -/
def unknown (ready : List String) (spec : JobSpec) : List String :=
  (wanted spec).filter fun entry => ∀ node ∈ ready, ¬ Names entry node

/-- The nodes that entries stand for, each once and in the order in which they are first named. -/
structure InOrder (chosen : String → String) (entries nodes : List String) : Prop where
  nodup : nodes.Nodup
  mem : ∀ node, node ∈ nodes ↔ ∃ entry ∈ entries, chosen entry = node
  ordered : nodes.Pairwise fun a b => (entries.map chosen).idxOf a < (entries.map chosen).idxOf b

variable {ready : List String} {groups : Groups} {spec : JobSpec} {intersect : Bool}

/-- Nothing is found for an entry exactly if it names no ready node. -/
theorem lookUp_eq_none_iff {entry : String} :
    lookUp ready (key entry) = none ↔ ∀ node ∈ ready, ¬ Names entry node := by
  rw [lookUp, List.lookup_eq_none_iff]
  simp only [List.mem_reverse, mem_names, bne_iff_ne]
  constructor
  · rintro h node hnode (hname | haddress)
    · exact h (node, node) ⟨hnode, .inl rfl⟩ hname
    · exact h (Address.ofDisplayName node, node) ⟨hnode, .inr rfl⟩ haddress
  · rintro h e ⟨hnode, hkey⟩ hentry
    apply h e.2 hnode
    rw [Names, hentry]
    exact hkey

theorem mem_unknown {entry : String} :
    entry ∈ unknown ready spec ↔ entry ∈ wanted spec ∧ ∀ node ∈ ready, ¬ Names entry node := by
  rw [unknown, List.mem_filter, decide_eq_true_iff]

/-- The node that an entry is taken for. -/
def found (ready : List String) (entry : String) : String := (lookUp ready (key entry)).getD ""

theorem mem_of_found {entry : String} (h : ∃ node ∈ ready, Names entry node) :
    found ready entry ∈ ready ∧ Names entry (found ready entry) := by
  cases hfound : lookUp ready (key entry) with
  | none =>
    obtain ⟨node, hnode, hnames⟩ := h
    exact absurd hnames (lookUp_eq_none_iff.1 hfound node hnode)
  | some node =>
    rw [found, hfound]
    exact mem_of_lookUp hfound

/-- An entry that is the display name of a ready node is taken for that node. -/
theorem found_of_shown (hready : ∀ node ∈ ready, IsShown node) {entry node : String} (hnode : node ∈ ready)
    (h : entry = node ∨ key entry = node) : found ready entry = node := by
  have hkey : key entry = node := by
    rcases h with rfl | hkey
    · exact (hready _ hnode).key_eq
    · exact hkey
  rw [found, hkey, lookUp_shown hready (hready node hnode), if_pos hnode]
  rfl

theorem inOrder_eraseDups (chosen : String → String) (entries : List String) :
    InOrder chosen entries (entries.map chosen).eraseDups := by
  refine ⟨nodup_eraseDups _, fun node => ?_, pairwise_idxOf_eraseDups _⟩
  rw [List.mem_eraseDups, List.mem_map]

theorem resolveNamed_eq : resolveNamed ready spec.nodes =
    if unknown ready spec = [] then .ok ((wanted spec).map (found ready)).eraseDups
    else .error (.unknownNodes (unknown ready spec)) := by
  have hunknown : (wanted spec).filter (fun entry => (lookUp ready (key entry)).isNone) = unknown ready spec := by
    apply List.filter_congr
    intro entry _
    rw [Bool.eq_iff_iff, Option.isNone_iff_eq_none, lookUp_eq_none_iff, decide_eq_true_iff]
  rw [resolveNamed, ← wanted, hunknown]
  split
  · rename_i hnone
    have hall : ∀ entry ∈ wanted spec, lookUp ready (key entry) = some (found ready entry) := by
      intro entry hentry
      have hknown : entry ∉ unknown ready spec := by simp [hnone]
      cases hfound : lookUp ready (key entry) with
      | none => exact absurd (mem_unknown.2 ⟨hentry, lookUp_eq_none_iff.1 hfound⟩) hknown
      | some node => rw [found, hfound, Option.getD_some]
    rw [if_pos hnone, List.filterMap_eq_map_iff_forall_eq_some.2 hall]
  · rename_i hsome
    rw [if_neg hsome]

/-- What a request comes to that names nodes. -/
theorem resolve_of_named (engine : Pattern.Engine) (h : spec.nodes ≠ []) : resolve engine ready groups spec intersect =
    if unknown ready spec ≠ [] then .error (.unknownNodes (unknown ready spec))
    else if wanted spec = [] then .error .noNodes
    else .ok ((wanted spec).map (found ready)).eraseDups := by
  have hsome : spec.nodes.isEmpty = false := by simpa using h
  rw [resolve, hsome, resolveNamed_eq]
  by_cases hunknown : unknown ready spec = []
  · by_cases hblank : wanted spec = []
    · simp [hunknown, hblank, bind, Except.bind]
    · have hnodes : ((wanted spec).map (found ready)).eraseDups.isEmpty = false := by
        simpa [List.eq_nil_iff_forall_not_mem] using hblank
      simp [hunknown, hblank, hnodes, bind, Except.bind]
  · simp [hunknown, bind, Except.bind]

end Dispatch

namespace Headnode

open Dispatch

/-- A request that names nodes is refused with the entries that name no ready node, as they were typed, and is refused
without a node if all its entries are blank. Otherwise it goes to the nodes that its entries are taken for, each once
and in the order in which they are first named; an entry is taken for a ready node that it names, and the display name
of a ready node for that very node. -/
theorem named_exactly {h : Headnode} (hserves : h.Serves) (engine : Pattern.Engine) (settings : Settings) (spec : JobSpec) (intersect : Bool) :
    (∀ node ∈ h.readyNodes settings, ∃ address name, node = Address.displayName address name ∧
      Address.ofDisplayName node = address.text) ∧
    (unknown (h.readyNodes settings) spec ≠ [] → h.resolve engine settings spec intersect =
      .error (.unknownNodes (unknown (h.readyNodes settings) spec))) ∧
    (unknown (h.readyNodes settings) spec = [] → wanted spec ≠ [] → ∃ chosen : String → String, ∃ nodes,
      h.resolve engine settings spec intersect = .ok nodes ∧ InOrder chosen (wanted spec) nodes ∧
      ∀ entry ∈ wanted spec, chosen entry ∈ h.readyNodes settings ∧ Names entry (chosen entry) ∧
        ∀ node ∈ h.readyNodes settings, entry = node ∨ key entry = node → chosen entry = node) ∧
    (spec.nodes ≠ [] → wanted spec = [] → h.resolve engine settings spec intersect = .error .noNodes) := by
  have hready := hserves.known.1.ready settings.heartbeatTimeout
  have hnamed (hsome : wanted spec ≠ []) : spec.nodes ≠ [] := by
    intro hnone
    simp [wanted, hnone] at hsome
  refine ⟨?_, ?_, ?_, ?_⟩
  · intro node hnode
    obtain ⟨address, name, hreports, rfl⟩ := hready node hnode
    have hplain : '(' ∉ (Text.upper name).toList := by
      rw [hreports.capitals]
      exact hreports.parenthesis
    exact ⟨address, name, rfl, Address.ofDisplayName_displayName address hplain⟩
  · intro hunknown
    have hsome : wanted spec ≠ [] := by
      intro hblank
      simp [unknown, hblank] at hunknown
    rw [resolve, resolve_of_named engine (hnamed hsome), if_pos hunknown]
  · intro hunknown hsome
    have hresolve : h.resolve engine settings spec intersect =
        .ok ((wanted spec).map (found (h.readyNodes settings))).eraseDups := by
      rw [resolve, resolve_of_named engine (hnamed hsome), if_neg (not_not.2 hunknown), if_neg hsome]
    refine ⟨found (h.readyNodes settings), _, hresolve, inOrder_eraseDups _ _, ?_⟩
    intro entry hentry
    have hknown : ∃ node ∈ h.readyNodes settings, Names entry node := by
      by_contra hnone
      have hin : entry ∈ unknown (h.readyNodes settings) spec :=
        mem_unknown.2 ⟨hentry, fun node hnode hnames => hnone ⟨node, hnode, hnames⟩⟩
      simp [hunknown] at hin
    obtain ⟨hin, hnames⟩ := mem_of_found hknown
    exact ⟨hin, hnames, fun node hnode => found_of_shown hready hnode⟩
  · intro hsome hblank
    have hunknown : unknown (h.readyNodes settings) spec = [] := by simp [unknown, hblank]
    rw [resolve, resolve_of_named engine hsome, if_neg (not_not.2 hunknown), if_pos hblank]

/-- Another node at the address of the first one, and the attempt to ask it for its name. -/
def guest (asked : Bool) : Attempt :=
  { display := "GUEST(NODE:50505)", name := "GUEST", host := "NODE:50505", failures := 0, due := 0, asked }

/-- Two ready nodes at one address. -/
def shared : Headnode :=
  { steady with
    liveness := (steady.liveness.note 5 "GUEST(NODE:50505)" "GUEST" "NODE:50505").run 5
      [.ask (guest false), .answer (guest true) (.named "GUEST")] }

theorem serves_shared : shared.Serves := by
  have hname : Liveness.claimedName "guest" = .ok "GUEST" := by
    have hplain : ("guest".contains '(' || "guest".contains ')') = false := by simp
    rw [Liveness.claimedName, hplain]
    decide +kernel
  have hbeat : steady.liveness.heartbeat 5 "guest" "node" =
      .ok (steady.liveness.note 5 "GUEST(NODE:50505)" "GUEST" "NODE:50505", "GUEST(NODE:50505)") :=
    Liveness.heartbeat_eq_ok_iff.2 ⟨"GUEST", ⟨"NODE", 50505⟩, hname, rfl, by decide +kernel, rfl⟩
  have hrun := serves_steady.run 5
    [.heartbeat "guest" "node", .ask (guest false), .answer (guest true) (.named "GUEST")]
  rw [Liveness.run, List.foldl_cons, Liveness.step, hbeat] at hrun
  exact hrun

/-- The address stands for one of the two nodes, and each display name for its own. -/
theorem named_of_shared : shared.Serves ∧
    shared.resolve .plain {} { nodes := ["gone", "", " node "] } false = .error (.unknownNodes ["gone"]) ∧
    ∃ nodes, shared.resolve .plain {} { nodes := ["node:50505", "", " node ", "guest(node:50505)"] } false = .ok nodes ∧
      "NODE" ∈ nodes ∧ "GUEST(NODE:50505)" ∈ nodes := by
  have hready : shared.readyNodes {} = ["GUEST(NODE:50505)", "NODE"] := by decide +kernel
  obtain ⟨-, hrefused, -, -⟩ := named_exactly serves_shared .plain {} { nodes := ["gone", "", " node "] } false
  obtain ⟨-, -, hnamed, -⟩ :=
    named_exactly serves_shared .plain {} { nodes := ["node:50505", "", " node ", "guest(node:50505)"] } false
  rw [hready] at hrefused hnamed
  refine ⟨serves_shared, hrefused (by decide +kernel), ?_⟩
  obtain ⟨chosen, nodes, hresolve, horder, hchosen⟩ := hnamed (by decide +kernel) (by decide +kernel)
  have hnode : chosen " node " = "NODE" :=
    (hchosen " node " (by decide +kernel)).2.2 "NODE" (by simp) (.inr (by decide +kernel))
  have hguest : chosen "guest(node:50505)" = "GUEST(NODE:50505)" :=
    (hchosen "guest(node:50505)" (by decide +kernel)).2.2 "GUEST(NODE:50505)" (by simp) (.inr (by decide +kernel))
  exact ⟨nodes, hresolve, (horder.mem _).2 ⟨" node ", by decide +kernel, hnode⟩,
    (horder.mem _).2 ⟨"guest(node:50505)", by decide +kernel, hguest⟩⟩

end Headnode

end Muster
