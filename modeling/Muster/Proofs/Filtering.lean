import Muster.Liveness
import Muster.Proofs.Sorted

/-!
# Groups as a filter

A query goes from the groups that it asks for to their members, and a node that is listed goes from its name to
the groups that have it. Both ways lead to the same answer: what a query for groups lists can be told from the
groups that are listed with each node.
-/

namespace Muster

namespace Groups

/-- The groups that are asked for admit what is held by some of them, or by each of them; no groups admit
everything. -/
def Admits (asked : List String) (intersect : Bool) (held : String → Prop) : Prop :=
  asked = [] ∨ if intersect then ∀ group ∈ asked, held (Text.trim group)
    else ∃ group ∈ asked, held (Text.trim group)

instance (asked : List String) (intersect : Bool) (held : String → Prop) [DecidablePred held] :
    Decidable (Admits asked intersect held) :=
  inferInstanceAs (Decidable (_ ∨ _))

variable {g : Groups} {group node : String}

theorem admits_nil (intersect : Bool) (held : String → Prop) : Admits [] intersect held := .inl rfl

theorem admits_congr {asked : List String} {intersect : Bool} {held other : String → Prop}
    (h : ∀ group, held group ↔ other group) : Admits asked intersect held ↔ Admits asked intersect other := by
  have hsame : held = other := by
    funext group
    exact propext (h group)
  rw [hsame]

/-- In which order and how often groups are asked for makes no difference. -/
theorem admits_of_mem_iff {asked others : List String} (h : ∀ group, group ∈ asked ↔ group ∈ others)
    (intersect : Bool) (held : String → Prop) : Admits asked intersect held ↔ Admits others intersect held := by
  simp only [Admits, List.eq_nil_iff_forall_not_mem, h]

/-- Sets that are put together, or cut down, one after the other have what any of them has, or what all have. -/
theorem contains_foldl (sets : List (SortedSet String)) (first : SortedSet String) (intersect : Bool) :
    (sets.foldl (fun acc s => if intersect then SortedSet.inter acc s else SortedSet.union acc s) first).contains
        node ↔
      if intersect then ∀ s ∈ first :: sets, s.contains node else ∃ s ∈ first :: sets, s.contains node := by
  cases intersect with
  | false =>
    induction sets generalizing first with
    | nil => simp
    | cons s rest ih =>
      simp only [List.foldl_cons, Bool.false_eq_true, if_false] at ih ⊢
      rw [ih]
      simp only [List.mem_cons, exists_eq_or_imp, SortedSet.contains_union, or_assoc]
  | true =>
    induction sets generalizing first with
    | nil => simp
    | cons s rest ih =>
      simp only [List.foldl_cons, if_true] at ih ⊢
      rw [ih]
      simp only [List.forall_mem_cons, SortedSet.contains_inter, and_assoc]

theorem inGroups_select (g : Groups) (asked : List String) (intersect : Bool) (node : String) :
    Liveness.inGroups (g.select asked intersect) node ↔ Admits asked intersect fun group => g.Has group node := by
  cases asked with
  | nil => simp [select, Liveness.inGroups, Admits]
  | cons first rest =>
    simp only [select, List.map_cons, Liveness.inGroups]
    rw [contains_foldl]
    cases intersect <;> simp [Admits, Has]

theorem mem_ofNode : group ∈ g.ofNode node ↔ g.Has group node := by
  rw [ofNode, SortedMap.mem_keys, SortedMap.contains, Option.isSome_iff_exists]
  simp only [SortedMap.get?_filter_eq_some_iff]
  constructor
  · rintro ⟨members, hgroup, hnode⟩
    rw [Has, Groups.members, hgroup]
    exact hnode
  · intro hnode
    cases hgroup : g.get? group with
    | none => simp [Has, Groups.members, hgroup, SortedMap.contains] at hnode
    | some members =>
      rw [Has, Groups.members, hgroup] at hnode
      exact ⟨members, rfl, hnode⟩

end Groups

theorem SortedMap.keys_lt {α : Type} (m : SortedMap String α) : m.keys.Pairwise (· < ·) :=
  m.keys_increasing.imp compareOfLessAndEq_eq_lt.1

namespace Liveness

open Groups (Admits)

variable {l : Liveness} {engine : Pattern.Engine} {timeout : Int} {g : Groups} {q : Query}

/-- A node as it is listed: with the state that it is in, and the groups that have it, each once and in order. -/
structure View.Reflects (view : View) (l : Liveness) (timeout : Int) (g : Groups) : Prop where
  state : l.stateOf timeout view.name = some view.state
  increasing : view.groups.Pairwise (· < ·)
  groups : ∀ group, group ∈ view.groups ↔ g.Has group view.name

/-- A node that has been heard of, as it is listed. -/
def viewOf (l : Liveness) (timeout : Int) (g : Groups) (node : String × Nat) : View :=
  ⟨node.1, l.stateSince timeout node.1 node.2, g.ofNode node.1⟩

theorem stateOf_eq_some_iff {node : String} {state : NodeState} : l.stateOf timeout node = some state ↔
    ∃ last, (node, last) ∈ l.reported.toList ∧ l.stateSince timeout node last = state := by
  simp only [stateOf, Option.map_eq_some_iff, SortedMap.get?_eq_some_iff]

theorem reflects_viewOf {node : String × Nat} (h : node ∈ l.reported.toList) :
    (l.viewOf timeout g node).Reflects l timeout g :=
  ⟨stateOf_eq_some_iff.2 ⟨node.2, h, rfl⟩, SortedMap.keys_lt _, fun _ => Groups.mem_ofNode⟩

/-- What a query asks of a node. -/
def Query.Asks (q : Query) (matching : String → Bool) (g : Groups) (node : String) (state : NodeState) : Prop :=
  matching node ∧ (∀ wanted ∈ q.state, wanted = state) ∧ Admits q.groups q.intersect (g.Has · node)

instance (q : Query) (matching : String → Bool) (g : Groups) (node : String) (state : NodeState) :
    Decidable (q.Asks matching g node state) :=
  inferInstanceAs (Decidable (_ ∧ _ ∧ _))

variable {pattern : engine.Regex}

/-- A listing is one pass over the nodes that have been heard of. -/
theorem list_eq (h : engine.compile q.pattern = .ok pattern) : l.list engine timeout g q =
    .ok ((l.reported.toList.map (l.viewOf timeout g)).filter fun view =>
      q.Asks (engine.isMatch pattern) g view.name view.state) := by
  have hlist : l.list engine timeout g q = .ok (((l.reported.toList.filter fun node =>
      engine.isMatch pattern node.1 && inGroups (g.select q.groups q.intersect) node.1).map (l.viewOf timeout g)).filter
        fun view => q.state.all (· == view.state)) := by
    rw [list, h]
    rfl
  rw [hlist, List.filter_map, List.filter_map, List.filter_filter]
  apply congrArg fun nodes : List (String × Nat) => Except.ok (nodes.map (l.viewOf timeout g))
  apply List.filter_congr
  intro node _
  rw [Bool.eq_iff_iff, Bool.and_eq_true, Bool.and_eq_true, Groups.inGroups_select, Function.comp_apply,
    Function.comp_apply, decide_eq_true_iff]
  have hstate : q.state.all (· == (l.viewOf timeout g node).state) ↔
      ∀ wanted ∈ q.state, wanted = (l.viewOf timeout g node).state := by
    simp [Option.all_eq_true]
  rw [hstate, and_left_comm]
  rfl

theorem list_of_error {fault : Fault} (h : engine.compile q.pattern = .error fault) :
    l.list engine timeout g q = .error fault := by
  rw [list, h]
  rfl

/-- A listing fails exactly when its pattern cannot be read. -/
theorem list_eq_error_iff {fault : Fault} :
    l.list engine timeout g q = .error fault ↔ engine.compile q.pattern = .error fault := by
  cases hpattern : engine.compile q.pattern with
  | error other => rw [list_of_error hpattern, Except.error.injEq, Except.error.injEq]
  | ok pattern =>
    rw [list_eq hpattern]
    simp

/-- Queries that ask the same list the same. -/
theorem list_congr {other : Query} (hpattern : q.pattern = other.pattern)
    (h : ∀ matching node state, q.Asks matching g node state ↔ other.Asks matching g node state) :
    l.list engine timeout g q = l.list engine timeout g other := by
  cases hread : engine.compile other.pattern with
  | error fault => rw [list_of_error hread, list_of_error (hpattern ▸ hread)]
  | ok pattern =>
    rw [list_eq hread, list_eq (hpattern ▸ hread)]
    simp only [h]

theorem list_of_mem_iff {asked : List String} (h : ∀ group, group ∈ asked ↔ group ∈ q.groups) :
    l.list engine timeout g { q with groups := asked } = l.list engine timeout g q := by
  apply list_congr
  · rfl
  · intro matching node state
    rw [Query.Asks, Query.Asks, Groups.admits_of_mem_iff h]

/-- A query lists, in the order of their names, the nodes that it asks for, each with its state and with the groups
that have it; and what it asks of groups can be told from those. -/
theorem listed_by_groups (engine : Pattern.Engine) (l : Liveness) (timeout : Int) (g : Groups) {q : Query}
    {pattern : engine.Regex} (h : engine.compile q.pattern = .ok pattern) : ∃ views all,
    l.list engine timeout g q = .ok views ∧ (views.map View.name).Pairwise (· < ·) ∧
      (∀ node, node ∈ views.map View.name ↔
        ∃ state, l.stateOf timeout node = some state ∧ q.Asks (engine.isMatch pattern) g node state) ∧
      (∀ view ∈ views, view.Reflects l timeout g) ∧
      l.list engine timeout g { q with groups := [] } = .ok all ∧
      views = all.filter fun view => Admits q.groups q.intersect (· ∈ view.groups) := by
  refine ⟨_, _, list_eq h, ?_, ?_, ?_, list_eq h, ?_⟩
  · have hnames : (l.reported.toList.map (l.viewOf timeout g)).map View.name = l.reported.keys := List.map_map
    exact (hnames ▸ SortedMap.keys_lt l.reported).sublist (List.filter_sublist.map _)
  · intro node
    simp only [List.mem_map, List.mem_filter, decide_eq_true_iff, stateOf_eq_some_iff]
    constructor
    · rintro ⟨view, ⟨⟨⟨name, last⟩, hmem, rfl⟩, hasks⟩, rfl⟩
      exact ⟨_, ⟨last, hmem, rfl⟩, hasks⟩
    · rintro ⟨state, ⟨last, hmem, rfl⟩, hasks⟩
      exact ⟨l.viewOf timeout g (node, last), ⟨⟨(node, last), hmem, rfl⟩, hasks⟩, rfl⟩
  · intro view hview
    obtain ⟨node, hnode, rfl⟩ := List.mem_map.1 (List.mem_filter.1 hview).1
    exact reflects_viewOf hnode
  · rw [List.filter_filter]
    apply List.filter_congr
    intro view hview
    obtain ⟨node, hnode, rfl⟩ := List.mem_map.1 hview
    have hadmits : Admits q.groups q.intersect (· ∈ (l.viewOf timeout g node).groups) ↔
        Admits q.groups q.intersect (g.Has · (l.viewOf timeout g node).name) :=
      Groups.admits_congr (reflects_viewOf hnode).groups
    rw [Bool.eq_iff_iff, Bool.and_eq_true, decide_eq_true_iff, decide_eq_true_iff, decide_eq_true_iff, hadmits]
    simp only [Query.Asks, Groups.admits_nil, and_true]
    tauto

/-- Node A is ready and in both groups, B is in one of them and in error. -/
def twoNodes : Liveness where
  localName := "HEAD"
  reported := SortedMap.ofList [("A", 0), ("B", 0)]
  counters := SortedMap.ofList [("A", validated)]

def twoGroups : Groups :=
  SortedMap.ofList [("big", SortedSet.ofList ["A"]), ("old", SortedSet.ofList ["A", "B", "C"])]

/-- The nodes that are in both groups, whose names are trimmed. -/
def inBoth : Query := { pattern := "A|B", groups := [" old ", "big"], intersect := true }

theorem listed_of_inBoth : ∃ pattern views, Pattern.Engine.plain.compile inBoth.pattern = .ok pattern ∧
    twoNodes.list .plain 30 twoGroups inBoth = .ok views ∧ "A" ∈ views.map View.name ∧
      "B" ∉ views.map View.name := by
  have hpattern : Pattern.Engine.plain.compile inBoth.pattern = .ok ["A", "B"] := rfl
  obtain ⟨views, -, hlist, -, hnames, -⟩ := listed_by_groups .plain twoNodes 30 twoGroups hpattern
  refine ⟨_, views, hpattern, hlist, (hnames "A").2 ⟨.ready, by decide +kernel, by decide +kernel⟩, ?_⟩
  rw [hnames]
  rintro ⟨state, hstate, -, -, hadmits⟩
  revert hadmits
  decide +kernel

end Liveness

end Muster
