import Muster.Dispatch.Resolve
import Muster.Proofs.Filtering

/-!
# What is listed and what is run

A request that names no nodes goes by a pattern and by groups, as a query does. The nodes that it goes to are the
ready nodes that the query lists.
-/

namespace Muster.Dispatch

open Liveness (Query View)

variable {engine : Pattern.Engine} {l : Liveness} {timeout : Int} {g : Groups} {spec : JobSpec} {intersect : Bool}

/-- The query by the pattern and the groups of a request. -/
def queryOf (spec : JobSpec) (intersect : Bool) (state : Option NodeState) : Query :=
  { pattern := spec.pattern, state, groups := spec.groups, intersect }

/-- The names of the ready nodes that a query lists are the ready names that the pattern and the groups admit. -/
theorem resolveMatching_eq : resolveMatching engine (l.readyNodes timeout) g spec intersect =
    (l.list engine timeout g (queryOf spec intersect (some .ready))).map (·.map View.name) := by
  cases hpattern : engine.compile (queryOf spec intersect (some .ready)).pattern with
  | error fault =>
    have hmatching : engine.compile spec.pattern = .error fault := hpattern
    rw [Liveness.list, resolveMatching, hpattern, hmatching]
    rfl
  | ok pattern =>
    have hcompile : engine.compile spec.pattern = .ok pattern := hpattern
    have hmatching : resolveMatching engine (l.readyNodes timeout) g spec intersect =
        .ok ((l.readyNodes timeout).filter fun node =>
          engine.isMatch pattern node && Liveness.inGroups (g.select spec.groups intersect) node) := by
      rw [resolveMatching, hcompile]
      rfl
    have hready : l.readyNodes timeout =
        (l.reported.toList.filter fun node => l.stateSince timeout node.1 node.2 == .ready).map Prod.fst := rfl
    rw [hmatching, Liveness.list_eq hpattern, hready, List.filter_map, List.filter_map, List.filter_filter,
      Except.map, List.map_map]
    apply congrArg fun nodes : List (String × Nat) => Except.ok (nodes.map Prod.fst)
    apply List.filter_congr
    intro node _
    rw [Bool.eq_iff_iff, Bool.and_eq_true, Function.comp_apply, Function.comp_apply, Bool.and_eq_true,
      Groups.inGroups_select, beq_iff_eq, decide_eq_true_iff]
    simp only [Query.Asks, queryOf, Option.mem_some_iff, forall_eq']
    rw [and_assoc, and_comm (a := Groups.Admits _ _ _), eq_comm (a := l.stateSince _ _ _)]
    rfl

theorem resolve_of_unnamed (engine : Pattern.Engine) (l : Liveness) (timeout : Int) (g : Groups) (intersect : Bool) (h : spec.nodes = []) :
    resolve engine (l.readyNodes timeout) g spec intersect =
    match l.list engine timeout g (queryOf spec intersect (some .ready)) with
    | .error fault => .error fault
    | .ok [] => .error .noNodes
    | .ok views => .ok (views.map View.name) := by
  rw [resolve, h, List.isEmpty_nil, if_pos rfl, resolveMatching_eq]
  cases l.list engine timeout g (queryOf spec intersect (some .ready)) with
  | error fault => rfl
  | ok views =>
    cases views with
    | nil => rfl
    | cons view rest => rfl

/-- A pattern cannot be read for reasons of its own. -/
theorem compile_ne_noNodes (pattern : String) : engine.compile pattern ≠ .error .noNodes := by
  rw [Pattern.Engine.compile]
  split <;> simp

/-- A request is refused as the query is, except where there is no node for it. -/
theorem refused_as_listed (h : spec.nodes = []) (fault : Fault) :
    l.list engine timeout g (queryOf spec intersect (some .ready)) = .error fault ↔
      fault ≠ .noNodes ∧ resolve engine (l.readyNodes timeout) g spec intersect = .error fault := by
  rw [resolve_of_unnamed engine l timeout g intersect h]
  cases hlist : l.list engine timeout g (queryOf spec intersect (some .ready)) with
  | error other =>
    have hother : other ≠ .noNodes := by
      rintro rfl
      exact compile_ne_noNodes _ (Liveness.list_eq_error_iff.1 hlist)
    constructor
    · rintro ⟨⟩
      exact ⟨hother, rfl⟩
    · rintro ⟨-, ⟨⟩⟩
      rfl
  | ok views =>
    cases views with
    | nil =>
      constructor
      · rintro ⟨⟩
      · rintro ⟨hother, ⟨⟩⟩
        exact absurd rfl hother
    | cons view rest => simp

/-- A request that names no nodes goes to the ready nodes that the query for them lists, in that order, and fails
where it lists none. Both fail for the same patterns, in the same way, and for both it makes no difference how often
and in which order groups are named. -/
theorem runs_as_listed (engine : Pattern.Engine) (l : Liveness) (timeout : Int) (g : Groups) (intersect : Bool) (h : spec.nodes = []) :
    (∀ views, l.list engine timeout g (queryOf spec intersect (some .ready)) = .ok views → views ≠ [] →
      resolve engine (l.readyNodes timeout) g spec intersect = .ok (views.map View.name)) ∧
    (l.list engine timeout g (queryOf spec intersect (some .ready)) = .ok [] →
      resolve engine (l.readyNodes timeout) g spec intersect = .error .noNodes) ∧
    (∀ fault, l.list engine timeout g (queryOf spec intersect (some .ready)) = .error fault ↔
      fault ≠ .noNodes ∧ resolve engine (l.readyNodes timeout) g spec intersect = .error fault) ∧
    ∀ asked, (∀ group, group ∈ asked ↔ group ∈ spec.groups) →
      (∀ state, l.list engine timeout g (queryOf { spec with groups := asked } intersect state) =
        l.list engine timeout g (queryOf spec intersect state)) ∧
      resolve engine (l.readyNodes timeout) g { spec with groups := asked } intersect =
        resolve engine (l.readyNodes timeout) g spec intersect := by
  have hresolve := resolve_of_unnamed engine l timeout g intersect h
  refine ⟨?_, ?_, refused_as_listed h, ?_⟩
  · intro views hlist hsome
    rw [hresolve, hlist]
    cases views with
    | nil => exact absurd rfl hsome
    | cons view rest => rfl
  · intro hlist
    rw [hresolve, hlist]
  · intro asked hasked
    have hlist (state : Option NodeState) : l.list engine timeout g (queryOf { spec with groups := asked } intersect state) =
        l.list engine timeout g (queryOf spec intersect state) :=
      Liveness.list_of_mem_iff (q := queryOf spec intersect state) hasked
    refine ⟨hlist, ?_⟩
    calc resolve engine (l.readyNodes timeout) g { spec with groups := asked } intersect
      _ = _ := resolve_of_unnamed engine l timeout g intersect h
      _ = resolve engine (l.readyNodes timeout) g spec intersect := by rw [hresolve, hlist]

/-- A request for the nodes of either group. -/
def inEither : JobSpec := { groups := ["big", "old"] }

theorem runs_of_inEither :
    resolve .plain (Liveness.twoNodes.readyNodes 30) Liveness.twoGroups inEither false = .ok ["A"] ∧
      resolve .plain (Liveness.twoNodes.readyNodes 30) Liveness.twoGroups
        { inEither with groups := ["old", "big", "old"] } false = .ok ["A"] := by
  have hnodes : inEither.nodes = [] := rfl
  have hpattern : Pattern.Engine.plain.compile (queryOf inEither false (some .ready)).pattern = .ok [""] := rfl
  have hlist : Liveness.twoNodes.list .plain 30 Liveness.twoGroups (queryOf inEither false (some .ready)) =
      .ok [⟨"A", .ready, ["big", "old"]⟩] :=
    (Liveness.list_eq hpattern).trans (congrArg Except.ok (by decide +kernel))
  obtain ⟨hlisted, -, -, hgroups⟩ := runs_as_listed .plain Liveness.twoNodes 30 Liveness.twoGroups false hnodes
  have hready := hlisted _ hlist (by decide)
  exact ⟨hready, (hgroups ["old", "big", "old"] (by simp [inEither, or_comm])).2.trans hready⟩

end Muster.Dispatch
