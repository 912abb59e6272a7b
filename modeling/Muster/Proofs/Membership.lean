import Muster.Groups
import Muster.Proofs.Document
import Muster.Proofs.Tree
import Muster.Proofs.Trimming

/-!
# Who is a member of which group

A registry of groups stands for a relation between groups and nodes. A change that is written sets that relation
for the groups and nodes that it names and for no others, and the file that it writes is read as the same registry.
A change whose write fails leaves the groups as they were.
-/

namespace Muster

open Json (Spelled Stored)

namespace Text

theorem upper_eq_empty_iff (s : String) : upper s = "" ↔ s = "" := by
  refine ⟨fun h => ?_, fun h => by rw [h]; rfl⟩
  have hnil : uppercase s.toList = [] := by rw [← toList_upper, h]; rfl
  cases hs : s.toList with
  | nil => rw [← String.ofList_toList (s := s), hs]
  | cons c rest =>
    rw [hs, uppercase_cons] at hnil
    exact absurd (List.append_eq_nil_iff.1 hnil).1 (upperChar_ne_nil c)

end Text

/-- A set is what its listing makes. -/
theorem SortedSet.ofList_toList {κ : Type} [Ord κ] [Std.TransOrd κ] [Std.LawfulEqOrd κ] (s : SortedSet κ) :
    SortedSet.ofList s.toList = s := by
  refine Eq.trans ?_ (SortedMap.ofList_toList s)
  rw [SortedSet.ofList, SortedSet.toList, SortedMap.keys, List.foldl_map]
  rfl

namespace Groups

/-! ### One change -/

theorem mem_cleaned {names : List String} {name : String} :
    name ∈ cleaned names ↔ name ≠ "" ∧ ∃ typed ∈ names, Text.trim typed = name := by
  simp [cleaned, and_comm]

theorem mem_upper_cleaned {names : List String} {name : String} :
    name ∈ (cleaned names).map Text.upper ↔ name ≠ "" ∧ ∃ typed ∈ names, Text.upper (Text.trim typed) = name := by
  simp only [List.mem_map, mem_cleaned]
  constructor
  · rintro ⟨_, ⟨hne, typed, htyped, rfl⟩, rfl⟩
    exact ⟨fun h => hne ((Text.upper_eq_empty_iff _).1 h), typed, htyped, rfl⟩
  · rintro ⟨hne, typed, htyped, rfl⟩
    exact ⟨_, ⟨fun h => hne ((Text.upper_eq_empty_iff _).2 h), typed, htyped, rfl⟩, rfl⟩

theorem contains_changed (members : SortedSet String) (nodes : List String) (remove : Bool) (node : String) :
    (changed members nodes remove).contains node ↔
      if node ∈ nodes then remove = false else members.contains node := by
  unfold changed
  induction nodes generalizing members with
  | nil => simp
  | cons first rest ih =>
    rw [List.foldl_cons, ih]
    by_cases hrest : node ∈ rest
    · simp [hrest]
    · by_cases hfirst : node = first
      · subst hfirst
        cases remove
        · simp [hrest, SortedSet.contains_add]
        · simp [hrest, SortedMap.contains_erase]
      · cases remove
        · simp [hrest, hfirst, SortedSet.contains_add]
        · simp [hrest, hfirst, SortedMap.contains_erase]

theorem members_insert (g : Groups) (group other : String) (members : SortedSet String) :
    Groups.members (g.insert group members) other = if other = group then members else g.members other := by
  unfold Groups.members
  by_cases h : other = group
  · simp [h]
  · simp [h, SortedMap.get?_insert_of_ne]

/-- Only the groups and nodes that are named change. -/
theorem has_foldl (names nodes : List String) (remove : Bool) (g : Groups) (group node : String) :
    Groups.Has (names.foldl (fun g group => g.insert group (changed (g.members group) nodes remove)) g) group node ↔
      if group ∈ names ∧ node ∈ nodes then remove = false else g.Has group node := by
  induction names generalizing g with
  | nil => simp
  | cons first rest ih =>
    rw [List.foldl_cons, ih]
    unfold Groups.Has
    rw [members_insert]
    by_cases hfirst : group = first
    · subst hfirst
      rw [if_pos rfl]
      by_cases hnode : node ∈ nodes
      · simp [hnode, contains_changed]
      · simp [hnode, contains_changed]
    · simp [hfirst]

/-- Groups without members have no members. -/
theorem has_filter (g : Groups) (group node : String) :
    Groups.Has (g.filter fun _ members => !members.isEmpty) group node ↔ g.Has group node := by
  unfold Groups.Has Groups.members
  cases hget : g.get? group with
  | none =>
    have hnone : (g.filter fun _ members => !members.isEmpty).get? group = none := by
      rw [Option.eq_none_iff_forall_ne_some]
      intro members hmembers
      rw [SortedMap.get?_filter_eq_some_iff, hget] at hmembers
      cases hmembers.1
    rw [hnone]
  | some members =>
    by_cases hempty : members.isEmpty
    · have hnone : (g.filter fun _ members => !members.isEmpty).get? group = none := by
        rw [Option.eq_none_iff_forall_ne_some]
        intro found hfound
        rw [SortedMap.get?_filter_eq_some_iff, hget, Option.some.injEq] at hfound
        obtain ⟨rfl, hno⟩ := hfound
        simp [hempty] at hno
      have hno := (SortedMap.isEmpty_iff members).1 hempty node
      rw [hnone]
      simp [SortedMap.contains, hno]
    · have hsome : (g.filter fun _ members => !members.isEmpty).get? group = some members :=
        (SortedMap.get?_filter_eq_some_iff _ _ _ _).2 ⟨hget, by simp [hempty]⟩
      rw [hsome]

theorem has_set (g : Groups) (groups nodes : List String) (remove : Bool) (group node : String) :
    Groups.Has (g.set groups nodes remove) group node ↔
      if group ∈ cleaned groups ∧ node ∈ (cleaned nodes).map Text.upper then remove = false else g.Has group node :=
  (has_filter _ group node).trans (has_foldl _ _ remove g group node)

/-- Every group has a member after a change. -/
theorem exists_member_set {g : Groups} {groups nodes : List String} {remove : Bool} {group : String}
    {members : SortedSet String} (h : SortedMap.get? (g.set groups nodes remove) group = some members) :
    ∃ node, members.contains node := by
  obtain ⟨-, hne⟩ := (SortedMap.get?_filter_eq_some_iff _ _ _ _).1 h
  by_contra hno
  have hempty : members.isEmpty := (SortedMap.isEmpty_iff members).2 fun node => by
    simpa [SortedMap.contains] using fun hsome => hno ⟨node, hsome⟩
  simp [hempty] at hne

/-! ### The document -/

theorem map?_toJson (g : Groups) :
    g.toJson.spelled.map? (Spelled.list? Spelled.text?) = some (g.mapValues fun _ members => members.toList) := by
  simp only [toJson, Json.spelled, Json.spelledMembers_eq, Spelled.map?, List.mapM_map]
  refine Option.bind_eq_some_iff.2 ⟨(g.mapValues fun _ members => members.toList).toList, ?_, ?_⟩
  · refine (mapM_some (g := fun e => (e.1, SortedSet.toList e.2)) ?_).trans rfl
    rintro ⟨group, members⟩ -
    simp
  · exact congrArg some (SortedMap.ofList_toList _)

/-- Groups are read back from their document. -/
theorem ofSpelled?_toJson (g : Groups) : ofSpelled? g.toJson.spelled = some g := by
  rw [ofSpelled?, map?_toJson, Option.map_some, Option.some.injEq]
  apply SortedMap.ext
  simp only [SortedMap.mapValues, List.map_map]
  refine (List.map_congr_left ?_).trans (List.map_id _)
  rintro ⟨group, members⟩ -
  simp [SortedSet.ofList_toList]

/-- A document lists a node under a group, in its last member of that name. -/
def Lists (file : Stored) (group node : String) : Prop :=
  ∃ members nodes listed, file = .document (.object members) ∧
    members.reverse.lookup (some group) = some nodes ∧ nodes.list? Spelled.text? = some listed ∧ node ∈ listed

/-- The groups of members that were read one after the other. -/
def ofNamed (l : List (String × List String)) : Groups :=
  (SortedMap.ofList l).mapValues fun _ nodes => SortedSet.ofList nodes

theorem get?_ofNamed (l : List (String × List String)) (group : String) :
    SortedMap.get? (ofNamed l) group = ((SortedMap.ofList l).get? group).map SortedSet.ofList := by
  ext members
  rw [SortedMap.get?_eq_some_iff, Option.map_eq_some_iff]
  simp only [SortedMap.get?_eq_some_iff]
  simp [ofNamed, SortedMap.mapValues, SortedMap.toList]

theorem has_ofNamed_concat (l : List (String × List String)) (e : String × List String) (group node : String) :
    Groups.Has (ofNamed (l ++ [e])) group node ↔
      if group = e.1 then node ∈ e.2 else Groups.Has (ofNamed l) group node := by
  unfold Groups.Has Groups.members
  rw [get?_ofNamed, get?_ofNamed, SortedMap.ofList_concat]
  by_cases h : group = e.1
  · simp [h, SortedSet.contains_ofList]
  · simp [h, SortedMap.get?_insert_of_ne]

/-- What is read of the members of a document, the last of each name. -/
theorem has_of_named {members : List (Option String × Spelled)} {l : List (String × List String)}
    (h : (members.mapM fun (name, value) => do return (← name, ← value.list? Spelled.text?)) = some l)
    (group node : String) :
    Groups.Has (ofNamed l) group node ↔ ∃ nodes listed, members.reverse.lookup (some group) = some nodes ∧
      nodes.list? Spelled.text? = some listed ∧ node ∈ listed := by
  induction members using List.reverseRecOn generalizing l with
  | nil =>
    cases h
    have hno : ¬ Groups.Has (ofNamed []) group node := Bool.false_ne_true
    simp [hno]
  | append_singleton members e ih =>
    obtain ⟨name, value⟩ := e
    simp only [List.mapM_append, List.mapM_cons, List.mapM_nil, bind, Option.bind_eq_some_iff] at h
    obtain ⟨before, hbefore, _, ⟨_, ⟨found, hname, nodes, hnodes, hpair⟩, _, hnil, hsingle⟩, heq⟩ := h
    cases hpair
    cases hnil
    cases hsingle
    cases heq
    rw [has_ofNamed_concat, List.reverse_concat, List.lookup_cons, hname]
    by_cases hgroup : group = found
    · simp [hgroup, hnodes]
    · have hne : (some group == some found) = false := by simpa using hgroup
      rw [if_neg hgroup, hne]
      exact ih hbefore

/-- What is read of a file are the members that it lists. -/
theorem has_of_document {spelled : Spelled} {g : Groups} (h : ofSpelled? spelled = some g) (group node : String) :
    g.Has group node ↔ Lists (.document spelled) group node := by
  obtain ⟨m, hm, rfl⟩ := Option.map_eq_some_iff.1 h
  unfold Spelled.map? at hm
  split at hm
  · rename_i members
    obtain ⟨l, hl, hof⟩ := Option.bind_eq_some_iff.1 hm
    cases hof
    refine (has_of_named hl group node).trans ⟨?_, ?_⟩
    · rintro ⟨nodes, listed, hlisted⟩
      exact ⟨members, nodes, listed, rfl, hlisted⟩
    · rintro ⟨_, nodes, listed, ⟨⟩, hlisted⟩
      exact ⟨nodes, listed, hlisted⟩
  · cases hm

end Groups

/-! ### Whole runs -/

namespace Registry

/-- A request to change groups, and how the write of the file ends. -/
structure Change where
  groups : List String
  nodes : List String
  remove : Bool
  write : Write := .done

namespace Change

/-- The request names a group and a node, whatever blanks stand around them and in whichever case the node is. -/
def Names (c : Change) (group node : String) : Prop :=
  (group ≠ "" ∧ ∃ typed ∈ c.groups, Text.trim typed = group) ∧
    node ≠ "" ∧ ∃ typed ∈ c.nodes, Text.upper (Text.trim typed) = node

instance (c : Change) (group node : String) : Decidable (c.Names group node) :=
  inferInstanceAs (Decidable ((_ ∧ _) ∧ _ ∧ _))

/-- What the request makes of a membership, if its write is done. -/
def apply (member : String → String → Prop) (c : Change) : String → String → Prop := fun group node =>
  match c.write with
  | .done => if c.Names group node then c.remove = false else member group node
  | .failed _ => member group node

end Change

/-- The registry after a request. -/
def change (r : Registry) (c : Change) : Registry := (r.set c.groups c.nodes c.remove c.write).1

def changeAll (r : Registry) (changes : List Change) : Registry := changes.foldl change r

theorem changeAll_concat (r : Registry) (changes : List Change) (c : Change) :
    r.changeAll (changes ++ [c]) = (r.changeAll changes).change c := List.foldl_append

/-- What a request that is written makes of a registry. -/
structure Written (r : Registry) (c : Change) : Prop where
  answer : (r.set c.groups c.nodes c.remove c.write).2 = .ok ()
  member : ∀ group node,
    (r.change c).groups.Has group node ↔ if c.Names group node then c.remove = false else r.groups.Has group node
  inhabited : ∀ group members, (r.change c).groups.get? group = some members → ∃ node, members.contains node
  reopened : open? (r.change c).file = .ok (r.change c)

theorem written_of_done (r : Registry) {c : Change} (h : c.write = .done) : r.Written c := by
  obtain ⟨groups, nodes, remove, write⟩ := c
  cases h
  refine ⟨rfl, ?_, fun group members hget => Groups.exists_member_set hget, ?_⟩
  · intro group node
    refine (Groups.has_set r.groups groups nodes remove group node).trans ?_
    simp only [Groups.mem_cleaned, Groups.mem_upper_cleaned]
    rfl
  · simp only [change, set, open?, Stored.ofValue, Groups.ofSpelled?_toJson]

/-- A request whose write fails is refused, and leaves the groups as they are. -/
theorem groups_of_failed (r : Registry) {c : Change} {left : Stored} (h : c.write = .failed left) :
    (r.set c.groups c.nodes c.remove c.write).2 = .error .storage ∧ (r.change c).groups = r.groups := by
  rw [change, h]
  exact ⟨rfl, rfl⟩

/-- The groups of a registry that was just opened are those that its file lists. -/
theorem has_of_open? {file : Stored} {opened : Registry} (h : open? file = .ok opened) (group node : String) :
    opened.groups.Has group node ↔ Groups.Lists file group node := by
  cases file with
  | absent =>
    cases h
    refine iff_of_false Bool.false_ne_true ?_
    rintro ⟨_, _, _, hno, -⟩
    cases hno
  | damaged => cases h
  | malformed => cases h
  | document spelled =>
    unfold open? at h
    simp only at h
    split at h
    · rename_i groups hgroups
      cases h
      exact Groups.has_of_document hgroups group node
    · cases h

theorem has_change (r : Registry) (c : Change) :
    (r.change c).groups.Has = c.apply r.groups.Has := by
  funext group node
  refine propext ?_
  unfold Change.apply
  cases h : c.write with
  | done => exact (r.written_of_done h).member group node
  | failed left => rw [(r.groups_of_failed h).2]

/-- A registry is the membership that its file lists when it is opened, changed by every request that is written.
Such a request leaves no group without members, and the file is read as the same registry; one that is not written
changes no group. -/
theorem membership_of_opened {file : Stored} {opened : Registry} (hopen : open? file = .ok opened)
    (changes : List Change) :
    (∀ group node, (opened.changeAll changes).groups.Has group node ↔
      changes.foldl Change.apply (Groups.Lists file) group node) ∧
    ∀ c : Change, (c.write = .done → (opened.changeAll changes).Written c) ∧
      ∀ left, c.write = .failed left →
        ((opened.changeAll changes).set c.groups c.nodes c.remove c.write).2 = .error .storage ∧
          ((opened.changeAll changes).change c).groups = (opened.changeAll changes).groups := by
  refine ⟨?_, fun c => ⟨written_of_done _, fun _ => groups_of_failed _⟩⟩
  have hopened : opened.groups.Has = Groups.Lists file :=
    funext fun group => funext fun node => propext (has_of_open? hopen group node)
  have hrun : (opened.changeAll changes).groups.Has = changes.foldl Change.apply (Groups.Lists file) := by
    induction changes using List.reverseRecOn with
    | nil => exact hopened
    | append_singleton changes c ih =>
      rw [changeAll_concat, has_change, ih, List.foldl_append]
      rfl
  intro group node
  rw [hrun]

/-- A name is repeated, and a group has no members. -/
def kept : Stored :=
  .document (.object [(some "cpu", .array [.string (some "A")]),
    (some "cpu", .array [.string (some "NODE1"), .string (some "NODE2")]), (some "none", .array [])])

def opened : Registry := (open? kept).toOption.getD default

/-- The second write fails, and the last request names a group that is not there. -/
def requests : List Change :=
  [⟨[" gpu", "", "cpu "], [" node1 "], false, .done⟩, ⟨["cpu"], ["node1"], true, .failed .damaged⟩,
    ⟨["new", "cpu"], ["Node2", " "], true, .done⟩]

theorem membership_of_requests :
    open? kept = .ok opened ∧
      (∀ group node, (opened.changeAll requests).groups.Has group node ↔
        requests.foldl Change.apply (Groups.Lists kept) group node) ∧
      (opened.changeAll requests).groups.toList.map (fun e => (e.1, e.2.toList)) =
        [("cpu", ["NODE1"]), ("gpu", ["NODE1"])] ∧
      (opened.changeAll (requests.take 2)).Written ⟨["new", "cpu"], ["Node2", " "], true, .done⟩ := by
  have hopen : open? kept = .ok opened := rfl
  refine ⟨hopen, (membership_of_opened hopen requests).1, by decide +kernel, ?_⟩
  exact ((membership_of_opened hopen (requests.take 2)).2 _).1 rfl

end Registry

end Muster
