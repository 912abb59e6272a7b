import Muster.ConfigFile
import Muster.Proofs.SavedSettings
import Muster.Proofs.Values

/-!
# The entries of hosts

Each host has its own entry in the document of a machine. What a host saved last is what it loads, and
its saving touches nothing but its own settings and head nodes: other entries, and other members of its
own, are as they were. A file that holds no object counts as an empty document.
-/

namespace Muster.ConfigFile

open Json (Fits Members Stored)

/-! ### Objects within objects -/

theorem objectAt?_put_self (name : String) (inner members : Members) :
    objectAt? name (Sorted.put name (.object inner) members) = some inner := by
  rw [objectAt?, Sorted.look_put, if_pos Std.ReflCmp.compare_self]

theorem look_put_of_ne {name other : String} (h : other ≠ name) (v : Json) (members : Members) :
    Sorted.look other (Sorted.put name v members) = Sorted.look other members := by
  have hne : compare other name ≠ .eq := fun heq => h (Std.LawfulEqCmp.eq_of_compare heq)
  rw [Sorted.look_put, if_neg hne]

theorem objectAt?_put_of_ne {name other : String} (h : other ≠ name) (v : Json) (members : Members) :
    objectAt? other (Sorted.put name v members) = objectAt? other members := by
  rw [objectAt?, objectAt?, look_put_of_ne h]

/-- An object in an object fits one level less, and so does the empty one if there is none. -/
theorem fits_objectAt? {depth : Nat} {members : Members} (h : Fits (depth + 2) (.object members))
    (name : String) : Fits (depth + 1) (.object ((objectAt? name members).getD [])) := by
  unfold objectAt?
  split
  · rename_i hlook
    exact h.look hlook
  · exact .empty depth

/-! ### The parts of a document -/

def document (file : Stored) : Members := (members? file).getD []

/-- The entry of a host. -/
def hostObject (file : Stored) (host : String) : Members := (objectAt? host (document file)).getD []

/-- What is saved for a role of a host. -/
def roleObject (file : Stored) (host : String) (role : Role) : Members :=
  (objectAt? role.name (hostObject file host)).getD []

theorem fits_document (file : Stored) : Fits Json.maxDepth (.object (document file)) := by
  unfold document members?
  split
  · rename_i hvalue
    exact Stored.fits_of_value? hvalue
  · exact .empty _

/-- Loading reads the objects of the two roles and nothing else. -/
theorem load_eq (file : Stored) (host : String) (s : Settings) :
    load file host s =
      ((s.load .clusnode (roleObject file host .clusnode)).load .headnode (roleObject file host .headnode),
        savedHeadnodes (roleObject file host .clusnode)) := by
  have hempty (t : Settings) (role : Role) : t.load role [] = t := by cases role <;> rfl
  have hentry : hostObject file host = ((members? file).bind (objectAt? host)).getD [] := by
    unfold hostObject document
    cases members? file <;> rfl
  have hnone : savedHeadnodes [] = [] := rfl
  unfold load
  simp only [roleObject, hentry]
  cases (members? file).bind (objectAt? host) with
  | none => simp [objectAt?, hempty, hnone]
  | some node =>
    simp only [Option.getD_some]
    cases objectAt? Role.clusnode.name node <;> cases objectAt? Role.headnode.name node <;>
      simp [hempty, hnone]

/-! ### What a save puts there -/

/-- The object of a role with its settings put in, and the head nodes in that of the worker role. -/
def savedRole (s : Settings) (headnodes : Option (List String)) (prior : Members) : Role → Members
  | .clusnode =>
    match headnodes with
    | some headnodes => Sorted.put headnodesName (Json.strings headnodes) (s.save .clusnode prior)
    | none => s.save .clusnode prior
  | .headnode => s.save .headnode prior

theorem name_ne_headnodesName (setting : Setting) : setting.name ≠ headnodesName := by
  cases setting <;> decide

theorem look_savedRole_of_mem (s : Settings) (headnodes : Option (List String)) (prior : Members)
    {role : Role} {setting : Setting} (h : setting ∈ Setting.ofRole role) :
    Sorted.look setting.name (savedRole s headnodes prior role) = some (s.value setting).toJson := by
  have hlook := s.look_save_of_mem h prior
  unfold savedRole
  split
  · split
    · rw [look_put_of_ne (name_ne_headnodesName setting), hlook]
    · exact hlook
  · exact hlook

/-- A name of a role's object under which neither a setting nor the head nodes are kept. -/
def Unknown (role : Role) (name : String) : Prop :=
  (∀ setting ∈ Setting.ofRole role, setting.name ≠ name) ∧ (role = .clusnode → name ≠ headnodesName)

theorem look_savedRole_of_unknown (s : Settings) (headnodes : Option (List String)) (prior : Members)
    {role : Role} {name : String} (h : Unknown role name) :
    Sorted.look name (savedRole s headnodes prior role) = Sorted.look name prior := by
  have hlook := s.look_save_of_ne h.1 prior
  unfold savedRole
  split
  · split
    · rw [look_put_of_ne (h.2 rfl), hlook]
    · exact hlook
  · exact hlook

theorem savedHeadnodes_put (headnodes : List String) (role : Members) :
    savedHeadnodes (Sorted.put headnodesName (Json.strings headnodes) role) = headnodes := by
  rw [savedHeadnodes, Sorted.look_put, if_pos Std.ReflCmp.compare_self]
  simp [Json.strings, List.filterMap_map, Function.comp_def, Json.asString?]

/-- A save without head nodes leaves those that were saved. -/
theorem savedHeadnodes_savedRole (s : Settings) (headnodes : Option (List String)) (prior : Members) :
    savedHeadnodes (savedRole s headnodes prior .clusnode) = headnodes.getD (savedHeadnodes prior) := by
  cases headnodes with
  | some headnodes => exact savedHeadnodes_put headnodes _
  | none =>
    have hlook : Sorted.look headnodesName (s.save .clusnode prior) = Sorted.look headnodesName prior :=
      s.look_save_of_ne (fun setting _ => name_ne_headnodesName setting) prior
    simp [savedRole, savedHeadnodes, hlook]

theorem objectAt?_entry (node : Members) (s : Settings) (headnodes : Option (List String)) (role : Role) :
    objectAt? role.name (entry node s headnodes) =
      some (savedRole s headnodes ((objectAt? role.name node).getD []) role) := by
  cases role with
  | headnode => exact objectAt?_put_self _ _ _
  | clusnode =>
    have hne : Role.clusnode.name ≠ Role.headnode.name := by decide
    cases headnodes <;> exact (objectAt?_put_of_ne hne _ _).trans (objectAt?_put_self _ _ _)

/-- A member of an entry that belongs to no role stays. -/
theorem look_entry_of_ne {name : String} (h : ∀ role : Role, name ≠ role.name) (node : Members)
    (s : Settings) (headnodes : Option (List String)) :
    Sorted.look name (entry node s headnodes) = Sorted.look name node :=
  (look_put_of_ne (h .headnode) _ _).trans (look_put_of_ne (h .clusnode) _ _)

theorem fits_savedRole {depth : Nat} (s : Settings) (headnodes : Option (List String)) {prior : Members}
    (h : Fits (depth + 2) (.object prior)) (role : Role) :
    Fits (depth + 2) (.object (savedRole s headnodes prior role)) := by
  have hvalue (v : SettingValue) : Fits (depth + 1) v.toJson := by
    cases v with
    | number n => exact .number (.whole n)
    | toggle b => exact .bool b
  have hsave : Fits (depth + 2) (.object (s.save role prior)) := by
    unfold Settings.save
    generalize Setting.ofRole role = l
    induction l generalizing prior with
    | nil => exact h
    | cons setting rest ih => exact ih (h.put setting.name (hvalue _))
  unfold savedRole
  split
  · split
    · exact hsave.put headnodesName (Json.fits_strings depth _)
    · exact hsave
  · exact hsave

/-- Another four levels are enough for what a save puts into a document. -/
theorem fits_entry {depth : Nat} {node : Members} (h : Fits (depth + 3) (.object node)) (s : Settings)
    (headnodes : Option (List String)) : Fits (depth + 3) (.object (entry node s headnodes)) := by
  have hrole (role : Role) : Fits (depth + 2)
      (.object (savedRole s headnodes ((objectAt? role.name node).getD []) role)) :=
    fits_savedRole s headnodes (fits_objectAt? h role.name) role
  cases headnodes <;> exact (h.put _ (hrole .clusnode)).put _ (hrole .headnode)

theorem document_save (file : Stored) (host : String) (s : Settings) (headnodes : Option (List String)) :
    document (save file host s headnodes) =
      Sorted.put host (.object (entry (hostObject file host) s headnodes)) (document file) := by
  have hfile : Fits Json.maxDepth (.object (document file)) := fits_document file
  have hnode : Fits (123 + 3) (.object (hostObject file host)) := fits_objectAt? hfile host
  have hentry := fits_entry hnode s headnodes
  have hvalue := Stored.value?_ofValue (hfile.put host hentry)
  unfold hostObject document at hvalue ⊢
  rw [members?, save, hvalue]
  rfl

theorem hostObject_save_self (file : Stored) (host : String) (s : Settings)
    (headnodes : Option (List String)) :
    hostObject (save file host s headnodes) host = entry (hostObject file host) s headnodes := by
  rw [hostObject, document_save, objectAt?_put_self]
  rfl

theorem hostObject_save_of_ne {host other : String} (h : other ≠ host) (file : Stored) (s : Settings)
    (headnodes : Option (List String)) :
    hostObject (save file host s headnodes) other = hostObject file other := by
  rw [hostObject, document_save, objectAt?_put_of_ne h]
  rfl

theorem roleObject_save_self (file : Stored) (host : String) (s : Settings)
    (headnodes : Option (List String)) (role : Role) :
    roleObject (save file host s headnodes) host role =
      savedRole s headnodes (roleObject file host role) role := by
  rw [roleObject, hostObject_save_self, objectAt?_entry]
  rfl

/-! ### Loading after a save -/

/-- What was saved is loaded, whatever settings there are. -/
theorem load_save_self {s : Settings} (h : s.Sound) (file : Stored) (host : String)
    (headnodes : Option (List String)) (t : Settings) :
    load (save file host s headnodes) host t = (s, headnodes.getD (load file host t).2) := by
  simp only [load_eq, roleObject_save_self]
  rw [savedHeadnodes_savedRole, Settings.load_both h]
  · exact fun setting hmem => look_savedRole_of_mem s headnodes _ hmem
  · exact fun setting hmem => look_savedRole_of_mem s headnodes _ hmem

/-- The head nodes that were saved are loaded, whatever the settings are. -/
theorem headnodes_load_save (file : Stored) (host : String) (s : Settings) (headnodes : List String)
    (t : Settings) : (load (save file host s (some headnodes)) host t).2 = headnodes := by
  rw [load_eq, roleObject_save_self]
  exact savedHeadnodes_savedRole s (some headnodes) _

/-- What is saved for a role of another host is as it was. -/
theorem roleObject_save_of_ne {host other : String} (h : other ≠ host) (file : Stored) (s : Settings)
    (headnodes : Option (List String)) (role : Role) :
    roleObject (save file host s headnodes) other role = roleObject file other role := by
  rw [roleObject, hostObject_save_of_ne h, roleObject]

/-- What another host loads is as it was. -/
theorem load_save_of_ne {host other : String} (h : other ≠ host) (file : Stored) (s : Settings)
    (headnodes : Option (List String)) (t : Settings) :
    load (save file host s headnodes) other t = load file other t := by
  simp only [load_eq, roleObject_save_of_ne h]

/-! ### Any number of saves -/

/-- A save by a host. -/
structure Saving where
  host : String
  settings : Settings
  headnodes : Option (List String)

/-- The file after saves one after the other. -/
def saveAll (file : Stored) (savings : List Saving) : Stored :=
  savings.foldl (fun file s => save file s.host s.settings s.headnodes) file

/-- The settings of the last save by a host. -/
def lastSettings? (host : String) (savings : List Saving) : Option Settings :=
  (savings.reverse.find? fun s => s.host = host).map (·.settings)

/-- The head nodes of the last save by a host that gave some. -/
def lastHeadnodes? (host : String) (savings : List Saving) : Option (List String) :=
  savings.reverse.findSome? fun s => if s.host = host then s.headnodes else none

theorem saveAll_concat (file : Stored) (savings : List Saving) (next : Saving) :
    saveAll file (savings ++ [next]) =
      save (saveAll file savings) next.host next.settings next.headnodes := by
  rw [saveAll, List.foldl_append]
  rfl

/-- A host loads what it saved last, and without a save what the file had at first. -/
theorem load_saveAll {savings : List Saving} (h : ∀ s ∈ savings, s.settings.Sound) (file : Stored)
    (host : String) (t : Settings) :
    load (saveAll file savings) host t =
      ((lastSettings? host savings).getD (load file host t).1,
        (lastHeadnodes? host savings).getD (load file host t).2) := by
  induction savings using List.reverseRecOn with
  | nil => rfl
  | append_singleton savings next ih =>
    have hnext : next.settings.Sound := h next (by simp)
    have hrest := ih fun s hs => h s (List.mem_append_left _ hs)
    rw [saveAll_concat]
    by_cases hhost : next.host = host
    · rw [hhost, load_save_self hnext, hrest]
      cases hgiven : next.headnodes <;> simp [lastSettings?, lastHeadnodes?, hhost, hgiven]
    · rw [load_save_of_ne (Ne.symm hhost), hrest]
      simp [lastSettings?, lastHeadnodes?, hhost]

/-- The document is a store with an entry for each host: after any saves a host loads the settings of its last
one and the head nodes it gave last, or what it loaded at first; and each save changes nothing that another
host loads, no member outside the entry of its host, and in the entry only the settings and head nodes. -/
theorem host_loads_last_save_and_others_keep {savings : List Saving}
    (h : ∀ s ∈ savings, s.settings.Reached) (file : Stored) (host : String) :
    load (saveAll file savings) host {} =
        ((lastSettings? host savings).getD (load file host {}).1,
          (lastHeadnodes? host savings).getD (load file host {}).2) ∧
      ∀ before next after, savings = before ++ next :: after →
        (∀ other ≠ next.host, ∀ t,
          load (saveAll file (before ++ [next])) other t = load (saveAll file before) other t) ∧
        (∀ name ≠ next.host,
          Sorted.look name (document (saveAll file (before ++ [next]))) =
            Sorted.look name (document (saveAll file before))) ∧
        (∀ name, (∀ role : Role, name ≠ role.name) →
          Sorted.look name (hostObject (saveAll file (before ++ [next])) next.host) =
            Sorted.look name (hostObject (saveAll file before) next.host)) ∧
        ∀ role name, Unknown role name →
          Sorted.look name (roleObject (saveAll file (before ++ [next])) next.host role) =
            Sorted.look name (roleObject (saveAll file before) next.host role) := by
  refine ⟨load_saveAll (fun s hs => Settings.sound_of_reached (h s hs)) file host {}, ?_⟩
  rintro before next after -
  rw [saveAll_concat]
  refine ⟨?_, ?_, ?_, ?_⟩
  · intro other hother t
    exact load_save_of_ne hother _ _ _ t
  · intro name hname
    rw [document_save, look_put_of_ne hname]
  · intro name hname
    rw [hostObject_save_self, look_entry_of_ne hname]
  · intro role name hname
    rw [roleObject_save_self, look_savedRole_of_unknown _ _ _ hname]

/-- Settings with another interval, as a request by name makes them. -/
def slower : Settings :=
  (({} : Settings).set .clusnode (SortedMap.ofList [(Setting.heartbeatInterval.name, " 3")])).1

/-- A host saves twice, the second time without head nodes, and another one in between. -/
def threeSavings : List Saving :=
  [⟨"A:1", {}, some ["H:1"]⟩, ⟨"B:1", {}, some []⟩, ⟨"A:1", slower, none⟩]

/-- In a file where something else stands at the host's name and another member beside it. -/
theorem host_loads_last_of_three :
    (∀ s ∈ threeSavings, s.settings.Reached) ∧
      load (saveAll (.ofValue (.object [("A:1", .null), ("B:1", .bool true)])) threeSavings) "A:1" {} =
        ({ heartbeatInterval := 3 }, ["H:1"]) := by
  have hreached : ∀ s ∈ threeSavings, s.settings.Reached := by
    have hslower : slower.Reached := .set .usual .clusnode _
    simp [threeSavings, Settings.Reached.usual, hslower]
  refine ⟨hreached, ?_⟩
  have h := (host_loads_last_save_and_others_keep hreached
    (.ofValue (.object [("A:1", .null), ("B:1", .bool true)])) "A:1").1
  have hlast : lastSettings? "A:1" threeSavings = some { heartbeatInterval := 3 } := by decide +kernel
  have hheadnodes : lastHeadnodes? "A:1" threeSavings = some ["H:1"] := by decide
  rw [hlast, hheadnodes] at h
  exact h

end Muster.ConfigFile
