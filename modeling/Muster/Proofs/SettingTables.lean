import Muster.Proofs.HostEntries

/-!
# Settings as tables

For each role there is a table: by name it holds what a setting has, a number together with the check that another one
has to pass. A new value is read by what is held, and takes its place. Two tables that come about in this way hold
exactly the settings of the two roles.
-/

namespace Muster

/-! ### What a table holds -/

/-- What is held for a setting. -/
inductive Held
  | toggle (b : Bool)
  | number (n : Int) (check : Int → Option SettingFault)
  | text (s : String)

namespace Held

/-- The check that all numbers have. -/
def positive (n : Int) : Option SettingFault := if 0 < n then none else some .notPositive

/-- Reads something of the same kind, a number by the same check. -/
def parse (held : Held) (typed : String) : Except SettingFault Held :=
  let typed := Text.trim typed
  match held with
  | toggle _ =>
    if typed = "true" then .ok (toggle true)
    else if typed = "false" then .ok (toggle false)
    else .error (.noToggle typed)
  | number _ check =>
    match Text.int64? typed.toList with
    | none => .error (.noNumber typed)
    | some n =>
      match check n with
      | none => .ok (number n check)
      | some fault => .error fault
  | text _ => .ok (text typed)

def ofJson (held : Held) : Json → Except SettingFault Held
  | .string typed => held.parse typed
  | v => held.parse v.compact

def shown : Held → String
  | toggle b => toString b
  | number n _ => toString n
  | text s => s

def ofValue : SettingValue → Held
  | .number n => number n positive
  | .toggle b => toggle b

end Held

/-- What is held for the settings of a role, by name. -/
abbrev Table := SortedMap String Held

namespace Table

def change (t : Table) (key typed : String) : Table × String :=
  match t.get? key with
  | none => (t, SettingFault.unknown.message)
  | some held =>
    match held.parse typed with
    | .ok new => (t.insert key new, new.shown)
    | .error fault => (t, fault.message)

def changeAll (t : Table) : List (String × String) → Table × List (String × String)
  | [] => (t, [])
  | (key, typed) :: rest =>
    let (t, message) := t.change key typed
    let (t, messages) := changeAll t rest
    (t, (key, message) :: messages)

def set (t : Table) (configs : SortedMap String String) : Table × SortedMap String String :=
  let (t, messages) := t.changeAll configs.toList
  (t, SortedMap.ofList messages)

def get (t : Table) : SortedMap String String := t.mapValues fun _ held => held.shown

/-- What is held after a document was loaded that may have a member of the name. -/
def loaded (saved : Json.Members) (key : String) (held : Held) : Held :=
  match Sorted.look key saved with
  | none => held
  | some v =>
    match held.ofJson v with
    | .ok new => new
    | .error _ => held

def load (t : Table) (saved : Json.Members) : Table := t.mapValues (loaded saved)

/-- The number at a name; without one it is zero. -/
def number (t : Table) (key : String) : Int :=
  match t.get? key with
  | some (.number n _) => n
  | _ => 0

end Table

/-- The tables of the two roles. -/
abbrev Tables := Role → Table

/-- A call to the settings of a node: a role is named, or a file is read. -/
inductive Settings.Call
  | set (role : String) (configs : SortedMap String String)
  | load (file : Json.Stored) (host : String)

namespace Tables

def usual : Tables
  | .clusnode => SortedMap.ofList [(Setting.heartbeatInterval.name, .number 1 Held.positive)]
  | .headnode =>
    SortedMap.ofList [(Setting.heartbeatTimeout.name, .number 5 Held.positive),
      (Setting.maxJobCount.name, .number 100 Held.positive), (Setting.storeOutput.name, .toggle true)]

def serve (t : Tables) : Settings.Call → Tables
  | .set name configs =>
    match Role.ofName name with
    | .ok role => Function.update t role ((t role).set configs).1
    | .error _ => t
  | .load file host => fun role => (t role).load (ConfigFile.roleObject file host role)

/-- Seconds between two heartbeats. -/
def interval (t : Tables) : Int := max ((t .clusnode).number Setting.heartbeatInterval.name) 1

/-- Seconds without a heartbeat after which a node is lost. -/
def timeout (t : Tables) : Int := max ((t .headnode).number Setting.heartbeatTimeout.name) 1

def capacity (t : Tables) : Int := max ((t .headnode).number Setting.maxJobCount.name) 1

def keepsOutput (t : Tables) : Bool :=
  match (t .headnode).get? Setting.storeOutput.name with
  | some (.toggle b) => b
  | _ => false

end Tables

namespace Settings

/-- Sets settings of the role of a name. -/
def setIn (s : Settings) (name : String) (configs : SortedMap String String) :
    Except Fault (Settings × SortedMap String String) := do
  let role ← Role.ofName name
  return s.set role configs

def serve (s : Settings) : Call → Settings
  | .set name configs =>
    match s.setIn name configs with
    | .ok (s, _) => s
    | .error _ => s
  | .load file host => (ConfigFile.load file host s).1

/-- The settings of a role as a table. -/
def table (s : Settings) (role : Role) : Table :=
  SortedMap.ofList ((Setting.ofRole role).map fun setting => (setting.name, .ofValue (s.value setting)))

end Settings

/-! ### Settings of a role -/

namespace Setting

theorem ofName?_eq_some_iff {role : Role} {key : String} {setting : Setting} :
    ofName? role key = some setting ↔ setting ∈ ofRole role ∧ setting.name = key := by
  constructor
  · intro h
    exact ⟨List.mem_of_find?_eq_some h, by simpa using List.find?_some h⟩
  · rintro ⟨hmem, rfl⟩
    cases hfind : ofName? role setting.name with
    | none => exact absurd (List.find?_eq_none.1 hfind setting hmem) (by simp)
    | some other => rw [name_injective (by simpa using List.find?_some hfind : other.name = setting.name)]

/-- A setting belongs to one role. -/
theorem role_unique {role other : Role} {setting : Setting} (h : setting ∈ ofRole role)
    (h' : setting ∈ ofRole other) : other = role := by
  revert h h'
  cases role <;> cases other <;> cases setting <;> decide

/-- A value that is read is one that the setting can have. -/
theorem exists_value_of_read {setting : Setting} {typed : String} {v : SettingValue}
    (h : setting.read typed = .ok v) : ∃ t : Settings, t.value setting = v := by
  have hnumber {text : String} (h : readNumber text = .ok v) : ∃ n, v = .number n := by
    unfold readNumber at h
    split at h
    · cases h
    · split at h
      · cases h
        exact ⟨_, rfl⟩
      · cases h
  have htoggle {text : String} (h : readToggle text = .ok v) : ∃ b, v = .toggle b := by
    unfold readToggle at h
    split at h
    · cases h
      exact ⟨_, rfl⟩
    · split at h
      · cases h
        exact ⟨_, rfl⟩
      · cases h
  cases setting with
  | heartbeatInterval =>
    obtain ⟨n, rfl⟩ := hnumber h
    exact ⟨{ heartbeatInterval := n }, rfl⟩
  | heartbeatTimeout =>
    obtain ⟨n, rfl⟩ := hnumber h
    exact ⟨{ heartbeatTimeout := n }, rfl⟩
  | maxJobCount =>
    obtain ⟨n, rfl⟩ := hnumber h
    exact ⟨{ maxJobCount := n }, rfl⟩
  | storeOutput =>
    obtain ⟨b, rfl⟩ := htoggle h
    exact ⟨{ storeOutput := b }, rfl⟩

end Setting

namespace Settings

variable {s : Settings} {role other : Role} {setting : Setting} {key typed : String} {v : SettingValue}

theorem value_put_of_read (h : setting.read typed = .ok v) (s : Settings) (other : Setting) :
    (s.put setting v).value other = if other = setting then v else s.value other := by
  obtain ⟨t, rfl⟩ := Setting.exists_value_of_read h
  rw [value_put]
  split
  · rename_i heq
    rw [heq]
  · rfl

theorem value_loadOne_of_ne {other : Setting} (h : other ≠ setting) (s : Settings) (saved : Json.Members) :
    (s.loadOne saved setting).value other = s.value other := by
  unfold loadOne
  split
  · rfl
  · dsimp only
    split
    · rename_i hread
      rw [value_put_of_read hread, if_neg h]
    · rfl

/-! ### The tables of settings -/

theorem get?_table (s : Settings) (role : Role) (key : String) :
    (s.table role).get? key = (Setting.ofName? role key).map fun setting => .ofValue (s.value setting) :=
  SortedMap.get?_ofList_map _ Setting.name_injective _ key

theorem get?_get (s : Settings) (role : Role) (key : String) :
    (s.get role).get? key = (Setting.ofName? role key).map fun setting => (s.value setting).text :=
  SortedMap.get?_ofList_map _ Setting.name_injective _ key

theorem shown_ofValue (v : SettingValue) : (Held.ofValue v).shown = v.text := by cases v <;> rfl

theorem get_table (s : Settings) (role : Role) : (s.table role).get = s.get role := by
  refine SortedMap.ext_get? fun key => ?_
  rw [Table.get, SortedMap.get?_mapValues, get?_table, get?_get, Option.map_map]
  congr 1
  funext setting
  exact shown_ofValue _

/-- What is held reads as the setting does, and keeps its check. -/
theorem parse_ofValue (s : Settings) (setting : Setting) (typed : String) :
    (Held.ofValue (s.value setting)).parse typed = (setting.read typed).map Held.ofValue := by
  have hnumber (n : Int) :
      (Held.number n Held.positive).parse typed = (Setting.readNumber (Text.trim typed)).map Held.ofValue := by
    simp only [Held.parse, Setting.readNumber]
    cases Text.int64? (Text.trim typed).toList with
    | none => rfl
    | some m => by_cases hpos : 0 < m <;> simp [Held.positive, hpos, Except.map, Held.ofValue]
  cases setting with
  | heartbeatInterval | heartbeatTimeout | maxJobCount => exact hnumber _
  | storeOutput =>
    show (Held.toggle s.storeOutput).parse typed = (Setting.readToggle (Text.trim typed)).map Held.ofValue
    simp only [Held.parse, Setting.readToggle]
    split
    · rfl
    · split <;> rfl

theorem table_put (h : Setting.ofName? role key = some setting) (hread : setting.read typed = .ok v) :
    (s.table role).insert key (.ofValue v) = (s.put setting v).table role := by
  refine SortedMap.ext_get? fun k => ?_
  by_cases hk : k = key
  · rw [hk, SortedMap.get?_insert_self, get?_table, h, Option.map_some, value_put_of_read hread, if_pos rfl]
  · rw [SortedMap.get?_insert_of_ne _ _ hk, get?_table, get?_table]
    cases hname : Setting.ofName? role k with
    | none => rfl
    | some a =>
      have hne : a ≠ setting := by
        rintro rfl
        rw [Setting.ofName?_eq_some_iff] at h hname
        exact hk (hname.2.symm.trans h.2)
      rw [Option.map_some, Option.map_some, value_put_of_read hread, if_neg hne]

theorem change_table (s : Settings) (role : Role) (key typed : String) :
    (s.table role).change key typed = ((s.change role key typed).1.table role, (s.change role key typed).2) := by
  unfold Table.change change
  rw [get?_table]
  cases hname : Setting.ofName? role key with
  | none => rfl
  | some setting =>
    simp only [Option.map_some, parse_ofValue]
    cases hread : setting.read typed with
    | error fault => rfl
    | ok v =>
      simp only [Except.map, shown_ofValue]
      rw [table_put hname hread]

theorem changeAll_table (s : Settings) (role : Role) (configs : List (String × String)) :
    (s.table role).changeAll configs =
      ((s.changeAll role configs).1.table role, (s.changeAll role configs).2) := by
  induction configs generalizing s with
  | nil => rfl
  | cons e rest ih =>
    have hrest := ih (s.change role e.1 e.2).1
    simp only [Table.changeAll, changeAll, change_table, hrest]

theorem set_table (s : Settings) (role : Role) (configs : SortedMap String String) :
    (s.table role).set configs = ((s.set role configs).1.table role, (s.set role configs).2) := by
  simp only [Table.set, set, changeAll_table]

theorem value_change_of_ne (h : Setting.ofName? role key ≠ some setting) (s : Settings) (typed : String) :
    (s.change role key typed).1.value setting = s.value setting := by
  unfold change
  split
  · rfl
  · rename_i a hname
    have hne : setting ≠ a := by
      rintro rfl
      exact h hname
    split
    · rename_i hread
      rw [value_put_of_read hread, if_neg hne]
    · rfl

/-- The other role is not concerned. -/
theorem value_changeAll_of_other (h : setting ∉ Setting.ofRole role) (s : Settings) (configs : List (String × String)) :
    (s.changeAll role configs).1.value setting = s.value setting := by
  induction configs generalizing s with
  | nil => rfl
  | cons e rest ih =>
    refine (ih _).trans (value_change_of_ne (fun hname => ?_) s e.2)
    exact h (Setting.ofName?_eq_some_iff.1 hname).1

theorem table_congr {t : Settings} (h : ∀ setting ∈ Setting.ofRole role, s.value setting = t.value setting) :
    s.table role = t.table role := by
  have hmap : ((Setting.ofRole role).map fun a => (a.name, Held.ofValue (s.value a))) =
      (Setting.ofRole role).map fun a => (a.name, Held.ofValue (t.value a)) :=
    List.map_congr_left fun a ha => by rw [h a ha]
  rw [table, hmap, table]

theorem table_set_of_ne (h : other ≠ role) (s : Settings) (configs : SortedMap String String) :
    (s.set role configs).1.table other = s.table other :=
  table_congr fun _ hmem => value_changeAll_of_other (fun hmem' => h (Setting.role_unique hmem' hmem)) s _

/-! ### Loading into tables -/

theorem ofValue_loadOne (s : Settings) (saved : Json.Members) (setting : Setting) :
    Held.ofValue ((s.loadOne saved setting).value setting) =
      Table.loaded saved setting.name (.ofValue (s.value setting)) := by
  unfold loadOne Table.loaded
  cases Sorted.look setting.name saved with
  | none => rfl
  | some v =>
    -- A text is read as it is, and any other member as it is written.
    cases v <;> simp only [Held.ofJson, parse_ofValue] <;> split <;> rename_i hread <;> simp only [hread, Except.map]
    all_goals rw [value_put_of_read hread, if_pos rfl]

theorem ofValue_foldl_loadOne {l : List Setting} (hnodup : l.Nodup) (saved : Json.Members) (s : Settings) :
    Held.ofValue ((l.foldl (fun s a => s.loadOne saved a) s).value setting) =
      if setting ∈ l then Table.loaded saved setting.name (.ofValue (s.value setting))
      else .ofValue (s.value setting) := by
  induction l generalizing s with
  | nil => rfl
  | cons first rest ih =>
    obtain ⟨hfirst, hrest⟩ := List.nodup_cons.1 hnodup
    rw [List.foldl_cons, ih hrest]
    by_cases heq : setting = first
    · subst heq
      rw [if_neg hfirst, if_pos List.mem_cons_self, ofValue_loadOne]
    · simp only [List.mem_cons, heq, false_or, value_loadOne_of_ne heq]

theorem nodup_ofRole (role : Role) : (Setting.ofRole role).Nodup := by cases role <;> decide

/-- Loading concerns the settings of the role, each by the member of its name. -/
theorem ofValue_load (s : Settings) (role : Role) (saved : Json.Members) (setting : Setting) :
    Held.ofValue ((s.load role saved).value setting) =
      if setting ∈ Setting.ofRole role then Table.loaded saved setting.name (.ofValue (s.value setting))
      else .ofValue (s.value setting) :=
  ofValue_foldl_loadOne (nodup_ofRole role) saved s

theorem load_table (s : Settings) (role : Role) (saved : Json.Members) :
    (s.table role).load saved = (s.load role saved).table role := by
  refine SortedMap.ext_get? fun key => ?_
  rw [Table.load, SortedMap.get?_mapValues, get?_table, get?_table]
  cases hname : Setting.ofName? role key with
  | none => rfl
  | some setting =>
    obtain ⟨hmem, rfl⟩ := Setting.ofName?_eq_some_iff.1 hname
    rw [Option.map_some, Option.map_some, Option.map_some, ofValue_load, if_pos hmem]

theorem table_load_of_ne (h : other ≠ role) (s : Settings) (saved : Json.Members) :
    (s.load role saved).table other = s.table other := by
  refine SortedMap.ext_get? fun key => ?_
  rw [get?_table, get?_table]
  cases hname : Setting.ofName? other key with
  | none => rfl
  | some setting =>
    have hnot : setting ∉ Setting.ofRole role := fun hmem =>
      h (Setting.role_unique hmem (Setting.ofName?_eq_some_iff.1 hname).1)
    rw [Option.map_some, Option.map_some, ofValue_load, if_neg hnot]

/-! ### Whole histories -/

theorem usual_eq (role : Role) : Tables.usual role = ({} : Settings).table role := by cases role <;> rfl

theorem serve_set (s : Settings) (name : String) (configs : SortedMap String String) :
    s.serve (.set name configs) = match Role.ofName name with
      | .ok role => (s.set role configs).1
      | .error _ => s := by
  simp only [serve, setIn]
  cases Role.ofName name <;> rfl

theorem serve_load (s : Settings) (file : Json.Stored) (host : String) :
    s.serve (.load file host) =
      (s.load .clusnode (ConfigFile.roleObject file host .clusnode)).load .headnode
        (ConfigFile.roleObject file host .headnode) := by
  rw [serve, ConfigFile.load_eq]

/-- One call does the same to the tables. -/
theorem serve_tables (s : Settings) (c : Call) (role : Role) :
    Tables.serve s.table c role = (s.serve c).table role := by
  cases c with
  | set name configs =>
    rw [serve_set, Tables.serve]
    cases Role.ofName name with
    | error fault => rfl
    | ok named =>
      simp only [set_table]
      by_cases heq : role = named
      · rw [heq, Function.update_self]
      · rw [Function.update_of_ne heq, table_set_of_ne heq]
  | load file host =>
    rw [serve_load]
    show (s.table role).load (ConfigFile.roleObject file host role) = _
    cases role with
    | clusnode =>
      have hother : Role.clusnode ≠ .headnode := by decide
      rw [load_table, table_load_of_ne hother]
    | headnode =>
      have hother : Role.headnode ≠ .clusnode := by decide
      rw [← load_table, table_load_of_ne hother]

/-- The settings of a node after some calls. -/
def served (calls : List Call) : Settings := calls.foldl serve {}

/-- The tables after some calls. -/
def kept (calls : List Call) : Tables := calls.foldl Tables.serve Tables.usual

theorem kept_eq (calls : List Call) : kept calls = (served calls).table := by
  unfold kept served
  rw [show Tables.usual = ({} : Settings).table from funext usual_eq]
  generalize ({} : Settings) = s
  induction calls generalizing s with
  | nil => rfl
  | cons c rest ih =>
    rw [List.foldl_cons, List.foldl_cons, ← ih]
    congr 1
    exact funext (serve_tables s c)

theorem reached_serve (h : s.Reached) (c : Call) : (s.serve c).Reached := by
  cases c with
  | set name configs =>
    rw [serve_set]
    cases Role.ofName name with
    | error fault => exact h
    | ok role => exact h.set role configs
  | load file host =>
    rw [serve_load]
    exact (h.load .clusnode _).load .headnode _

theorem reached_served (calls : List Call) : (served calls).Reached := by
  induction calls using List.reverseRecOn with
  | nil => exact .usual
  | append_singleton calls c ih =>
    unfold served
    rw [List.foldl_append]
    exact reached_serve ih c

end Settings

end Muster
