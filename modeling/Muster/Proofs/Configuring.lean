import Muster.Proofs.SettingTables

/-!
# Settings that are changed and loaded

Settings are changed by name, from texts, and loaded from documents. Whatever comes in, there are the same settings
afterwards with values that they can have; and the answer to a change tells what is there after it: the value as it is
shown then, or why there is none and the old one stays.
-/

namespace Muster

/-- Why a text is not taken for a setting of a role. -/
def Setting.refusal? (role : Role) (key typed : String) : Option SettingFault :=
  match ofName? role key with
  | none => some .unknown
  | some setting =>
    match setting.read typed with
    | .ok _ => none
    | .error fault => some fault

namespace Settings

variable {s : Settings} {role : Role} {setting : Setting} {key typed : String}

/-! ### One setting -/

theorem change_of_refusal {fault : SettingFault} (h : Setting.refusal? role key typed = some fault) (s : Settings) :
    s.change role key typed = (s, fault.message) := by
  unfold Setting.refusal? at h
  unfold change
  cases hname : Setting.ofName? role key with
  | none =>
    rw [hname] at h
    cases h
    rfl
  | some setting =>
    simp only [hname] at h ⊢
    cases hread : setting.read typed with
    | ok v => simp [hread] at h
    | error fault' =>
      simp only [hread, Option.some.injEq] at h ⊢
      rw [h]

theorem change_of_read {v : SettingValue} (hname : Setting.ofName? role key = some setting)
    (hread : setting.read typed = .ok v) (s : Settings) : s.change role key typed = (s.put setting v, v.text) := by
  simp only [change, hname, hread]

/-- What is not refused is read. -/
theorem exists_read (h : Setting.refusal? role key typed = none) :
    ∃ setting v, Setting.ofName? role key = some setting ∧ setting.read typed = .ok v := by
  unfold Setting.refusal? at h
  split at h
  · cases h
  · rename_i setting hname
    split at h
    · rename_i v hread
      exact ⟨setting, v, hname, hread⟩
    · cases h

/-- The answer depends on nothing but the text. -/
theorem change_snd (s t : Settings) (role : Role) (key typed : String) :
    (s.change role key typed).2 = (t.change role key typed).2 := by
  cases hrefusal : Setting.refusal? role key typed with
  | some fault => rw [change_of_refusal hrefusal, change_of_refusal hrefusal]
  | none =>
    obtain ⟨setting, v, hname, hread⟩ := exists_read hrefusal
    rw [change_of_read hname hread, change_of_read hname hread]

/-- What a setting becomes depends on itself and the text. -/
theorem value_change_congr {t : Settings} (h : s.value setting = t.value setting) (role : Role) (key typed : String) :
    (s.change role key typed).1.value setting = (t.change role key typed).1.value setting := by
  cases hrefusal : Setting.refusal? role key typed with
  | some fault => rwa [change_of_refusal hrefusal, change_of_refusal hrefusal]
  | none =>
    obtain ⟨other, v, hname, hread⟩ := exists_read hrefusal
    rw [change_of_read hname hread, change_of_read hname hread, value_put_of_read hread, value_put_of_read hread, h]

/-- A value that is shown is read as what it is. -/
theorem read_text (h : s.Sound) (setting : Setting) : setting.read (s.value setting).text = .ok (s.value setting) := by
  have hread := read_compact h setting
  have htext : (s.value setting).toJson.compact = (s.value setting).text := by
    cases s.value setting with
    | number n =>
      rw [SettingValue.toJson, Json.compact, Json.whole, Json.Writer.value, Json.Writer.number]
      rfl
    | toggle b => cases b <;> rw [SettingValue.toJson, Json.compact, Json.Writer.value] <;> rfl
  rwa [htext] at hread

theorem put_value (s : Settings) (setting : Setting) : s.put setting (s.value setting) = s := by
  refine ext_value fun other => ?_
  rw [value_put]
  split <;> rfl

/-- A setting that is given the value it shows stays. -/
theorem change_shown (h : s.Sound) (hname : Setting.ofName? role key = some setting) :
    s.change role key (s.value setting).text = (s, (s.value setting).text) := by
  rw [change_of_read hname (read_text h setting), put_value]

/-! ### Many settings -/

theorem changeAll_snd (s : Settings) (role : Role) (configs : List (String × String)) :
    (s.changeAll role configs).2 = configs.map fun e => (e.1, (s.change role e.1 e.2).2) := by
  suffices hall : ∀ t : Settings,
      (t.changeAll role configs).2 = configs.map fun e => (e.1, (s.change role e.1 e.2).2) from hall s
  induction configs with
  | nil => exact fun t => rfl
  | cons e rest ih =>
    intro t
    rw [List.map_cons, ← ih (t.change role e.1 e.2).1, change_snd s t]
    rfl

/-- Each text has its own answer. -/
theorem set_snd (s : Settings) (role : Role) (configs : SortedMap String String) :
    (s.set role configs).2 = configs.mapValues fun key typed => (s.change role key typed).2 := by
  have hanswers : (s.set role configs).2 = SortedMap.ofList (s.changeAll role configs.toList).2 := rfl
  rw [hanswers, changeAll_snd]
  exact SortedMap.ofList_toList (configs.mapValues fun key typed => (s.change role key typed).2)

theorem set_single (s : Settings) (role : Role) (key typed : String) :
    s.set role (SortedMap.ofList [(key, typed)]) =
      ((s.change role key typed).1, SortedMap.ofList [(key, (s.change role key typed).2)]) := rfl

/-- A setting that is not named stays. -/
theorem value_changeAll_of_not_named {configs : List (String × String)}
    (h : ∀ e ∈ configs, Setting.ofName? role e.1 ≠ some setting) (s : Settings) :
    (s.changeAll role configs).1.value setting = s.value setting := by
  induction configs generalizing s with
  | nil => rfl
  | cons e rest ih =>
    refine (ih (fun e he => h e (List.mem_cons_of_mem _ he)) _).trans ?_
    exact value_change_of_ne (h e List.mem_cons_self) s e.2

/-- A setting that is named once becomes what its own text makes of it. -/
theorem value_changeAll_of_named {configs : List (String × String)} (hnodup : (configs.map Prod.fst).Nodup)
    (hmem : (key, typed) ∈ configs) (hname : Setting.ofName? role key = some setting) (s : Settings) :
    (s.changeAll role configs).1.value setting = (s.change role key typed).1.value setting := by
  have hother {k : String} (hne : k ≠ key) : Setting.ofName? role k ≠ some setting := fun hk =>
    hne ((Setting.ofName?_eq_some_iff.1 hk).2.symm.trans (Setting.ofName?_eq_some_iff.1 hname).2)
  induction configs generalizing s with
  | nil => cases hmem
  | cons e rest ih =>
    obtain ⟨hfirst, hrest⟩ := List.nodup_cons.1 hnodup
    have hall : (s.changeAll role (e :: rest)).1 = ((s.change role e.1 e.2).1.changeAll role rest).1 := rfl
    rw [hall]
    rcases List.mem_cons.1 hmem with rfl | hlater
    · refine value_changeAll_of_not_named (fun later hmem => hother fun heq => hfirst ?_) _
      show key ∈ rest.map Prod.fst
      rw [← heq]
      exact List.mem_map_of_mem hmem
    · have hne : e.1 ≠ key := fun heq => by
        rw [heq] at hfirst
        exact hfirst (List.mem_map_of_mem (f := Prod.fst) hlater)
      rw [ih hrest hlater]
      exact value_change_congr (value_change_of_ne (hother hne) s e.2) role key typed

/-! ### What a call comes to -/

/-- What is true of the answers to a call. -/
structure Truthful (s : Settings) (role : Role) (configs : SortedMap String String) : Prop where
  answers : (s.set role configs).2.keys = configs.keys
  others : ∀ other, other ≠ role → (s.set role configs).1.get other = s.get other
  unnamed : ∀ key, configs.get? key = none → ((s.set role configs).1.get role).get? key = (s.get role).get? key
  refused : ∀ key typed fault, configs.get? key = some typed → Setting.refusal? role key typed = some fault →
    (s.set role configs).2.get? key = some fault.message ∧
      ((s.set role configs).1.get role).get? key = (s.get role).get? key
  accepted : ∀ key typed, configs.get? key = some typed → Setting.refusal? role key typed = none → ∃ shown,
    (s.set role configs).2.get? key = some shown ∧ ((s.set role configs).1.get role).get? key = some shown ∧
      (∃ setting v, Setting.ofName? role key = some setting ∧ setting.read typed = .ok v ∧ shown = v.text) ∧
      (s.set role configs).1.set role (SortedMap.ofList [(key, shown)]) =
        ((s.set role configs).1, SortedMap.ofList [(key, shown)])

/-- What a role shows at a name after a call. -/
theorem get?_set (s : Settings) (role : Role) (configs : SortedMap String String) (key : String) :
    ((s.set role configs).1.get role).get? key =
      match configs.get? key with
      | none => (s.get role).get? key
      | some typed => ((s.change role key typed).1.get role).get? key := by
  have hset : (s.set role configs).1 = (s.changeAll role configs.toList).1 := rfl
  rw [hset, get?_get]
  cases hname : Setting.ofName? role key with
  | none => cases configs.get? key <;> simp [get?_get, hname]
  | some setting =>
    cases htyped : configs.get? key with
    | none =>
      have hunnamed : ∀ e ∈ configs.toList, Setting.ofName? role e.1 ≠ some setting := by
        rintro ⟨k, typed⟩ hmem hk
        have hkey : k = key :=
          (Setting.ofName?_eq_some_iff.1 hk).2.symm.trans (Setting.ofName?_eq_some_iff.1 hname).2
        rw [← SortedMap.get?_eq_some_iff, hkey, htyped] at hmem
        cases hmem
      simp only [get?_get, hname, Option.map_some, value_changeAll_of_not_named hunnamed]
    | some typed =>
      have hmem := (configs.get?_eq_some_iff key typed).1 htyped
      have hvalue := value_changeAll_of_named configs.keys_nodup hmem hname s
      simp only [get?_get, hname, Option.map_some]
      exact congrArg (fun v => some (SettingValue.text v)) hvalue

theorem truthful (h : s.Sound) (role : Role) (configs : SortedMap String String) : s.Truthful role configs where
  answers := by
    rw [set_snd, SortedMap.keys_mapValues]
  others other hne := by
    rw [← get_table, ← get_table, table_set_of_ne hne]
  unnamed key hnone := by
    rw [get?_set, hnone]
  refused key typed fault htyped hrefusal := by
    rw [set_snd, SortedMap.get?_mapValues, get?_set, htyped]
    simp only [Option.map_some, change_of_refusal hrefusal, and_self]
  accepted key typed htyped hrefusal := by
    obtain ⟨setting, v, hname, hread⟩ := exists_read hrefusal
    have hmem := (configs.get?_eq_some_iff key typed).1 htyped
    have hvalue : (s.set role configs).1.value setting = v := by
      refine (value_changeAll_of_named configs.keys_nodup hmem hname s).trans ?_
      rw [change_of_read hname hread, value_put_of_read hread, if_pos rfl]
    have hsound : (s.set role configs).1.Sound := h.changeAll role configs.toList
    refine ⟨v.text, ?_, ?_, ⟨setting, v, hname, hread, rfl⟩, ?_⟩
    · rw [set_snd, SortedMap.get?_mapValues, htyped, Option.map_some, change_of_read hname hread]
    · rw [get?_get, hname, Option.map_some, hvalue]
    · have hchange := change_shown hsound hname
      rw [hvalue] at hchange
      rw [set_single, hchange]

/-! ### Whole histories -/

theorem setIn_of_unknown {name : String} (h : ∀ role : Role, name ≠ role.name) (s : Settings)
    (configs : SortedMap String String) : s.setIn name configs = .error (.configRole name) := by
  rw [setIn, Role.ofName, if_neg (h .clusnode), if_neg (h .headnode)]
  rfl

theorem keys_table (s t : Settings) (role : Role) : (s.table role).keys = (t.table role).keys := by
  refine SortedMap.keys_eq_of_mem_iff fun key => ?_
  rw [SortedMap.mem_keys, SortedMap.mem_keys, SortedMap.contains, SortedMap.contains, get?_table, get?_table]
  cases Setting.ofName? role key <;> rfl

/-- A number that is held is positive, has 64 bits, and has the check that it had from the start. -/
theorem held_number (h : s.Sound) {n : Int} {check : Int → Option SettingFault}
    (hheld : (s.table role).get? key = some (.number n check)) :
    check = Held.positive ∧ 0 < n ∧ n ≤ Width.greatest64 := by
  rw [get?_table, Option.map_eq_some_iff] at hheld
  obtain ⟨setting, -, hvalue⟩ := hheld
  have hsound := h setting
  cases hv : s.value setting with
  | number m =>
    rw [hv] at hvalue hsound
    cases hvalue
    exact ⟨rfl, hsound⟩
  | toggle b =>
    rw [hv] at hvalue
    cases hvalue

/-- A number is read off its table, and is no less than one. -/
theorem number_table (h : s.Sound) {n : Int} (hname : Setting.ofName? role key = some setting)
    (hvalue : s.value setting = .number n) : max ((s.table role).number key) 1 = n := by
  have hpositive : 0 < n := by
    have hsetting := h setting
    rw [hvalue] at hsetting
    exact hsetting.1
  have hnumber : (s.table role).number key = n := by
    rw [Table.number, get?_table, hname, Option.map_some, hvalue]
    rfl
  rw [hnumber]
  omega

/-- What is true of the settings of a node after any calls. They are what the tables of the two roles hold, whatever is
done next; the names stay, and each number is positive, has 64 bits and keeps its check. What is read off the tables is
the setting as it is. A role that there is not is refused; a call for one that there is changes the settings of the
names whose texts can be read, and tells of each name what is shown afterwards. -/
theorem settings_of_calls (calls : List Call) :
    let s := served calls
    let t := kept calls
    (∀ role, (t role).get = s.get role ∧ (t role).keys = (Tables.usual role).keys ∧
      (∀ configs, (t role).set configs = ((s.set role configs).1.table role, (s.set role configs).2)) ∧
      ∀ file host, (t role).load (ConfigFile.roleObject file host role) =
        (ConfigFile.load file host s).1.table role) ∧
    (∀ role key n check, (t role).get? key = some (.number n check) →
      check = Held.positive ∧ 0 < n ∧ n ≤ Width.greatest64) ∧
    (t.interval = s.heartbeatInterval ∧ t.timeout = s.heartbeatTimeout ∧ t.capacity = s.maxJobCount ∧
      t.keepsOutput = s.storeOutput) ∧
    (∀ name configs, (∀ role : Role, name ≠ role.name) → s.setIn name configs = .error (.configRole name)) ∧
    ∀ role configs, s.Truthful role configs := by
  intro s t
  have hsound : s.Sound := sound_of_reached (reached_served calls)
  have ht : t = s.table := kept_eq calls
  have hkeeps : Tables.keepsOutput s.table = s.storeOutput := by
    rw [Tables.keepsOutput, get?_table]
    rfl
  rw [ht]
  refine ⟨fun role => ⟨get_table s role, ?_, set_table s role, fun file host => serve_tables s (.load file host) role⟩,
    fun role key n check => held_number hsound,
    ⟨number_table hsound rfl rfl, number_table hsound rfl rfl, number_table hsound rfl rfl, hkeeps⟩,
    fun name configs hname => setIn_of_unknown hname s configs, truthful hsound⟩
  rw [usual_eq, keys_table]

/-- Texts of which some can be read, a role that there is not, and a document whose values are of other kinds. -/
def mixture : List Call :=
  [.set "headnode role" (SortedMap.ofList [("max job count", " +7 "), ("store output", "maybe"), ("no name", "1")]),
    .set "nobody" (SortedMap.ofList [("store output", "false")]),
    .load (.ofValue (.object [("A:1", .object [
      ("clusnode role", .object [("heartbeat interval in seconds", .string "0")]),
      ("headnode role", .object [("max job count", .bool true), ("store output", .string " false")])])])) "A:1"]

theorem settings_of_mixture :
    (kept mixture).capacity = (served mixture).maxJobCount ∧
      (served mixture).setIn "nobody" ∅ = .error (.configRole "nobody") ∧
      ((served mixture).set .headnode (SortedMap.ofList [("max job count", "0")])).2.get? "max job count" =
        some "Value should be positive" ∧
      ((served mixture).set .headnode (SortedMap.ofList [("max job count", " +08")])).2.get? "max job count" =
        some "8" := by
  obtain ⟨-, -, ⟨-, -, hcapacity, -⟩, hunknown, htruthful⟩ := settings_of_calls mixture
  have hrefused := (htruthful .headnode (SortedMap.ofList [("max job count", "0")])).refused "max job count" "0"
    .notPositive (by decide +kernel) (by decide +kernel)
  obtain ⟨shown, hshown, -, ⟨setting, v, hname, hread, rfl⟩, -⟩ :=
    (htruthful .headnode (SortedMap.ofList [("max job count", " +08")])).accepted "max job count" " +08"
      (by decide +kernel) (by decide +kernel)
  refine ⟨hcapacity, hunknown "nobody" ∅ fun role => by cases role <;> decide, hrefused.1, hshown.trans ?_⟩
  have hvalue : Setting.maxJobCount.read " +08" = .ok (.number 8) := by rfl
  cases hname
  rw [hvalue] at hread
  cases hread
  rfl

end Settings

end Muster
