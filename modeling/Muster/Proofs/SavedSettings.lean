import Muster.Proofs.Decimal
import Muster.Proofs.Sorted
import Muster.Settings

/-!
# Saved settings load again

Settings that were come to by name or from a document hold positive numbers of 64 bits, so each of them is
read off the text it is saved as. A role that was saved is loaded as it was, over whatever settings there
are; other members of what is saved for the role stay.
-/

namespace Muster

/-! ### What settings can be -/

/-- Numbers are positive and have 64 bits. -/
def SettingValue.Sound : SettingValue → Prop
  | number n => 0 < n ∧ n ≤ Width.greatest64
  | toggle _ => True

namespace Setting

theorem sound_of_read {setting : Setting} {typed : String} {v : SettingValue}
    (h : setting.read typed = .ok v) : v.Sound := by
  have hnumber : ∀ {text : String}, readNumber text = .ok v → v.Sound := by
    intro text h
    unfold readNumber at h
    split at h
    · cases h
    · rename_i n hn
      split at h
      · rename_i hpos
        cases h
        have hwithin := (Option.filter_eq_some_iff.1 hn).2
        simp only [Bool.and_eq_true, decide_eq_true_eq] at hwithin
        exact ⟨hpos, hwithin.2⟩
      · cases h
  cases setting <;> simp only [read] at h
  case storeOutput =>
    unfold readToggle at h
    split at h
    · cases h
      exact trivial
    · split at h
      · cases h
        exact trivial
      · cases h
  case heartbeatInterval => exact hnumber h
  case heartbeatTimeout => exact hnumber h
  case maxJobCount => exact hnumber h

theorem name_injective {a b : Setting} (h : a.name = b.name) : a = b := by
  revert h
  cases a <;> cases b <;> decide

end Setting

namespace Settings

/-- The settings that can be come to: the usual ones, changed by name and loaded from documents. -/
inductive Reached : Settings → Prop
  | usual : Reached {}
  | set {s : Settings} (h : Reached s) (role : Role) (configs : SortedMap String String) :
    Reached (s.set role configs).1
  | load {s : Settings} (h : Reached s) (role : Role) (saved : Json.Members) :
    Reached (s.load role saved)

/-- Every number is positive and has 64 bits. -/
def Sound (s : Settings) : Prop := ∀ setting, (s.value setting).Sound

/-- Settings are the same if every one of them is. -/
theorem ext_value {s t : Settings} (h : ∀ setting, s.value setting = t.value setting) : s = t := by
  have hinterval := h .heartbeatInterval
  have htimeout := h .heartbeatTimeout
  have hcount := h .maxJobCount
  have hstore := h .storeOutput
  simp only [value, SettingValue.number.injEq, SettingValue.toggle.injEq] at *
  cases s
  cases t
  simp_all

/-- A value of a setting takes the place of the one it had. -/
theorem value_put (s t : Settings) (setting other : Setting) :
    (s.put setting (t.value setting)).value other =
      if other = setting then t.value other else s.value other := by
  cases setting <;> cases other <;> rfl

theorem Sound.put {s : Settings} (h : s.Sound) (setting : Setting) {v : SettingValue} (hv : v.Sound) :
    (s.put setting v).Sound := by
  intro other
  have hother := h other
  cases setting <;> cases v <;> cases other <;> first | exact hother | exact hv

theorem Sound.change {s : Settings} (h : s.Sound) (role : Role) (name typed : String) :
    (s.change role name typed).1.Sound := by
  unfold Settings.change
  split
  · exact h
  · split
    · rename_i hread
      exact h.put _ (Setting.sound_of_read hread)
    · exact h

theorem Sound.changeAll {s : Settings} (h : s.Sound) (role : Role) (configs : List (String × String)) :
    (s.changeAll role configs).1.Sound := by
  induction configs generalizing s with
  | nil => exact h
  | cons e rest ih => exact ih (h.change role e.1 e.2)

theorem Sound.loadOne {s : Settings} (h : s.Sound) (saved : Json.Members) (setting : Setting) :
    (s.loadOne saved setting).Sound := by
  unfold Settings.loadOne
  split
  · exact h
  · dsimp only
    split
    · rename_i hread
      exact h.put setting (Setting.sound_of_read hread)
    · exact h

theorem sound_of_reached {s : Settings} (h : s.Reached) : s.Sound := by
  induction h with
  | usual => intro setting; cases setting <;> simp [value, SettingValue.Sound, Width.greatest64]
  | set h role configs ih => exact ih.changeAll role configs.toList
  | load h role saved ih =>
    unfold Settings.load
    generalize Setting.ofRole role = l
    rename_i s
    clear h
    induction l generalizing s with
    | nil => exact ih
    | cons setting rest ihrest => exact ihrest (ih.loadOne saved setting)

end Settings

/-! ### Reading back -/

namespace Settings

/-- A setting is read off the text it is saved as. -/
theorem read_compact {s : Settings} (h : s.Sound) (setting : Setting) :
    setting.read (s.value setting).toJson.compact = .ok (s.value setting) := by
  have hnumber {n : Int} (hn : (SettingValue.number n).Sound) :
      Setting.readNumber (Text.trim (Json.whole n).compact) = .ok (.number n) := by
    obtain ⟨hpos, hle⟩ := hn
    have htext : (Json.whole n).compact = toString n := by
      rw [Json.compact, Json.whole, Json.Writer.value, Json.Writer.number]
    have hwithin : Text.int64? (toString n).toList = some n := by
      have hge : Width.least64 ≤ n := by unfold Width.least64; omega
      rw [Text.int64?, Text.integerWithin?, Text.integer?_toString]
      simp [hge, hle]
    rw [htext, Text.trim_toString (Int.le_of_lt hpos), Setting.readNumber, hwithin]
    exact if_pos hpos
  have hvalue := h setting
  cases setting <;> simp only [value, SettingValue.toJson, Setting.read] at hvalue ⊢
  case storeOutput =>
    rw [Json.compact, Json.Writer.value]
    cases s.storeOutput <;> rfl
  case heartbeatInterval => exact hnumber hvalue
  case heartbeatTimeout => exact hnumber hvalue
  case maxJobCount => exact hnumber hvalue

theorem loadOne_of_look {s : Settings} (h : s.Sound) {saved : Json.Members} {setting : Setting}
    (hlook : Sorted.look setting.name saved = some (s.value setting).toJson) (t : Settings) :
    t.loadOne saved setting = t.put setting (s.value setting) := by
  have hread := read_compact h setting
  unfold loadOne
  rw [hlook]
  cases hv : s.value setting with
  | number n =>
    rw [hv] at hread
    simp only [SettingValue.toJson, Json.whole] at hread ⊢
    rw [hread]
  | toggle b =>
    rw [hv] at hread
    simp only [SettingValue.toJson] at hread ⊢
    rw [hread]

/-- What is saved for the settings of a list is loaded, and no other setting changes. -/
theorem value_foldl_loadOne {s : Settings} (h : s.Sound) {saved : Json.Members} (l : List Setting)
    (hlook : ∀ setting ∈ l, Sorted.look setting.name saved = some (s.value setting).toJson)
    (t : Settings) (other : Setting) :
    (l.foldl (fun t setting => t.loadOne saved setting) t).value other =
      if other ∈ l then s.value other else t.value other := by
  induction l generalizing t with
  | nil => simp
  | cons setting rest ih =>
    have hrest := ih (fun a ha => hlook a (List.mem_cons_of_mem _ ha)) (t.put setting (s.value setting))
    rw [List.foldl_cons, loadOne_of_look h (hlook setting (by simp)), hrest, value_put]
    by_cases hmem : other ∈ rest
    · simp [hmem]
    · simp [hmem]

theorem value_load {s : Settings} (h : s.Sound) {role : Role} {saved : Json.Members}
    (hlook : ∀ setting ∈ Setting.ofRole role, Sorted.look setting.name saved = some (s.value setting).toJson)
    (t : Settings) (other : Setting) :
    (t.load role saved).value other = if other ∈ Setting.ofRole role then s.value other else t.value other :=
  value_foldl_loadOne h _ hlook t other

/-- Every setting belongs to a role, so loading both roles gives the settings that were saved. -/
theorem load_both {s : Settings} (h : s.Sound) {clusnode headnode : Json.Members}
    (hclusnode : ∀ setting ∈ Setting.ofRole .clusnode,
      Sorted.look setting.name clusnode = some (s.value setting).toJson)
    (hheadnode : ∀ setting ∈ Setting.ofRole .headnode,
      Sorted.look setting.name headnode = some (s.value setting).toJson) (t : Settings) :
    (t.load .clusnode clusnode).load .headnode headnode = s := by
  refine ext_value fun setting => ?_
  rw [value_load h hheadnode, value_load h hclusnode]
  cases setting <;> rfl

/-! ### What is saved for a role -/

theorem look_foldl_put_of_mem (s : Settings) {l : List Setting} {setting : Setting} (h : setting ∈ l)
    (saved : Json.Members) :
    Sorted.look setting.name
      (l.foldl (fun saved a => Sorted.put a.name (s.value a).toJson saved) saved) =
      some (s.value setting).toJson := by
  induction l using List.reverseRecOn with
  | nil => cases h
  | append_singleton front last ih =>
    rw [List.foldl_append, List.foldl_cons, List.foldl_nil, Sorted.look_put]
    split
    · rename_i heq
      rw [Setting.name_injective (Std.LawfulEqCmp.eq_of_compare heq)]
    · rename_i hne
      refine ih ?_
      rcases List.mem_append.1 h with hfront | hlast
      · exact hfront
      · rw [List.mem_singleton.1 hlast] at hne
        exact absurd Std.ReflCmp.compare_self hne

theorem look_save_of_mem (s : Settings) {role : Role} {setting : Setting} (h : setting ∈ Setting.ofRole role)
    (saved : Json.Members) :
    Sorted.look setting.name (s.save role saved) = some (s.value setting).toJson :=
  look_foldl_put_of_mem s h saved

/-- A member that is no setting of the role stays. -/
theorem look_save_of_ne (s : Settings) {role : Role} {name : String}
    (h : ∀ setting ∈ Setting.ofRole role, setting.name ≠ name) (saved : Json.Members) :
    Sorted.look name (s.save role saved) = Sorted.look name saved := by
  unfold save
  revert h
  generalize Setting.ofRole role = l
  intro h
  induction l using List.reverseRecOn with
  | nil => rfl
  | append_singleton front last ih =>
    have hne : compare name last.name ≠ .eq := fun heq =>
      h last (by simp) (Std.LawfulEqCmp.eq_of_compare heq).symm
    rw [List.foldl_append, List.foldl_cons, List.foldl_nil, Sorted.look_put, if_neg hne]
    exact ih fun a ha => h a (List.mem_append_left _ ha)

end Settings

end Muster
