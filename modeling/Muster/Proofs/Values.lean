import Muster.Json.Stored
import Muster.Proofs.Document

/-!
# Stored values read back

A value that a file was written with is read from it again, if its objects are in order and it is not
nested too deep. Every value that is read is such a value, so what is put into a document that was read
is read back with the rest of it.
-/

namespace Muster.Json

/-- Arrays and objects are nested at most so deep, and the members of objects are in order. -/
inductive Fits : Nat → Json → Prop
  | null {depth : Nat} : Fits depth .null
  | bool {depth : Nat} (b : Bool) : Fits depth (.bool b)
  | number {depth : Nat} (n : Number) : Fits depth (.number n)
  | string {depth : Nat} (s : String) : Fits depth (.string s)
  | array {depth : Nat} {items : List Json} (fits : ∀ item ∈ items, Fits depth item) :
    Fits (depth + 1) (.array items)
  | object {depth : Nat} {members : Members} (increasing : Sorted.Increasing members)
    (fits : ∀ e ∈ members, Fits depth e.2) : Fits (depth + 1) (.object members)

theorem fits_object_iff {depth : Nat} {members : Members} :
    Fits (depth + 1) (.object members) ↔
      Sorted.Increasing members ∧ ∀ e ∈ members, Fits depth e.2 := by
  constructor
  · intro h
    cases h with
    | object increasing fits => exact ⟨increasing, fits⟩
  · rintro ⟨increasing, fits⟩
    exact .object increasing fits

theorem fits_strings (depth : Nat) (l : List String) : Fits (depth + 1) (strings l) := by
  refine .array fun item hitem => ?_
  obtain ⟨s, -, rfl⟩ := List.mem_map.1 hitem
  exact .string s

namespace Fits

theorem empty (depth : Nat) : Fits (depth + 1) (.object []) :=
  .object List.Pairwise.nil (by simp)

/-- A value may be put into an object at any name. -/
theorem put {depth : Nat} {members : Members} {v : Json} (h : Fits (depth + 1) (.object members))
    (name : String) (hv : Fits depth v) : Fits (depth + 1) (.object (Sorted.put name v members)) := by
  obtain ⟨increasing, fits⟩ := fits_object_iff.1 h
  refine .object (Sorted.increasing_put name v increasing) fun e he => ?_
  rcases Sorted.mem_put he with rfl | he
  · exact hv
  · exact fits e he

theorem look {depth : Nat} {members : Members} {name : String} {v : Json}
    (h : Fits (depth + 1) (.object members)) (hlook : Sorted.look name members = some v) :
    Fits depth v := by
  obtain ⟨increasing, fits⟩ := fits_object_iff.1 h
  exact fits (name, v) ((Sorted.look_eq_some_iff increasing name v).1 hlook)

end Fits

/-! ### From the value to its text and back -/

/-- The members of an object in order are entered as they are. -/
theorem sorted_of_increasing {members : Members} (h : Sorted.Increasing members) :
    sorted members = members :=
  Sorted.foldl_put members [] h

theorem values?_map {depth : Nat} {items : List Json}
    (h : ∀ item ∈ items, item.spelled.value? depth = some item) :
    Spelled.values? depth (items.map spelled) = some items := by
  induction items with
  | nil => rfl
  | cons item rest ih =>
    have hitem := h item (by simp)
    have hrest := ih fun v hv => h v (List.mem_cons_of_mem _ hv)
    simp [Spelled.values?, hitem, hrest]

theorem namedValues?_map {depth : Nat} {members : Members}
    (h : ∀ e ∈ members, e.2.spelled.value? depth = some e.2) :
    Spelled.namedValues? depth (members.map fun e => (some e.1, e.2.spelled)) = some members := by
  induction members with
  | nil => rfl
  | cons e rest ih =>
    have he := h e (by simp)
    have hrest := ih fun v hv => h v (List.mem_cons_of_mem _ hv)
    simp [Spelled.namedValues?, he, hrest]

theorem value?_spelled {depth : Nat} {v : Json} (h : Fits depth v) :
    v.spelled.value? depth = some v := by
  induction h with
  | null => rfl
  | bool b => rfl
  | number n => rfl
  | string s => rfl
  | array fits ih => simp [spelled, Spelled.value?, values?_map ih]
  | object increasing fits ih =>
    simp [spelled, Spelled.value?, namedValues?_map ih, sorted_of_increasing increasing]

/-! ### What is read -/

theorem increasing_sorted (members : Members) : Sorted.Increasing (sorted members) := by
  suffices h : ∀ m : Members, Sorted.Increasing m →
      Sorted.Increasing (members.foldl (fun m e => Sorted.put e.1 e.2 m) m) from h [] List.Pairwise.nil
  induction members with
  | nil => exact fun m hm => hm
  | cons e rest ih => exact fun m hm => ih _ (Sorted.increasing_put e.1 e.2 hm)

theorem mem_of_mem_sorted {members : Members} {e : String × Json} (h : e ∈ sorted members) :
    e ∈ members := by
  suffices aux : ∀ m : Members, e ∈ members.foldl (fun m e => Sorted.put e.1 e.2 m) m →
      e ∈ m ∨ e ∈ members by simpa using aux [] h
  clear h
  induction members with
  | nil => exact fun m hm => .inl hm
  | cons d rest ih =>
    intro m hm
    rcases ih _ hm with hput | hrest
    · rcases Sorted.mem_put hput with rfl | hm
      · exact .inr (by simp)
      · exact .inl hm
    · exact .inr (List.mem_cons_of_mem _ hrest)

mutual

/-- Every value that is read fits. -/
theorem fits_of_value? {depth : Nat} {v : Json} :
    ∀ s : Spelled, s.value? depth = some v → Fits depth v
  | .null, h => by
    cases h
    exact .null
  | .bool b, h => by
    cases h
    exact .bool b
  | .number n, h => by
    obtain ⟨n, -, rfl⟩ := Option.map_eq_some_iff.1 h
    exact .number n
  | .string s, h => by
    obtain ⟨s, -, rfl⟩ := Option.map_eq_some_iff.1 h
    exact .string s
  | .array items, h => by
    cases depth with
    | zero => cases h
    | succ depth =>
      obtain ⟨l, hl, rfl⟩ := Option.map_eq_some_iff.1 h
      exact .array (fits_of_values? items hl)
  | .object members, h => by
    cases depth with
    | zero => cases h
    | succ depth =>
      obtain ⟨l, hl, rfl⟩ := Option.map_eq_some_iff.1 h
      have hfits := fits_of_namedValues? members hl
      exact .object (increasing_sorted l) fun e he => hfits e (mem_of_mem_sorted he)

theorem fits_of_values? {depth : Nat} {l : List Json} :
    ∀ items : List Spelled, Spelled.values? depth items = some l → ∀ item ∈ l, Fits depth item
  | [], h => by
    cases h
    simp
  | item :: rest, h => by
    simp only [Spelled.values?, bind, Option.bind_eq_some_iff] at h
    obtain ⟨v, hv, l', hl', heq⟩ := h
    cases heq
    exact List.forall_mem_cons.2 ⟨fits_of_value? item hv, fits_of_values? rest hl'⟩

theorem fits_of_namedValues? {depth : Nat} {l : Members} :
    ∀ members : List (Option String × Spelled), Spelled.namedValues? depth members = some l →
      ∀ e ∈ l, Fits depth e.2
  | [], h => by
    cases h
    simp
  | (name, value) :: rest, h => by
    simp only [Spelled.namedValues?, bind, Option.bind_eq_some_iff] at h
    obtain ⟨name, -, v, hv, l', hl', heq⟩ := h
    cases heq
    exact List.forall_mem_cons.2 ⟨fits_of_value? value hv, fits_of_namedValues? rest hl'⟩

end

namespace Stored

theorem fits_of_value? {file : Stored} {v : Json} (h : file.value? = some v) : Fits maxDepth v := by
  cases file with
  | document spelled => exact Json.fits_of_value? spelled h
  | absent => cases h
  | damaged => cases h
  | malformed => cases h

/-- What a file was written with is read from it. -/
theorem value?_ofValue {v : Json} (h : Fits maxDepth v) : (ofValue v).value? = some v :=
  value?_spelled h

end Stored

end Muster.Json
