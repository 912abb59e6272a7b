import Mathlib.Data.List.Induction
import Mathlib.Tactic.Tauto
import Muster.Sorted

/-!
# Look-ups in sorted maps

What a listing, a look-up and the construction from a list of pairs have to do with each other. A map is
its listing: entered anew in that order it comes out the same. A list that grows at its end is looked up too.
-/

namespace Muster

theorem getElem?_concat_eq_some {α : Type} {l : List α} {e u : α} {k : Nat} :
    (l ++ [e])[k]? = some u ↔ l[k]? = some u ∨ k = l.length ∧ u = e := by
  rw [List.getElem?_append]
  split
  · rename_i hlt
    simp [Nat.ne_of_lt hlt]
  · rename_i hle
    have hnone : l[k]? = none := List.getElem?_eq_none_iff.2 (by omega)
    rw [hnone, List.getElem?_singleton]
    by_cases hk : k = l.length
    · simp [hk, eq_comm]
    · simp [hk, show k - l.length ≠ 0 by omega]

variable {κ α : Type} [Ord κ]

namespace Sorted

/-- In an increasing list every entry is found at its key. -/
theorem look_eq_some_iff [Std.LawfulEqOrd κ] {l : List (κ × α)} (h : Increasing l) (k : κ) (v : α) :
    look k l = some v ↔ (k, v) ∈ l := by
  induction l with
  | nil => simp
  | cons d rest ih =>
    obtain ⟨j, w⟩ := d
    obtain ⟨hj, hr⟩ := List.pairwise_cons.1 h
    by_cases hk : compare k j = .eq
    · have : k = j := Std.LawfulEqCmp.eq_of_compare hk
      subst this
      have hrest : (k, v) ∉ rest := by
        intro hm
        have hlt := hj _ hm
        rw [hk] at hlt
        cases hlt
      simp [look, hrest, eq_comm]
    · have hne : k ≠ j := by
        intro he
        subst he
        exact hk Std.ReflCmp.compare_self
      simp [look, hk, ih hr, hne]

/-- An entry behind all others goes to the end. -/
theorem put_last [Std.TransOrd κ] {k : κ} {v : α} {l : List (κ × α)} (h : ∀ e ∈ l, compare e.1 k = .lt) :
    put k v l = l ++ [(k, v)] := by
  induction l with
  | nil => rfl
  | cons d rest ih =>
    obtain ⟨j, w⟩ := d
    have hgt : compare k j = .gt := Std.OrientedCmp.gt_iff_lt.2 (h (j, w) (by simp))
    rw [put, hgt]
    simp only [List.cons_append, List.cons.injEq, true_and]
    exact ih fun e he => h e (List.mem_cons_of_mem _ he)

/-- Entering an increasing list behind an increasing list appends it. -/
theorem foldl_put [Std.TransOrd κ] (l before : List (κ × α)) (h : Increasing (before ++ l)) :
    l.foldl (fun m e => put e.1 e.2 m) before = before ++ l := by
  induction l generalizing before with
  | nil => simp
  | cons d rest ih =>
    have hd : ∀ e ∈ before, compare e.1 d.1 = .lt := fun e he =>
      (List.pairwise_append.1 h).2.2 e he d (by simp)
    rw [List.foldl_cons, put_last hd, ih _ (by simpa using h)]
    simp

end Sorted

namespace SortedMap

variable [Std.TransOrd κ] [Std.LawfulEqOrd κ]

omit [Std.TransOrd κ] in
theorem get?_eq_some_iff (m : SortedMap κ α) (k : κ) (v : α) :
    m.get? k = some v ↔ (k, v) ∈ m.toList :=
  Sorted.look_eq_some_iff m.increasing k v

omit [Std.TransOrd κ] in
theorem mem_keys (m : SortedMap κ α) (k : κ) : k ∈ m.keys ↔ m.contains k := by
  have h (v : α) : m.get? k = some v ↔ (k, v) ∈ m.entries := m.get?_eq_some_iff k v
  simp only [keys, List.mem_map, contains, Option.isSome_iff_exists, h]
  constructor
  · rintro ⟨⟨j, v⟩, hm, rfl⟩
    exact ⟨v, hm⟩
  · rintro ⟨v, hm⟩
    exact ⟨(k, v), hm, rfl⟩

omit [Std.TransOrd κ] in
theorem keys_nodup (m : SortedMap κ α) : m.keys.Nodup := by
  refine List.pairwise_map.2 (m.increasing.imp ?_)
  intro a b hab he
  have heq : compare a.1 b.1 = .eq := by simp [he]
  rw [heq] at hab
  cases hab

omit [Std.TransOrd κ] [Std.LawfulEqOrd κ] in
theorem keys_increasing (m : SortedMap κ α) : m.keys.Pairwise fun a b => compare a b = .lt :=
  List.pairwise_map.2 m.increasing

omit [Std.TransOrd κ] in
theorem get?_filter_eq_some_iff (m : SortedMap κ α) (p : κ → α → Bool) (k : κ) (v : α) :
    (m.filter p).get? k = some v ↔ m.get? k = some v ∧ p k v := by
  rw [get?_eq_some_iff, get?_eq_some_iff]
  exact List.mem_filter

@[simp] theorem get?_insert_self (m : SortedMap κ α) (k : κ) (v : α) :
    (m.insert k v).get? k = some v := by
  simp [get?_insert, Std.ReflCmp.compare_self]

theorem get?_insert_of_ne (m : SortedMap κ α) {k j : κ} (v : α) (h : j ≠ k) :
    (m.insert k v).get? j = m.get? j := by
  simp [get?_insert, Std.LawfulEqCmp.compare_eq_iff_eq, h]

omit [Std.TransOrd κ] in
theorem mem_toList_erase (m : SortedMap κ α) (k j : κ) (v : α) :
    (j, v) ∈ (m.erase k).toList ↔ j ≠ k ∧ (j, v) ∈ m.toList := by
  have hkept : (compare k j != .eq) = true ↔ j ≠ k := by
    rw [bne_iff_ne, ne_eq, Std.LawfulEqCmp.compare_eq_iff_eq]
    exact ne_comm
  exact List.mem_filter.trans (and_comm.trans (and_congr_left' hkept))

omit [Std.TransOrd κ] in
/-- After a key is erased, what is found is what was there at the other keys. -/
theorem get?_erase_eq_some_iff (m : SortedMap κ α) (k j : κ) (v : α) :
    (m.erase k).get? j = some v ↔ j ≠ k ∧ m.get? j = some v := by
  rw [get?_eq_some_iff, get?_eq_some_iff, mem_toList_erase]

omit [Std.TransOrd κ] in
@[simp] theorem get?_erase_self (m : SortedMap κ α) (k : κ) : (m.erase k).get? k = none := by
  rw [Option.eq_none_iff_forall_ne_some]
  intro v hv
  exact ((m.get?_erase_eq_some_iff k k v).1 hv).1 rfl

omit [Std.TransOrd κ] in
theorem contains_erase (m : SortedMap κ α) (k j : κ) : (m.erase k).contains j ↔ j ≠ k ∧ m.contains j := by
  simp only [contains, Option.isSome_iff_exists, get?_erase_eq_some_iff, exists_and_left]

theorem contains_insert (m : SortedMap κ α) (k j : κ) (v : α) :
    (m.insert k v).contains j ↔ j = k ∨ m.contains j := by
  by_cases h : j = k
  · subst h
    simp [contains]
  · simp [contains, get?_insert_of_ne _ _ h, h]

/-- The keys of a map are known by what is among them. -/
theorem keys_eq_of_mem_iff {m n : SortedMap κ α} (h : ∀ k, k ∈ m.keys ↔ k ∈ n.keys) : m.keys = n.keys := by
  have hperm := (List.perm_ext_iff_of_nodup m.keys_nodup n.keys_nodup).2 h
  refine hperm.eq_of_pairwise ?_ m.keys_increasing n.keys_increasing
  intro a b _ _ hab hba
  rw [Std.OrientedCmp.gt_iff_lt.2 hba] at hab
  cases hab

/-- A map is what is found in it. -/
theorem ext_get? {m n : SortedMap κ α} (h : ∀ k, m.get? k = n.get? k) : m = n := by
  have hmem (e : κ × α) : e ∈ m.entries ↔ e ∈ n.entries := by
    have hm := m.get?_eq_some_iff e.1 e.2
    rw [h, n.get?_eq_some_iff] at hm
    exact hm.symm
  have hnodup (m : SortedMap κ α) : m.entries.Nodup := m.increasing.imp fun hab heq => by simp [heq] at hab
  have hperm := (List.perm_ext_iff_of_nodup (hnodup m) (hnodup n)).2 hmem
  refine SortedMap.ext (hperm.eq_of_pairwise ?_ m.increasing n.increasing)
  intro a b _ _ hab hba
  rw [Std.OrientedCmp.gt_iff_lt.2 hba] at hab
  cases hab

omit [Std.TransOrd κ] in
theorem get?_mapValues {β : Type} (f : κ → α → β) (m : SortedMap κ α) (k : κ) :
    (m.mapValues f).get? k = (m.get? k).map (f k) := by
  show Sorted.look k (m.entries.map fun e => (e.1, f e.1 e.2)) = (Sorted.look k m.entries).map (f k)
  induction m.entries with
  | nil => rfl
  | cons e rest ih =>
    obtain ⟨j, v⟩ := e
    simp only [List.map_cons, Sorted.look]
    split
    · rename_i heq
      rw [Std.LawfulEqCmp.eq_of_compare heq]
      rfl
    · exact ih

omit [Std.TransOrd κ] [Std.LawfulEqOrd κ] in
theorem keys_mapValues {β : Type} (f : κ → α → β) (m : SortedMap κ α) : (m.mapValues f).keys = m.keys := by
  simp [keys, mapValues]

theorem get?_insertNew_of_ne (m : SortedMap κ α) {k j : κ} (v : α) (h : j ≠ k) :
    (m.insertNew k v).get? j = m.get? j := by
  unfold insertNew
  split
  · rfl
  · exact m.get?_insert_of_ne v h

theorem get?_insertNew_self (m : SortedMap κ α) {k : κ} (v : α) (h : m.get? k = none) :
    (m.insertNew k v).get? k = some v := by
  simp [insertNew, contains, h]

theorem ofList_concat (l : List (κ × α)) (e : κ × α) : ofList (l ++ [e]) = (ofList l).insert e.1 e.2 := by
  simp [ofList]

/-- Values that are entered under different names are found by the one that has the name. -/
theorem get?_ofList_map {ι : Type} [BEq κ] [LawfulBEq κ] {name : ι → κ} (f : ι → α)
    (hinj : ∀ {a b : ι}, name a = name b → a = b) (l : List ι) (k : κ) :
    (ofList (l.map fun a => (name a, f a))).get? k = (l.find? fun a => name a == k).map f := by
  induction l using List.reverseRecOn with
  | nil => rfl
  | append_singleton front last ih =>
    rw [List.map_append, List.map_singleton, ofList_concat, List.find?_append]
    by_cases hk : k = name last
    · subst hk
      rw [get?_insert_self]
      cases hfind : front.find? fun a => name a == name last with
      | none => simp
      | some a => simp [hinj (by simpa using List.find?_some hfind : name a = name last)]
    · have hne : (name last == k) = false := by simpa using fun h => hk h.symm
      rw [get?_insert_of_ne _ _ hk, ih, List.find?_singleton, hne]
      simp

/-- Every entry of a map was entered. -/
theorem mem_of_mem_ofList {l : List (κ × α)} {e : κ × α} (h : e ∈ (ofList l).toList) : e ∈ l := by
  suffices aux : ∀ m : SortedMap κ α,
      (l.foldl (fun m e => m.insert e.1 e.2) m).get? e.1 = some e.2 → m.get? e.1 = some e.2 ∨ e ∈ l by
    have h := aux ∅ ((get?_eq_some_iff _ _ _).2 h)
    rw [get?_empty] at h
    simpa using h
  clear h
  induction l with
  | nil =>
    intro m hm
    exact .inl hm
  | cons d rest ih =>
    intro m hm
    rw [List.foldl_cons] at hm
    rcases ih _ hm with hd | hrest
    · by_cases hk : e.1 = d.1
      · rw [hk, get?_insert_self, Option.some.injEq] at hd
        have hed : e = d := Prod.ext hk hd.symm
        exact .inr (by simp [hed])
      · rw [get?_insert_of_ne _ _ hk] at hd
        exact .inl hd
    · exact .inr (List.mem_cons_of_mem _ hrest)

theorem contains_ofList (l : List (κ × α)) (k : κ) :
    (ofList l).contains k ↔ k ∈ l.map (·.1) := by
  suffices aux : ∀ m : SortedMap κ α,
      ((l.foldl (fun m e => m.insert e.1 e.2) m).contains k ↔ m.contains k ∨ k ∈ l.map (·.1)) by
    have h := aux ∅
    simp only [contains, get?_empty] at h
    exact h.trans (by simp)
  induction l with
  | nil => simp
  | cons d rest ih =>
    intro m
    rw [List.foldl_cons, ih]
    by_cases hk : k = d.1
    · subst hk
      simp [contains]
    · simp [contains, get?_insert_of_ne _ _ hk, hk]

/-- The same for pairs that count only where nothing is yet. -/
theorem get?_foldl_insertNew {l : List (κ × α)} (h : (l.map (·.1)).Nodup) (m : SortedMap κ α)
    (hm : ∀ e ∈ l, m.get? e.1 = none) (k : κ) (v : α) :
    (l.foldl (fun m e => m.insertNew e.1 e.2) m).get? k = some v ↔
      m.get? k = some v ∨ (k, v) ∈ l := by
  induction l generalizing m with
  | nil => simp
  | cons d rest ih =>
    obtain ⟨j, w⟩ := d
    simp only [List.map_cons, List.nodup_cons] at h
    have hnew : ∀ e ∈ rest, (m.insertNew j w).get? e.1 = none := by
      intro e he
      have hne : e.1 ≠ j := fun hj => h.1 (List.mem_map.2 ⟨e, he, hj⟩)
      rw [get?_insertNew_of_ne _ _ hne]
      exact hm e (List.mem_cons_of_mem _ he)
    rw [List.foldl_cons, ih h.2 _ hnew]
    by_cases hk : k = j
    · subst hk
      have hrest : (k, v) ∉ rest := fun hv => h.1 (List.mem_map.2 ⟨_, hv, rfl⟩)
      have hnone := hm (k, w) (by simp)
      simp [get?_insertNew_self _ _ hnone, hnone, hrest, eq_comm]
    · simp [get?_insertNew_of_ne _ _ hk, hk]

/-- A map is what its listing makes. -/
@[simp] theorem ofList_toList (m : SortedMap κ α) : ofList m.toList = m := by
  have hentries : ∀ (l : List (κ × α)) (n : SortedMap κ α),
      (l.foldl (fun m e => m.insert e.1 e.2) n).entries =
        l.foldl (fun m e => Sorted.put e.1 e.2 m) n.entries := by
    intro l
    induction l with
    | nil => intro n; rfl
    | cons d rest ih => intro n; rw [List.foldl_cons, List.foldl_cons, ih]; rfl
  apply SortedMap.ext
  rw [ofList, hentries]
  exact Sorted.foldl_put m.toList [] m.increasing

omit [Std.TransOrd κ] in
theorem isEmpty_iff (m : SortedMap κ α) : m.isEmpty ↔ ∀ k, m.get? k = none := by
  constructor
  · intro h k
    simp only [isEmpty, List.isEmpty_iff] at h
    simp [get?, h]
  · intro h
    cases he : m.entries with
    | nil => simp [isEmpty, he]
    | cons d rest =>
      have hd : m.get? d.1 = some d.2 := (m.get?_eq_some_iff _ _).2 (by simp [toList, he])
      rw [h d.1] at hd
      cases hd

end SortedMap

namespace SortedSet

variable [Std.TransOrd κ] [Std.LawfulEqOrd κ]

theorem contains_add (s : SortedSet κ) (k j : κ) : (s.add k).contains j ↔ j = k ∨ s.contains j :=
  SortedMap.contains_insert s k j ()

/-- A set is what is in it. -/
theorem eq_of_contains_iff {s t : SortedSet κ} (h : ∀ k, s.contains k ↔ t.contains k) : s = t := by
  have hkeys : s.keys = t.keys := SortedMap.keys_eq_of_mem_iff fun k => by
    rw [SortedMap.mem_keys, SortedMap.mem_keys]
    exact h k
  have hentries (s : SortedSet κ) : s.entries = s.keys.map (·, ()) := by
    simp [SortedMap.keys, Function.comp_def]
  apply SortedMap.ext
  rw [hentries, hentries, hkeys]

theorem contains_foldl_add (l : List κ) (s : SortedSet κ) (k : κ) :
    (l.foldl add s).contains k ↔ s.contains k ∨ k ∈ l := by
  induction l generalizing s with
  | nil => simp
  | cons j rest ih =>
    rw [List.foldl_cons, ih, contains_add, List.mem_cons]
    tauto

theorem contains_ofList (l : List κ) (k : κ) : (ofList l).contains k ↔ k ∈ l := by
  rw [ofList, contains_foldl_add]
  simp [SortedMap.contains]

theorem contains_union (s t : SortedSet κ) (k : κ) : (s.union t).contains k ↔ s.contains k ∨ t.contains k := by
  rw [union, contains_foldl_add, toList, SortedMap.mem_keys]

omit [Std.TransOrd κ] in
theorem contains_inter (s t : SortedSet κ) (k : κ) : (s.inter t).contains k ↔ s.contains k ∧ t.contains k := by
  rw [SortedMap.contains, SortedMap.contains, inter, Option.isSome_iff_exists, Option.isSome_iff_exists]
  simp only [SortedMap.get?_filter_eq_some_iff, exists_and_right]

end SortedSet

end Muster
