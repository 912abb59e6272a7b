/-!
# Sorted maps and sets

Finite maps and sets kept as strictly increasing lists, so that two of them with the same content are
equal and a listing is always in key order. The operations are single passes over the list; what they
do to a lookup needs no assumption, and strict order is kept by each of them.
-/

namespace Muster

variable {κ α β : Type} [Ord κ]

namespace Sorted

/-- Puts `v` at `k`, replacing what stood there. -/
def put (k : κ) (v : α) : List (κ × α) → List (κ × α)
  | [] => [(k, v)]
  | (j, w) :: rest =>
    match compare k j with
    | .lt => (k, v) :: (j, w) :: rest
    | .eq => (k, v) :: rest
    | .gt => (j, w) :: put k v rest

/-- Drops the entry at `k`, if there is one. -/
def drop (k : κ) (l : List (κ × α)) : List (κ × α) :=
  l.filter fun e => compare k e.1 != .eq

/-- The value at `k`. -/
def look (k : κ) : List (κ × α) → Option α
  | [] => none
  | (j, w) :: rest => if compare k j = .eq then some w else look k rest

/-- Keys strictly increase along the list. -/
def Increasing (l : List (κ × α)) : Prop :=
  l.Pairwise fun a b => compare a.1 b.1 = .lt

@[simp] theorem put_nil (k : κ) (v : α) : put k v [] = [(k, v)] := rfl
@[simp] theorem look_nil (k : κ) : look k ([] : List (κ × α)) = none := rfl
@[simp] theorem drop_nil (k : κ) : drop k ([] : List (κ × α)) = [] := rfl

theorem mem_put {k : κ} {v : α} {e : κ × α} {l : List (κ × α)} (h : e ∈ put k v l) :
    e = (k, v) ∨ e ∈ l := by
  induction l with
  | nil => simp_all
  | cons d rest ih =>
    obtain ⟨j, w⟩ := d
    rw [put] at h
    split at h <;> grind

variable [Std.TransOrd κ] [Std.LawfulEqOrd κ]

theorem increasing_put (k : κ) (v : α) {l : List (κ × α)} (h : Increasing l) :
    Increasing (put k v l) := by
  induction l with
  | nil => simp [Increasing]
  | cons d rest ih =>
    obtain ⟨j, w⟩ := d
    obtain ⟨hj, hr⟩ := List.pairwise_cons.1 h
    rw [put]
    split
    · rename_i hlt
      refine List.pairwise_cons.2 ⟨fun e he => ?_, h⟩
      rcases List.mem_cons.1 he with rfl | he
      · exact hlt
      · exact Std.TransCmp.lt_trans hlt (hj e he)
    · rename_i heq
      have : k = j := Std.LawfulEqCmp.eq_of_compare heq
      subst this
      exact List.pairwise_cons.2 ⟨hj, hr⟩
    · rename_i hgt
      refine List.pairwise_cons.2 ⟨fun e he => ?_, ih hr⟩
      rcases mem_put he with rfl | he
      · exact Std.OrientedCmp.gt_iff_lt.1 hgt
      · exact hj e he

omit [Std.TransOrd κ] [Std.LawfulEqOrd κ] in
theorem increasing_drop (k : κ) {l : List (κ × α)} (h : Increasing l) : Increasing (drop k l) :=
  h.filter _

theorem look_put (k j : κ) (v : α) (l : List (κ × α)) :
    look j (put k v l) = if compare j k = .eq then some v else look j l := by
  induction l with
  | nil => simp [look]
  | cons d rest ih =>
    obtain ⟨i, w⟩ := d
    rw [put]
    split
    · simp [look]
    · rename_i heq
      have : k = i := Std.LawfulEqCmp.eq_of_compare heq
      subst this
      by_cases h : compare j k = .eq <;> simp [look, h]
    · rename_i hgt
      by_cases h : compare j i = .eq
      · have : j = i := Std.LawfulEqCmp.eq_of_compare h
        subst this
        have hne : compare j k ≠ .eq := by
          rw [Std.OrientedCmp.gt_iff_lt.1 hgt]; simp
        simp [look, hne]
      · simp [look, h, ih]

end Sorted

/-- A finite map whose listing is in strictly increasing key order. -/
structure SortedMap (κ α : Type) [Ord κ] where
  entries : List (κ × α)
  increasing : Sorted.Increasing entries

namespace SortedMap

@[ext] theorem ext {m n : SortedMap κ α} (h : m.entries = n.entries) : m = n := by
  cases m; cases n; simp_all

instance [DecidableEq κ] [DecidableEq α] : DecidableEq (SortedMap κ α) := fun m n =>
  decidable_of_iff (m.entries = n.entries) ⟨ext, fun h => h ▸ rfl⟩

/-- The map with no entry. -/
def empty : SortedMap κ α := ⟨[], List.Pairwise.nil⟩

instance : EmptyCollection (SortedMap κ α) := ⟨empty⟩
instance : Inhabited (SortedMap κ α) := ⟨empty⟩

/-- The entries in key order. -/
def toList (m : SortedMap κ α) : List (κ × α) := m.entries

def keys (m : SortedMap κ α) : List κ := m.entries.map (·.1)

def values (m : SortedMap κ α) : List α := m.entries.map (·.2)

def get? (m : SortedMap κ α) (k : κ) : Option α := Sorted.look k m.entries

def contains (m : SortedMap κ α) (k : κ) : Bool := (m.get? k).isSome

def size (m : SortedMap κ α) : Nat := m.entries.length

def isEmpty (m : SortedMap κ α) : Bool := m.entries.isEmpty

def erase (m : SortedMap κ α) (k : κ) : SortedMap κ α :=
  ⟨Sorted.drop k m.entries, Sorted.increasing_drop k m.increasing⟩

/-- Keeps the entries that satisfy `p`. -/
def filter (p : κ → α → Bool) (m : SortedMap κ α) : SortedMap κ α :=
  ⟨m.entries.filter fun e => p e.1 e.2, m.increasing.filter _⟩

/-- Changes every value and no key. -/
def mapValues (f : κ → α → β) (m : SortedMap κ α) : SortedMap κ β :=
  ⟨m.entries.map fun e => (e.1, f e.1 e.2), by
    simpa [Sorted.Increasing, List.pairwise_map] using m.increasing⟩

variable [Std.TransOrd κ] [Std.LawfulEqOrd κ]

def insert (m : SortedMap κ α) (k : κ) (v : α) : SortedMap κ α :=
  ⟨Sorted.put k v m.entries, Sorted.increasing_put k v m.increasing⟩

/-- Puts `v` at `k` unless something is there already. -/
def insertNew (m : SortedMap κ α) (k : κ) (v : α) : SortedMap κ α :=
  if m.contains k then m else m.insert k v

/-- Enters the pairs one after the other, so the last pair of a key counts. -/
def ofList (l : List (κ × α)) : SortedMap κ α :=
  l.foldl (fun m e => m.insert e.1 e.2) empty

omit [Std.TransOrd κ] [Std.LawfulEqOrd κ] in
@[simp] theorem toList_empty : (∅ : SortedMap κ α).toList = [] := rfl

omit [Std.TransOrd κ] [Std.LawfulEqOrd κ] in
@[simp] theorem get?_empty (k : κ) : (∅ : SortedMap κ α).get? k = none := rfl

theorem get?_insert (m : SortedMap κ α) (k j : κ) (v : α) :
    (m.insert k v).get? j = if compare j k = .eq then some v else m.get? j :=
  Sorted.look_put k j v m.entries

end SortedMap

/-- A finite set whose listing is strictly increasing. -/
abbrev SortedSet (κ : Type) [Ord κ] := SortedMap κ Unit

namespace SortedSet

def toList (s : SortedSet κ) : List κ := s.keys

variable [Std.TransOrd κ] [Std.LawfulEqOrd κ]

def add (s : SortedSet κ) (k : κ) : SortedSet κ := s.insert k ()

def ofList (l : List κ) : SortedSet κ := l.foldl add ∅

def union (s t : SortedSet κ) : SortedSet κ := t.toList.foldl add s

omit [Std.TransOrd κ] [Std.LawfulEqOrd κ] in
/-- The members of `s` that are in `t` too. -/
def inter (s t : SortedSet κ) : SortedSet κ := s.filter fun k _ => t.contains k

end SortedSet

end Muster
