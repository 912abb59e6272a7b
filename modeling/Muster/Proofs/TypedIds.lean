import Mathlib.Data.List.Forall2
import Muster.Job.Selection
import Muster.Proofs.Cutting
import Muster.Proofs.Numerals
import Muster.Proofs.Sorted

/-!
# Selections as they are typed

Which arguments select jobs: each item between commas is a word, an id or a range. The selection is made of what
the items mean, in whatever order and in however many arguments they come.
-/

namespace Muster.JobIds

/-- A word whose letters may be capitals. -/
def InAnyCase (word s : List Char) : Prop := List.Forall₂ (fun c d => c = d ∨ c = d.toUpper) s word

/-- A number of 32 bits that can be an id, or an id counted back. -/
def IsId (n : Int) : Prop := n ≠ 0 ∧ Width.least32 ≤ n ∧ n ≤ Width.greatest32

/-- The item that a text without blanks at its ends spells. The first dash of a range is not a sign. -/
inductive Spells : List Char → Item → Prop
  | every {s : List Char} (h : s = ['*'] ∨ InAnyCase ['a', 'l', 'l'] s) : Spells s .every
  | newest {s : List Char} (h : s = ['~', '~'] ∨ InAnyCase ['l', 'a', 's', 't'] s) : Spells s .newest
  | one {s : List Char} {n : Int} (h : Text.Numeral ['+', '-'] s n) (hid : IsId n) : Spells s (.one n)
  | between {front back : List Char} {first last : Int} (hdash : '-' ∉ front)
      (hfront : Text.Numeral ['+'] (Text.trimmed front) first) (hfirst : 0 < first ∧ first ≤ Width.greatest32)
      (hback : Text.Numeral ['+'] (Text.trimmed back) last) (hlast : 0 < last ∧ last ≤ Width.greatest32) :
      Spells (front ++ '-' :: back) (.between first last)

/-- The numbers that an item puts into a selection. -/
def Item.Means : Item → Int → Prop
  | .every, n => n = 0
  | .newest, n => n = -1
  | .one id, n => n = id
  | .between first last, n => first ≤ n ∧ n ≤ last

/-- An item as it can be typed: no id is 0, and the ends of a range are not counted back. -/
def Item.IsTyped : Item → Prop
  | .one n => n ≠ 0
  | .between first last => 0 < first ∧ 0 < last
  | _ => True

/-- The items of the arguments, without the blanks at their ends. -/
def items (args : List String) : List (List Char) :=
  (args.flatMap fun arg => Text.split ',' arg.toList).map Text.trimmed

/-! ### Readings that succeed -/

section

variable {α β : Type}

theorem bind_eq_ok_iff {x : Except Fault α} {f : α → Except Fault β} {b : β} :
    (x >>= f) = .ok b ↔ ∃ a, x = .ok a ∧ f a = .ok b := by
  cases x with
  | error fault => simp [bind, Except.bind]
  | ok a => simp [bind, Except.bind]

theorem map_eq_ok_iff {x : Except Fault α} {f : α → β} {b : β} : x.map f = .ok b ↔ ∃ a, x = .ok a ∧ f a = b := by
  cases x with
  | error fault => simp [Except.map]
  | ok a => simp [Except.map]

theorem mapM_ok_iff {f : α → Except Fault β} {l : List α} :
    (∃ m, l.mapM f = .ok m) ↔ ∀ a ∈ l, ∃ b, f a = .ok b := by
  induction l with
  | nil => simp [pure, Except.pure]
  | cons a rest ih =>
    rw [List.forall_mem_cons, ← ih, List.mapM_cons]
    simp only [bind_eq_ok_iff, pure, Except.pure, Except.ok.injEq]
    constructor
    · rintro ⟨-, b, hb, m, hm, -⟩
      exact ⟨⟨b, hb⟩, m, hm⟩
    · rintro ⟨⟨b, hb⟩, m, hm⟩
      exact ⟨b :: m, b, hb, m, hm, rfl⟩

/-- What comes out of a list is what comes out of its elements. -/
theorem mem_of_mapM_ok {f : α → Except Fault β} {l : List α} {m : List β} (h : l.mapM f = .ok m) (b : β) :
    b ∈ m ↔ ∃ a ∈ l, f a = .ok b := by
  induction l generalizing m with
  | nil =>
    cases h
    simp
  | cons a rest ih =>
    rw [List.mapM_cons] at h
    obtain ⟨c, hc, h⟩ := bind_eq_ok_iff.1 h
    obtain ⟨m', hm', h⟩ := bind_eq_ok_iff.1 h
    cases h
    rw [List.mem_cons, ih hm', List.exists_mem_cons_iff, hc, Except.ok.injEq]
    exact or_congr_left eq_comm

end

/-! ### Words -/

theorem toLower_of_ascii {d : Char} (hd : d ∈ ['*', '~', 'a', 'l', 's', 't']) :
    ∀ n < 128, (Char.ofNat n).toLower = d ↔ Char.ofNat n = d ∨ Char.ofNat n = d.toUpper := by
  simp only [List.mem_cons, List.not_mem_nil, or_false] at hd
  rcases hd with rfl | rfl | rfl | rfl | rfl | rfl <;> decide +kernel

theorem toLower_eq_self {c : Char} (h : c.toNat < 65 ∨ 90 < c.toNat) : c.toLower = c := by
  apply dif_neg
  rintro ⟨hlow, hhigh⟩
  have hlow : 65 ≤ c.toNat := hlow
  have hhigh : c.toNat ≤ 90 := hhigh
  omega

/-- Only ASCII characters are small letters of ASCII when they are made small. -/
theorem toLower_eq_iff {c d : Char} (hd : d ∈ ['*', '~', 'a', 'l', 's', 't']) :
    c.toLower = d ↔ c = d ∨ c = d.toUpper := by
  by_cases hc : c.toNat < 128
  · have hascii := toLower_of_ascii hd c.toNat hc
    rwa [Char.ofNat_toNat] at hascii
  · have hsmall : ∀ d ∈ ['*', '~', 'a', 'l', 's', 't'], d.toUpper.toNat < 128 := by simp
    rw [toLower_eq_self (by omega)]
    refine (or_iff_left fun h => ?_).symm
    have hd := hsmall d hd
    rw [← h] at hd
    exact hc hd

theorem map_toLower_eq_iff {word s : List Char} (hword : ∀ d ∈ word, d ∈ ['*', '~', 'a', 'l', 's', 't']) :
    s.map Char.toLower = word ↔ InAnyCase word s := by
  induction s generalizing word with
  | nil => cases word <;> simp [InAnyCase]
  | cons c rest ih =>
    cases word with
    | nil => simp [InAnyCase]
    | cons d word =>
      rw [InAnyCase, List.forall₂_cons, List.map_cons, List.cons.injEq, toLower_eq_iff (hword d (by simp)),
        ih fun e he => hword e (List.mem_cons_of_mem d he), InAnyCase]

/-- What is no letter has one case. -/
theorem inAnyCase_iff_eq {word s : List Char} (hword : ∀ d ∈ word, d.toUpper = d) : InAnyCase word s ↔ s = word := by
  induction s generalizing word with
  | nil => cases word <;> simp [InAnyCase]
  | cons c rest ih =>
    cases word with
    | nil => simp [InAnyCase]
    | cons d word =>
      rw [InAnyCase, List.forall₂_cons, hword d (by simp), or_self, List.cons.injEq]
      exact and_congr_right fun _ => ih fun e he => hword e (List.mem_cons_of_mem d he)

theorem every_iff {s : List Char} : (s.map Char.toLower = ['*'] ∨ s.map Char.toLower = ['a', 'l', 'l']) ↔
    s = ['*'] ∨ InAnyCase ['a', 'l', 'l'] s := by
  rw [map_toLower_eq_iff (by simp), map_toLower_eq_iff (by simp), inAnyCase_iff_eq (by simp)]

theorem newest_iff {s : List Char} : (s.map Char.toLower = ['l', 'a', 's', 't'] ∨ s.map Char.toLower = ['~', '~']) ↔
    s = ['~', '~'] ∨ InAnyCase ['l', 'a', 's', 't'] s := by
  rw [or_comm, map_toLower_eq_iff (by simp), map_toLower_eq_iff (by simp), inAnyCase_iff_eq (by simp)]

/-- A text with a dash or a digit is no word. -/
theorem not_word_of_mem {s : List Char} {c : Char} (hc : c ∈ s) (h : c = '-' ∨ c.isDigit) :
    ¬ (s.map Char.toLower = ['*'] ∨ s.map Char.toLower = ['a', 'l', 'l']) ∧
      ¬ (s.map Char.toLower = ['l', 'a', 's', 't'] ∨ s.map Char.toLower = ['~', '~']) := by
  have hcode : c.toNat < 65 := by
    rcases h with rfl | h
    · decide
    · have hdigit : 48 ≤ c.val ∧ c.val ≤ 57 := by simpa [Char.isDigit] using h
      have hhigh : c.toNat ≤ 57 := hdigit.2
      omega
  have hmem : c ∈ s.map Char.toLower := List.mem_map.2 ⟨c, hc, toLower_eq_self (.inl hcode)⟩
  have hno : ∀ d ∈ ['*', '~', 'a', 'l', 's', 't'], ¬ (d = '-' ∨ d.isDigit) := by simp
  have hother {word : List Char} (hword : ∀ d ∈ word, d ∈ ['*', '~', 'a', 'l', 's', 't']) :
      s.map Char.toLower ≠ word := by
    rintro rfl
    exact hno c (hword c hmem) h
  exact ⟨not_or.2 ⟨hother (by simp), hother (by simp)⟩, not_or.2 ⟨hother (by simp), hother (by simp)⟩⟩

/-! ### Ids and ranges -/

theorem readId_eq_ok_iff {typed : List Char} {n : Int} :
    readId typed = .ok n ↔ Text.Numeral ['+', '-'] (Text.trimmed typed) n ∧ IsId n := by
  have hread : (Text.int32? (Text.trimmed typed)).filter (· ≠ 0) = some n ↔
      Text.Numeral ['+', '-'] (Text.trimmed typed) n ∧ IsId n := by
    rw [Option.filter_eq_some_iff, Text.int32?_eq_some_iff, IsId]
    simp only [decide_not, Bool.not_eq_true', decide_eq_false_iff_not]
    tauto
  rw [← hread, readId]
  split
  · rename_i hid
    rw [hid, Except.ok.injEq, Option.some.injEq]
  · rename_i hid
    rw [hid]
    simp only [reduceCtorEq]

theorem sides?_eq_some_iff {s front back : List Char} :
    sides? s = some (front, back) ↔ s = front ++ '-' :: back ∧ '-' ∉ front ∧ front ≠ [] := by
  unfold sides?
  split
  · simp only [reduceCtorEq, false_iff, not_and]
    intro hs hdash hne
    obtain ⟨c, rest, rfl⟩ := List.exists_cons_of_ne_nil hne
    obtain ⟨rfl, -⟩ := List.cons.inj hs
    exact hdash List.mem_cons_self
  · rename_i hno
    rw [Text.splitOnce?_eq_some_iff]
    refine and_congr_right fun hs => (and_iff_left ?_).symm
    rintro rfl
    exact hno back hs

/-- The dash of a number is a sign. -/
theorem sides?_of_numeral {signs s : List Char} {n : Int} (h : Text.Numeral signs s n) : sides? s = none := by
  rw [Option.eq_none_iff_forall_not_mem]
  rintro ⟨front, back⟩ hsides
  obtain ⟨hs, hdash, hne⟩ := sides?_eq_some_iff.1 hsides
  -- Behind its first character a number has only digits, and the dash is behind the first character.
  obtain ⟨c, front, rfl⟩ := List.exists_cons_of_ne_nil hne
  have hrest : ∀ d ∈ s.tail, d.isDigit := by
    cases h with
    | plain hne hdigits => exact fun d hd => hdigits d (List.mem_of_mem_tail hd)
    | plus hsign hne hdigits | minus hsign hne hdigits => exact hdigits
  have hdash := hrest '-' (by simp [hs])
  exact absurd hdash (by decide)

/-! ### Items -/

theorem readItem_of_spells {typed : List Char} {item : Item} (h : Spells (Text.trimmed typed) item) :
    readItem typed = .ok item := by
  unfold readItem
  simp only
  generalize hs : Text.trimmed typed = s at h
  cases h with
  | every h => rw [if_pos (every_iff.2 h)]
  | newest h =>
    have hword := newest_iff.2 h
    rw [if_neg, if_pos hword]
    rcases hword with hword | hword <;> simp [hword]
  | one h hid =>
    obtain ⟨c, hc, hdigit⟩ := h.exists_digit
    obtain ⟨hevery, hnewest⟩ := not_word_of_mem hc (.inr hdigit)
    rw [if_neg hevery, if_neg hnewest, sides?_of_numeral h]
    refine map_eq_ok_iff.2 ⟨_, readId_eq_ok_iff.2 ⟨?_, hid⟩, rfl⟩
    rwa [← hs, Text.trimmed_trimmed, hs]
  | @between front back first last hdash hfront hfirst hback hlast =>
    obtain ⟨hevery, hnewest⟩ := not_word_of_mem (c := '-') (s := front ++ '-' :: back) (by simp) (.inl rfl)
    have hid {n : Int} (hn : 0 < n ∧ n ≤ Width.greatest32) : IsId n := by
      have hleast : Width.least32 < 0 := by decide
      exact ⟨by omega, by omega, hn.2⟩
    have hread {typed : List Char} {n : Int} (h : Text.Numeral ['+'] (Text.trimmed typed) n)
        (hn : 0 < n ∧ n ≤ Width.greatest32) : typed.isEmpty = false ∧ readId typed = .ok n := by
      refine ⟨?_, readId_eq_ok_iff.2 ⟨h.mono (by simp), hid hn⟩⟩
      rw [List.isEmpty_eq_false_iff]
      rintro rfl
      exact h.ne_nil rfl
    obtain ⟨hne, hread₁⟩ := hread hfront hfirst
    obtain ⟨hne', hread₂⟩ := hread hback hlast
    have hsides : sides? (front ++ '-' :: back) = some (front, back) :=
      sides?_eq_some_iff.2 ⟨rfl, hdash, List.isEmpty_eq_false_iff.1 hne⟩
    rw [if_neg hevery, if_neg hnewest, hsides]
    simp only [hne, hne', hread₁, hread₂, bind, Except.bind]
    rw [if_neg (by simp), if_neg (by omega)]

/-- An item is read as what it spells, and every other text is refused. -/
theorem readItem_eq_ok_iff {typed : List Char} {item : Item} :
    readItem typed = .ok item ↔ Spells (Text.trimmed typed) item := by
  refine ⟨fun h => ?_, readItem_of_spells⟩
  unfold readItem at h
  simp only at h
  split at h
  · rename_i hword
    cases h
    exact .every (every_iff.1 hword)
  split at h
  · rename_i hword
    cases h
    exact .newest (newest_iff.1 hword)
  split at h
  · obtain ⟨n, hn, rfl⟩ := map_eq_ok_iff.1 h
    obtain ⟨hnumber, hid⟩ := readId_eq_ok_iff.1 hn
    rw [Text.trimmed_trimmed] at hnumber
    exact .one hnumber hid
  · rename_i front back hsides
    obtain ⟨hs, hdash, -⟩ := sides?_eq_some_iff.1 hsides
    split at h
    · cases h
    obtain ⟨first, hfirst, h⟩ := bind_eq_ok_iff.1 h
    obtain ⟨last, hlast, h⟩ := bind_eq_ok_iff.1 h
    split at h
    · cases h
    rename_i hrange
    cases h
    obtain ⟨hnumber, hid⟩ := readId_eq_ok_iff.1 hfirst
    obtain ⟨hnumber', hid'⟩ := readId_eq_ok_iff.1 hlast
    -- There is no dash before the first one, so the first number is positive, and then the last one has to be.
    have hnonneg := hnumber.nonneg fun hc => hdash ((Text.trimmed_sublist _).subset hc)
    have hne := hid.1
    have hne' := hid'.1
    have hpos : 0 < first := by omega
    have hpos' : 0 < last := by omega
    rw [hs]
    exact .between hdash (hnumber.of_pos hpos) ⟨hpos, hid.2.2⟩ (hnumber'.of_pos hpos')
      ⟨hpos', hid'.2.2⟩

theorem Spells.isTyped {s : List Char} {item : Item} (h : Spells s item) : item.IsTyped := by
  cases h with
  | every | newest => trivial
  | one hnumber hid => exact hid.1
  | between hdash hfront hfirst hback hlast => exact ⟨hfirst.1, hlast.1⟩

/-! ### Selections -/

theorem mem_interval {first last n : Int} : n ∈ interval first last ↔ first ≤ n ∧ n ≤ last := by
  simp only [interval, List.mem_map, List.mem_range]
  constructor
  · rintro ⟨k, hk, rfl⟩
    omega
  · rintro ⟨hfirst, hlast⟩
    exact ⟨(n - first).toNat, by omega, by omega⟩

theorem mem_ids_iff {item : Item} {n : Int} : n ∈ item.ids ↔ item.Means n := by
  cases item with
  | between first last => exact mem_interval
  | _ => exact List.mem_singleton

theorem contains_foldr_add (l : List Int) (ids : JobIds) (n : Int) :
    (l.foldr (fun id ids => SortedSet.add ids id) ids).contains n ↔ n ∈ l ∨ ids.contains n := by
  induction l with
  | nil => simp
  | cons id rest ih => rw [List.foldr_cons, SortedSet.contains_add, ih, List.mem_cons, or_assoc]

theorem contains_ofItems (items : List Item) (n : Int) :
    (ofItems items).contains n ↔ ∃ item ∈ items, n ∈ item.ids := by
  suffices aux : ∀ ids : JobIds,
      ((items.foldl (fun ids item => item.ids.foldr (fun id ids => SortedSet.add ids id) ids) ids).contains n ↔
        ids.contains n ∨ ∃ item ∈ items, n ∈ item.ids) by
    have h := aux ∅
    have hempty : (∅ : JobIds).contains n = false := rfl
    rw [hempty] at h
    simpa [ofItems] using h
  induction items with
  | nil => simp
  | cons item rest ih =>
    intro ids
    rw [List.foldl_cons, ih, contains_foldr_add]
    simp only [List.mem_cons, exists_eq_or_imp]
    tauto

theorem readItems_ok_iff {args : List String} :
    (∃ l, readItems args = .ok l) ↔ ∀ s ∈ items args, ∃ item, Spells s item := by
  simp only [readItems, mapM_ok_iff, items, List.forall_mem_map, readItem_eq_ok_iff]

theorem mem_readItems {args : List String} {l : List Item} (h : readItems args = .ok l) (item : Item) :
    item ∈ l ↔ ∃ s ∈ items args, Spells s item := by
  rw [mem_of_mapM_ok h]
  simp only [items, List.mem_map, exists_exists_and_eq_and, readItem_eq_ok_iff]

theorem isTyped_of_readItems {args : List String} {l : List Item} (h : readItems args = .ok l) :
    ∀ item ∈ l, item.IsTyped := by
  intro item hitem
  obtain ⟨s, -, hspells⟩ := (mem_readItems h item).1 hitem
  exact hspells.isTyped

theorem read_eq_ok_iff {args : List String} {ids : JobIds} :
    read args = .ok ids ↔ ∃ l, readItems args = .ok l ∧ ofItems l = ids := map_eq_ok_iff

/-- A selection holds what the items mean. -/
theorem contains_of_read {args : List String} {ids : JobIds} (h : read args = .ok ids) (n : Int) :
    ids.contains n ↔ ∃ s ∈ items args, ∃ item, Spells s item ∧ item.Means n := by
  obtain ⟨l, hl, rfl⟩ := read_eq_ok_iff.1 h
  simp only [contains_ofItems, mem_readItems hl, mem_ids_iff]
  constructor
  · rintro ⟨item, ⟨s, hs, hspells⟩, hmeans⟩
    exact ⟨s, hs, item, hspells, hmeans⟩
  · rintro ⟨s, hs, item, hspells, hmeans⟩
    exact ⟨item, ⟨s, hs, hspells⟩, hmeans⟩

theorem zero_mem_ids {item : Item} (h : item.IsTyped) : 0 ∈ item.ids ↔ item = .every := by
  cases item with
  | every => simp [Item.ids]
  | newest => simp [Item.ids]
  | one n =>
    have hne : n ≠ 0 := h
    simp [Item.ids, hne.symm]
  | between first last =>
    have hfirst : 0 < first := h.1
    simp only [Item.ids, mem_interval, reduceCtorEq, iff_false]
    omega

/-- What counts is which items there are. -/
theorem read_of_items_iff {args args' : List String} (h : ∀ s, s ∈ items args ↔ s ∈ items args') {ids : JobIds}
    (hread : read args = .ok ids) : read args' = .ok ids := by
  obtain ⟨l, hl, -⟩ := read_eq_ok_iff.1 hread
  have hspelled := readItems_ok_iff.1 ⟨l, hl⟩
  obtain ⟨l', hl'⟩ := readItems_ok_iff.2 fun s hs => hspelled s ((h s).2 hs)
  have hread' : read args' = .ok (ofItems l') := read_eq_ok_iff.2 ⟨l', hl', rfl⟩
  rw [hread', Except.ok.injEq]
  refine SortedSet.eq_of_contains_iff fun n => ?_
  simp only [contains_of_read hread', contains_of_read hread, h]

/-- A comma does not part more than a new argument does. -/
theorem read_of_joined (front back : List String) (a b : String) :
    read (front ++ (a ++ "," ++ b) :: back) = read (front ++ a :: b :: back) := by
  have hpieces : Text.split ',' (a ++ "," ++ b).toList = Text.split ',' a.toList ++ Text.split ',' b.toList := by
    have htext : (a ++ "," ++ b).toList = a.toList ++ ',' :: b.toList := by simp
    rw [htext, Text.split_append]
  rw [read, read, readItems, readItems]
  simp only [List.flatMap_append, List.flatMap_cons, hpieces, List.append_assoc]

/-- Arguments are a selection if each item of them spells something. The selection holds what the items mean: it holds
the number for every job only if an item says so. What counts is which items there are, not how often, in which order
and in which of the arguments. -/
theorem read_eq_union (args : List String) :
    ((∃ ids, read args = .ok ids) ↔ ∀ s ∈ items args, ∃ item, Spells s item) ∧
    (∀ ids, read args = .ok ids →
      (∀ n, ids.contains n ↔ ∃ s ∈ items args, ∃ item, Spells s item ∧ item.Means n) ∧
      (ids.contains 0 ↔ ∃ s ∈ items args, Spells s .every)) ∧
    (∀ args', (∀ s, s ∈ items args' ↔ s ∈ items args) → ∀ ids, read args' = .ok ids ↔ read args = .ok ids) ∧
    ∀ front a b back, args = front ++ a :: b :: back → read (front ++ (a ++ "," ++ b) :: back) = read args := by
  refine ⟨?_, fun ids hread => ⟨contains_of_read hread, ?_⟩, fun args' hsame ids => ?_, ?_⟩
  · rw [← readItems_ok_iff]
    simp only [read_eq_ok_iff]
    exact ⟨fun ⟨_, l, hl, _⟩ => ⟨l, hl⟩, fun ⟨l, hl⟩ => ⟨_, l, hl, rfl⟩⟩
  · rw [contains_of_read hread]
    constructor
    · rintro ⟨s, hs, item, hspells, hzero⟩
      rw [← mem_ids_iff, zero_mem_ids hspells.isTyped] at hzero
      exact ⟨s, hs, hzero ▸ hspells⟩
    · rintro ⟨s, hs, hspells⟩
      exact ⟨s, hs, .every, hspells, rfl⟩
  · exact ⟨read_of_items_iff hsame, read_of_items_iff fun s => (hsame s).symm⟩
  · rintro front a b back rfl
    exact read_of_joined front back a b

/-- Items of each kind, in two arguments and in one. -/
theorem read_of_mixed :
    read ["2-4, +9", "LAST,7-6 "] = .ok (SortedSet.ofList [-1, 2, 3, 4, 9]) ∧
      read ["2-4, +9,LAST,7-6 "] = .ok (SortedSet.ofList [-1, 2, 3, 4, 9]) ∧
      (∃ s ∈ items ["2-4, +9", "LAST,7-6 "], ∃ item, Spells s item ∧ item.Means 3) ∧
      ¬ ∃ s ∈ items ["2-4, +9", "LAST,7-6 "], Spells s .every := by
  have hread : read ["2-4, +9", "LAST,7-6 "] = .ok (SortedSet.ofList [-1, 2, 3, 4, 9]) := by decide +kernel
  obtain ⟨-, hunion, -, hjoined⟩ := read_eq_union ["2-4, +9", "LAST,7-6 "]
  obtain ⟨hcontains, hzero⟩ := hunion _ hread
  refine ⟨hread, ?_, (hcontains 3).1 (by decide), fun h => absurd (hzero.2 h) (by decide)⟩
  rw [← hread]
  exact hjoined [] "2-4, +9" "LAST,7-6 " [] rfl

end Muster.JobIds
