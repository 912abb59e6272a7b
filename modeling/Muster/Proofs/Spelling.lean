import Muster.Job.Sweep
import Muster.Proofs.Cutting
import Muster.Proofs.Numerals

/-!
# Sweeps as they are written

What a text has to be for a sweep: a placeholder, and a walk between braces. Each text is written in one way at most,
although a placeholder may hold braces too and a dash can be a sign as well as a mark. Every other text stands for
itself.
-/

namespace Muster.Sweep

/-- A walk as it is written: its first number, and its last one and its step where they are there. -/
structure Range where
  first : List Char
  last : Option (List Char)
  step : Option (List Char)
  deriving DecidableEq, Repr

/-- What is there stands behind a mark. -/
def marked (mark : Char) : Option (List Char) → List Char
  | some part => mark :: part
  | none => []

@[simp] theorem marked_some (mark : Char) (part : List Char) : marked mark (some part) = mark :: part := rfl

@[simp] theorem marked_none (mark : Char) : marked mark none = [] := rfl

theorem mem_marked {mark c : Char} {part : Option (List Char)} (h : c ∈ marked mark part) :
    c = mark ∨ ∃ s ∈ part, c ∈ s := by
  cases part with
  | none => cases h
  | some s => exact (List.mem_cons.1 h).imp id fun hc => ⟨s, rfl, hc⟩

theorem exists_marked (mark : Char) (s : List Char) : ∃ front part, mark ∉ front ∧ s = front ++ marked mark part := by
  by_cases h : mark ∈ s
  · obtain ⟨front, part, rfl, hfront⟩ := List.eq_append_cons_of_mem h
    exact ⟨front, some part, hfront, rfl⟩
  · exact ⟨s, none, h, by simp⟩

theorem splitOnce?_marked {mark : Char} {front : List Char} (h : mark ∉ front) (part : Option (List Char)) :
    Text.splitOnce? mark (front ++ marked mark part) = part.map (front, ·) := by
  cases part with
  | none => simpa using Text.splitOnce?_eq_none h
  | some part => exact Text.splitOnce?_append h part

theorem marked_inj {mark : Char} {part part' : Option (List Char)} (h : marked mark part = marked mark part') :
    part = part' := by
  cases part <;> cases part' <;> simp_all

namespace Range

def ends (r : Range) : List Char := r.first ++ marked '-' r.last

def text (r : Range) : List Char := r.ends ++ marked ',' r.step

theorem mem_text {r : Range} {c : Char} (h : c ∈ r.text) :
    c ∈ r.first ∨ c = '-' ∨ (∃ s ∈ r.last, c ∈ s) ∨ c = ',' ∨ ∃ s ∈ r.step, c ∈ s := by
  rw [text, ends, List.mem_append, List.mem_append] at h
  rcases h with (h | h) | h
  · exact .inl h
  · rcases mem_marked h with h | h
    · exact .inr (.inl h)
    · exact .inr (.inr (.inl h))
  · exact .inr (.inr (.inr (mem_marked h)))

end Range

/-! ### Digits behind signs -/

/-- A class of digits: all of ASCII, maybe those of other scripts, and no character that has a use of its own. -/
structure IsDigits (digit : Char → Bool) : Prop where
  ascii : ∀ c, c.isDigit → digit c
  mark : ∀ c ∈ ['+', '-', ',', '\x7b', '\x7d'], ¬ digit c

theorem isDigits_ascii : IsDigits Char.isDigit := ⟨fun _ => id, by simp⟩

/-- Digits of a class behind at most one of some signs. -/
inductive Signed (digit : Char → Bool) (signs : List Char) : List Char → Prop
  | plain {digits : List Char} (hne : digits ≠ []) (hdigits : ∀ c ∈ digits, digit c) : Signed digit signs digits
  | sign {c : Char} {digits : List Char} (hsign : c ∈ signs) (hne : digits ≠ []) (hdigits : ∀ c ∈ digits, digit c) :
      Signed digit signs (c :: digits)

section

variable {digit : Char → Bool} {signs s s' rest rest' : List Char}

theorem signed_of_numeral (hd : IsDigits digit) {n : Int} (h : Text.Numeral signs s n) : Signed digit signs s := by
  cases h with
  | plain hne hdigits => exact .plain hne fun c hc => hd.ascii c (hdigits c hc)
  | plus hsign hne hdigits | minus hsign hne hdigits =>
    exact .sign hsign hne fun c hc => hd.ascii c (hdigits c hc)

theorem mem_of_signed_cons (hd : IsDigits digit) {c : Char} (hc : c ∈ ['+', '-']) (h : Signed digit signs (c :: s)) :
    c ∈ signs := by
  cases h with
  | plain hne hdigits => exact absurd (hdigits c List.mem_cons_self) (hd.mark c (by grind))
  | sign hsign hne hdigits => exact hsign

/-- A numeral has only the signs that its text may have. -/
theorem numeral_of_signed (hd : IsDigits digit) (h : Signed digit signs s) {n : Int}
    (hn : Text.Numeral ['+', '-'] s n) : Text.Numeral signs s n := by
  cases hn with
  | plain hne hdigits => exact .plain hne hdigits
  | plus hsign hne hdigits => exact .plus (mem_of_signed_cons hd hsign h) hne hdigits
  | minus hsign hne hdigits => exact .minus (mem_of_signed_cons hd hsign h) hne hdigits

theorem Signed.mem (h : Signed digit signs s) {c : Char} (hc : c ∈ s) : c ∈ signs ∨ digit c := by
  cases h with
  | plain hne hdigits => exact .inr (hdigits c hc)
  | sign hsign hne hdigits =>
    rcases List.mem_cons.1 hc with rfl | hc
    · exact .inl hsign
    · exact .inr (hdigits c hc)

theorem Signed.not_mem (hd : IsDigits digit) (h : Signed digit signs s) {c : Char}
    (hc : c ∈ ['+', '-', ',', '\x7b', '\x7d']) (hsigns : c ∉ signs) : c ∉ s := fun hs =>
  (h.mem hs).elim hsigns (hd.mark c hc)

theorem eq_of_digits_append (h : ∀ c ∈ s, digit c) (h' : ∀ c ∈ s', digit c) (hrest : ∀ c ∈ rest.head?, ¬ digit c)
    (hrest' : ∀ c ∈ rest'.head?, ¬ digit c) (heq : s ++ rest = s' ++ rest') : s = s' ∧ rest = rest' := by
  have htake := Text.takeWhile_append_of_head h hrest
  rw [heq, Text.takeWhile_append_of_head h' hrest'] at htake
  subst htake
  exact ⟨rfl, List.append_cancel_left heq⟩

/-- A number ends where its digits end. -/
theorem Signed.eq_of_append (hd : IsDigits digit) (hsigns : ∀ c ∈ signs, c ∈ ['+', '-']) (h : Signed digit signs s)
    (h' : Signed digit signs s') (hrest : ∀ c ∈ rest.head?, ¬ digit c) (hrest' : ∀ c ∈ rest'.head?, ¬ digit c)
    (heq : s ++ rest = s' ++ rest') : s = s' ∧ rest = rest' := by
  have hno {c : Char} (hc : c ∈ signs) : ¬ digit c := hd.mark c (by grind)
  -- A sign stands before both or before neither, as it is no digit.
  cases h with
  | plain hne hdigits =>
    cases h' with
    | plain hne' hdigits' => exact eq_of_digits_append hdigits hdigits' hrest hrest' heq
    | sign hsign' hne' hdigits' =>
      obtain ⟨c, digits, rfl⟩ := List.exists_cons_of_ne_nil hne
      obtain ⟨rfl, -⟩ := List.cons.inj heq
      exact absurd (hdigits c List.mem_cons_self) (hno hsign')
  | sign hsign hne hdigits =>
    cases h' with
    | plain hne' hdigits' =>
      obtain ⟨c, digits, rfl⟩ := List.exists_cons_of_ne_nil hne'
      obtain ⟨rfl, -⟩ := List.cons.inj heq
      exact absurd (hdigits' _ List.mem_cons_self) (hno hsign)
    | sign hsign' hne' hdigits' =>
      obtain ⟨rfl, htail⟩ := List.cons.inj heq
      obtain ⟨rfl, rfl⟩ := eq_of_digits_append hdigits hdigits' hrest hrest' htail
      exact ⟨rfl, rfl⟩

end

/-! ### Walks between braces -/

/-- The form of a walk: each part is made of digits of a class, behind a sign if there is one. -/
structure Range.IsWritten (digit : Char → Bool) (r : Range) : Prop where
  first : Signed digit ['-'] r.first
  last : ∀ s ∈ r.last, Signed digit ['-'] s
  step : ∀ s ∈ r.step, Signed digit ['+', '-'] s

namespace Range.IsWritten

variable {digit : Char → Bool} {r r' : Range}

theorem comma_not_mem (hd : IsDigits digit) (h : r.IsWritten digit) : ',' ∉ r.ends := by
  rw [Range.ends, List.mem_append, not_or]
  refine ⟨h.first.not_mem hd (by decide) (by decide), fun hc => ?_⟩
  rcases mem_marked hc with hc | ⟨s, hs, hc⟩
  · exact absurd hc (by decide)
  · exact (h.last s hs).not_mem hd (by decide) (by decide) hc

theorem brace_not_mem (hd : IsDigits digit) (h : r.IsWritten digit) : '\x7b' ∉ r.text := by
  intro hc
  rcases Range.mem_text hc with hc | hc | ⟨s, hs, hc⟩ | hc | ⟨s, hs, hc⟩
  · exact h.first.not_mem hd (by decide) (by decide) hc
  · exact absurd hc (by decide)
  · exact (h.last s hs).not_mem hd (by decide) (by decide) hc
  · exact absurd hc (by decide)
  · exact (h.step s hs).not_mem hd (by decide) (by decide) hc

/-- Each part ends with the text, or before a mark, which is no digit. -/
theorem eq_of_text (hd : IsDigits digit) (h : r.IsWritten digit) (h' : r'.IsWritten digit) (heq : r.text = r'.text) :
    r = r' := by
  have hmark {mark : Char} (hm : mark ∈ ['-', ',']) (part : Option (List Char)) {more : List Char}
      (hmore : ∀ c ∈ more.head?, ¬ digit c) : ∀ c ∈ (marked mark part ++ more).head?, ¬ digit c := by
    cases part with
    | none => simpa using hmore
    | some s => simpa using hd.mark mark (by grind)
  have hstep (part : Option (List Char)) : ∀ c ∈ (marked ',' part).head?, ¬ digit c := by
    have hnil : ∀ c ∈ ([] : List Char).head?, ¬ digit c := by simp
    have hend := hmark (by simp : ',' ∈ ['-', ',']) part hnil
    rwa [List.append_nil] at hend
  obtain ⟨first, last, step⟩ := r
  obtain ⟨first', last', step'⟩ := r'
  simp only [Range.text, Range.ends, List.append_assoc] at heq
  obtain ⟨hfirst, hrest⟩ := h.first.eq_of_append hd (by simp) h'.first (hmark (by simp) last (hstep step))
    (hmark (by simp) last' (hstep step')) heq
  cases last with
  | none =>
    cases last' with
    | none => simp_all [marked_inj hrest]
    | some s' => cases step <;> simp at hrest
  | some s =>
    cases last' with
    | none => cases step' <;> simp at hrest
    | some s' =>
      obtain ⟨-, hlast⟩ := List.cons.inj hrest
      obtain ⟨hs, hend⟩ := (h.last s rfl).eq_of_append hd (by simp) (h'.last s' rfl) (hstep step) (hstep step') hlast
      simp_all [marked_inj hend]

end Range.IsWritten

/-- The step of a walk is written, or leads by one from its first number to its last. -/
inductive Steps (first : Int) (last : Option Int) : Option (List Char) → Int → Prop
  | written {s : List Char} {step : Int} (h : Text.Numeral ['+', '-'] s step) : Steps first last (some s) step
  | down {e : Int} (hlast : e ∈ last) (h : e < first) : Steps first last none (-1)
  | up (h : ∀ e ∈ last, first ≤ e) : Steps first last none 1

/-- The numbers of a walk fit into 64 bits. It moves, and not away from its end. -/
structure Walk.Leads (w : Walk) : Prop where
  first : fits64 w.first
  last : ∀ e ∈ w.last, fits64 e
  step : fits64 w.step
  moves : w.step ≠ 0
  ahead : ∀ e ∈ w.last, ¬ (w.first < e ∧ w.step < 0) ∧ ¬ (e < w.first ∧ 0 < w.step)

/-- A walk is the one that is written. -/
structure Range.Denotes (r : Range) (w : Walk) : Prop where
  first : Text.Numeral ['-'] r.first w.first
  last : Option.Rel (Text.Numeral ['-']) r.last w.last
  step : Steps w.first w.last r.step w.step
  leads : w.Leads

theorem Range.Denotes.isWritten {digit : Char → Bool} (hd : IsDigits digit) {r : Range} {w : Walk}
    (h : r.Denotes w) : r.IsWritten digit := by
  refine ⟨signed_of_numeral hd h.first, fun s hs => ?_, fun s hs => ?_⟩
  · have hlast := h.last
    rw [Option.mem_def.1 hs] at hlast
    generalize w.last = e at hlast
    cases hlast with
    | some hnumber => exact signed_of_numeral hd hnumber
  · have hstep := h.step
    rw [Option.mem_def.1 hs] at hstep
    cases hstep with
    | written hnumber => exact signed_of_numeral hd hnumber

/-! ### Reading -/

theorem fits64_iff {n : Int} : fits64 n ↔ Width.least64 ≤ n ∧ n ≤ Width.greatest64 := by
  simp [fits64]

theorem int64?_of_signed {digit : Char → Bool} (hd : IsDigits digit) {signs s : List Char}
    (hsigns : ∀ c ∈ signs, c ∈ ['+', '-']) (h : Signed digit signs s) {n : Int} :
    Text.int64? s = some n ↔ Text.Numeral signs s n ∧ fits64 n := by
  rw [Text.int64?_eq_some_iff, fits64_iff]
  exact and_congr_left fun _ => ⟨numeral_of_signed hd h, fun hn => hn.mono hsigns⟩

theorem takeDigits_eq_some_iff {sign s number rest : List Char} :
    (if (s.takeWhile Char.isDigit).isEmpty then none
      else some (sign ++ s.takeWhile Char.isDigit, s.drop (s.takeWhile Char.isDigit).length)) = some (number, rest) ↔
    ∃ digits, digits ≠ [] ∧ (∀ c ∈ digits, c.isDigit) ∧ number = sign ++ digits ∧ s = digits ++ rest ∧
      ∀ c ∈ rest.head?, ¬ c.isDigit := by
  constructor
  · intro h
    split at h
    · cases h
    · rename_i hne
      cases h
      obtain ⟨hs, hdigits, hrest⟩ := Text.takeWhile_drop_eq_iff.1 ⟨rfl, rfl⟩
      exact ⟨_, by simpa using hne, hdigits, rfl, hs, hrest⟩
  · rintro ⟨digits, hne, hdigits, rfl, hs, hrest⟩
    obtain ⟨htake, hdrop⟩ := Text.takeWhile_drop_eq_iff.2 ⟨hs, hdigits, hrest⟩
    rw [htake, hdrop, if_neg (by simpa using hne)]

/-- A number is taken as far as its digits go. -/
theorem takeNumber?_eq_some_iff {s number rest : List Char} :
    takeNumber? s = some (number, rest) ↔
      s = number ++ rest ∧ Signed Char.isDigit ['-'] number ∧ ∀ c ∈ rest.head?, ¬ c.isDigit := by
  have hdigit : Text.isDigit = Char.isDigit := funext Text.isDigit_eq
  unfold takeNumber?
  simp only [hdigit]
  split
  · simp only [takeDigits_eq_some_iff]
    constructor
    · rintro ⟨digits, hne, hdigits, rfl, rfl, hrest⟩
      exact ⟨rfl, .sign (by simp) hne hdigits, hrest⟩
    · rintro ⟨hs, hnumber, hrest⟩
      cases hnumber with
      | plain hne hdigits =>
        obtain ⟨c, digits, rfl⟩ := List.exists_cons_of_ne_nil hne
        obtain ⟨rfl, -⟩ := List.cons.inj hs
        exact absurd (hdigits '-' List.mem_cons_self) (by decide)
      | sign hsign hne hdigits =>
        cases List.mem_singleton.1 hsign
        exact ⟨_, hne, hdigits, rfl, (List.cons.inj hs).2, hrest⟩
  · rename_i hno
    simp only [takeDigits_eq_some_iff]
    constructor
    · rintro ⟨digits, hne, hdigits, rfl, rfl, hrest⟩
      exact ⟨rfl, .plain hne hdigits, hrest⟩
    · rintro ⟨rfl, hnumber, hrest⟩
      cases hnumber with
      | plain hne hdigits => exact ⟨_, hne, hdigits, rfl, rfl, hrest⟩
      | sign hsign hne hdigits =>
        cases List.mem_singleton.1 hsign
        exact absurd rfl (hno _)

/-- The ends of a walk are the numbers that they are written as. -/
theorem readEnds?_eq_some_iff {s : List Char} {b : Int} {e : Option Int} :
    readEnds? s = some (b, e) ↔ ∃ first last, s = first ++ marked '-' last ∧ Text.Numeral ['-'] first b ∧
      Option.Rel (Text.Numeral ['-']) last e ∧ fits64 b ∧ ∀ n ∈ e, fits64 n := by
  have hread {s : List Char} (h : Signed Char.isDigit ['-'] s) {n : Int} :
      Text.int64? s = some n ↔ Text.Numeral ['-'] s n ∧ fits64 n := int64?_of_signed isDigits_ascii (by simp) h
  have htake {s number rest : List Char} {n : Int} (h : Text.Numeral ['-'] number n)
      (hrest : ∀ c ∈ rest.head?, ¬ c.isDigit) (hs : s = number ++ rest) : takeNumber? s = some (number, rest) :=
    takeNumber?_eq_some_iff.2 ⟨hs, signed_of_numeral isDigits_ascii h, hrest⟩
  constructor
  · intro h
    unfold readEnds? at h
    obtain ⟨⟨first, rest⟩, hfirst, h⟩ := Option.bind_eq_some_iff.1 h
    obtain ⟨n, hn, h⟩ := Option.bind_eq_some_iff.1 h
    obtain ⟨hs, hsigned, -⟩ := takeNumber?_eq_some_iff.1 hfirst
    obtain ⟨hnumber, hfits⟩ := (hread hsigned).1 hn
    simp only at h
    split at h
    · cases h
      exact ⟨first, none, hs, hnumber, .none, hfits, by simp⟩
    · obtain ⟨⟨last, rest⟩, hlast, h⟩ := Option.bind_eq_some_iff.1 h
      obtain ⟨htail, hsigned', -⟩ := takeNumber?_eq_some_iff.1 hlast
      simp only at h
      split at h
      · cases h
      · rename_i hempty
        obtain ⟨m, hm, h⟩ := Option.bind_eq_some_iff.1 h
        cases h
        obtain ⟨hnumber', hfits'⟩ := (hread hsigned').1 hm
        have hend : rest = [] := by simpa using hempty
        have htext : s = first ++ marked '-' (some last) := by rw [hs, htail, hend, List.append_nil, marked_some]
        exact ⟨first, some last, htext, hnumber, .some hnumber', hfits, by simpa using hfits'⟩
    · cases h
  · rintro ⟨first, last, rfl, hfirst, hlast, hb, he⟩
    have hn := (hread (signed_of_numeral isDigits_ascii hfirst)).2 ⟨hfirst, hb⟩
    cases hlast with
    | none =>
      have htaken : takeNumber? (first ++ marked '-' none) = some (first, []) := htake hfirst (by simp) rfl
      rw [readEnds?, htaken]
      simp [hn]
    | @some last e hlast =>
      have htaken : takeNumber? (first ++ marked '-' (some last)) = some (first, '-' :: last) :=
        htake hfirst (by simp) rfl
      have htaken' : takeNumber? last = some (last, []) := htake hlast (by simp) (by simp)
      have hm := (hread (signed_of_numeral isDigits_ascii hlast)).2 ⟨hlast, he e rfl⟩
      rw [readEnds?, htaken]
      simp [hn, htaken', hm]

theorem Walk.isSound_iff {w : Walk} :
    w.isSound ↔ w.step ≠ 0 ∧ ∀ e ∈ w.last, ¬ (w.first < e ∧ w.step < 0) ∧ ¬ (e < w.first ∧ 0 < w.step) := by
  obtain ⟨first, last, step⟩ := w
  cases last with
  | none => simp [isSound]
  | some e => simp [isSound, -not_and, not_and_or]

theorem Walk.Leads.isSound {w : Walk} (h : w.Leads) : w.isSound := Walk.isSound_iff.2 ⟨h.moves, h.ahead⟩

theorem steps_default (first : Int) (last : Option Int) : Steps first last none (defaultStep first last) := by
  cases last with
  | none => exact .up (by simp)
  | some e =>
    rw [defaultStep]
    split
    · exact .down rfl (by assumption)
    · exact .up (by simpa using Int.not_lt.1 (by assumption))

/-- A step that is left out is as good as written. -/
theorem steps_none_iff {first step : Int} {last : Option Int} :
    Steps first last none step ↔ step = defaultStep first last := by
  constructor
  · intro h
    cases h with
    | down hlast h =>
      cases hlast
      exact (if_pos h).symm
    | up h =>
      cases last with
      | none => rfl
      | some e => exact (if_neg (Int.not_lt.2 (h e rfl))).symm
  · rintro rfl
    exact steps_default first last

theorem fits64_defaultStep (first : Int) (last : Option Int) : fits64 (defaultStep first last) := by
  cases last with
  | none => exact (by decide : fits64 1)
  | some e =>
    rw [defaultStep]
    split <;> decide

/-- The step that is written or, if none is, the one that leads from the first number to the last. -/
def readStep? (first : Int) (last : Option Int) : Option (List Char) → Option Int
  | some step => Text.int64? step
  | none => some (defaultStep first last)

theorem readStep?_eq_some_iff {first step : Int} {last : Option Int} {s : Option (List Char)} :
    readStep? first last s = some step ↔ Steps first last s step ∧ fits64 step := by
  cases s with
  | some s =>
    rw [readStep?, Text.int64?_eq_some_iff, fits64_iff]
    refine and_congr_left fun _ => ⟨.written, fun h => ?_⟩
    cases h with
    | written h => exact h
  | none =>
    rw [readStep?, Option.some.injEq, steps_none_iff]
    constructor
    · rintro rfl
      exact ⟨rfl, fits64_defaultStep first last⟩
    · exact fun h => h.1.symm

/-- The walk from a first number, to the last one if there is one. -/
def walkWith? (first : Int) (last : Option Int) (step : Option (List Char)) : Option Walk :=
  (readStep? first last step).bind fun step =>
    if Walk.isSound ⟨first, last, step⟩ then some ⟨first, last, step⟩ else none

theorem walkWith?_eq_some_iff {first : Int} {last : Option Int} {step : Option (List Char)} {w : Walk} :
    walkWith? first last step = some w ↔
      (first = w.first ∧ last = w.last) ∧ Steps w.first w.last step w.step ∧ fits64 w.step ∧ w.isSound := by
  constructor
  · intro h
    obtain ⟨number, hnumber, h⟩ := Option.bind_eq_some_iff.1 h
    obtain ⟨hstep, hfits⟩ := readStep?_eq_some_iff.1 hnumber
    split at h
    · rename_i hsound
      cases h
      exact ⟨⟨rfl, rfl⟩, hstep, hfits, hsound⟩
    · cases h
  · rintro ⟨⟨rfl, rfl⟩, hstep, hfits, hsound⟩
    exact Option.bind_eq_some_iff.2 ⟨w.step, readStep?_eq_some_iff.2 ⟨hstep, hfits⟩, if_pos hsound⟩

theorem readWalk?_marked {ends : List Char} (h : ',' ∉ ends) (step : Option (List Char)) :
    readWalk? (ends ++ marked ',' step) = (readEnds? ends).bind fun ends => walkWith? ends.1 ends.2 step := by
  rw [readWalk?, splitOnce?_marked h]
  cases step with
  | none =>
    rw [marked_none, List.append_nil]
    rfl
  | some step => rfl

/-- What is read between the braces is what is written there. -/
theorem readWalk?_eq_some_iff {s : List Char} {w : Walk} :
    readWalk? s = some w ↔ ∃ r : Range, s = r.text ∧ r.Denotes w := by
  constructor
  · intro h
    obtain ⟨ends, step, hcomma, rfl⟩ := exists_marked ',' s
    rw [readWalk?_marked hcomma] at h
    obtain ⟨⟨b, e⟩, hends, hwalk⟩ := Option.bind_eq_some_iff.1 h
    obtain ⟨⟨rfl, rfl⟩, hstep, hfits, hsound⟩ := walkWith?_eq_some_iff.1 hwalk
    obtain ⟨first, last, rfl, hfirst, hlast, hfits', hfits''⟩ := readEnds?_eq_some_iff.1 hends
    obtain ⟨hmoves, hahead⟩ := Walk.isSound_iff.1 hsound
    exact ⟨⟨first, last, step⟩, rfl, hfirst, hlast, hstep, hfits', hfits'', hfits, hmoves, hahead⟩
  · rintro ⟨r, rfl, hr⟩
    have hends : readEnds? r.ends = some (w.first, w.last) :=
      readEnds?_eq_some_iff.2 ⟨r.first, r.last, rfl, hr.first, hr.last, hr.leads.first, hr.leads.last⟩
    have hcomma := (hr.isWritten isDigits_ascii).comma_not_mem isDigits_ascii
    rw [Range.text, readWalk?_marked hcomma, hends, Option.bind_some]
    exact walkWith?_eq_some_iff.2 ⟨⟨rfl, rfl⟩, hr.step, hr.leads.step, hr.leads.isSound⟩

theorem parts?_eq_some_iff {s placeholder body : List Char} :
    parts? s = some (placeholder, body) ↔
      s = placeholder ++ '\x7b' :: (body ++ ['\x7d']) ∧ placeholder ≠ [] ∧ '\n' ∉ placeholder ∧ '\x7b' ∉ body := by
  constructor
  · intro h
    unfold parts? at h
    split at h
    · rename_i rest hrest
      obtain ⟨⟨back, front⟩, hsplit, h⟩ := Option.bind_eq_some_iff.1 h
      obtain ⟨hcut, hbrace⟩ := Text.splitOnce?_eq_some_iff.1 hsplit
      simp only at h
      split at h
      · cases h
      · rename_i hclean
        cases h
        have hs : s = ('\x7d' :: (back ++ '\x7b' :: front)).reverse := by rw [← hcut, ← hrest, List.reverse_reverse]
        simp only [Bool.or_eq_true, not_or] at hclean
        exact ⟨by simpa using hs, by simpa using hclean.1, by simpa using hclean.2, by simpa using hbrace⟩
    · cases h
  · rintro ⟨rfl, hne, hline, hbrace⟩
    have hrev : (placeholder ++ '\x7b' :: (body ++ ['\x7d'])).reverse =
        '\x7d' :: (body.reverse ++ '\x7b' :: placeholder.reverse) := by simp
    have hsplit : Text.splitOnce? '\x7b' (body.reverse ++ '\x7b' :: placeholder.reverse) =
        some (body.reverse, placeholder.reverse) := Text.splitOnce?_append (by simpa using hbrace) _
    rw [parts?, hrev]
    simp [hsplit, hne, hline]

/-! ### Sweeps -/

/-- A placeholder on one line, and a walk between braces behind it. -/
structure Frames (s placeholder : List Char) (r : Range) : Prop where
  text : s = placeholder ++ '\x7b' :: (r.text ++ ['\x7d'])
  named : placeholder ≠ []
  line : '\n' ∉ placeholder

/-- The sweep that a text spells. -/
structure Spells (s placeholder : List Char) (r : Range) (w : Walk) : Prop extends Frames s placeholder r where
  walk : r.Denotes w

theorem read?_eq_some_iff {s placeholder : List Char} {w : Walk} :
    read? s = some (placeholder, w) ↔ ∃ r, Spells s placeholder r w := by
  constructor
  · intro h
    obtain ⟨⟨front, body⟩, hparts, h⟩ := Option.bind_eq_some_iff.1 h
    obtain ⟨walk, hwalk, h⟩ := Option.bind_eq_some_iff.1 h
    cases h
    obtain ⟨hs, hne, hline, -⟩ := parts?_eq_some_iff.1 hparts
    obtain ⟨r, rfl, hr⟩ := readWalk?_eq_some_iff.1 hwalk
    exact ⟨r, ⟨hs, hne, hline⟩, hr⟩
  · rintro ⟨r, ⟨hs, hne, hline⟩, hr⟩
    have hbrace := (hr.isWritten isDigits_ascii).brace_not_mem isDigits_ascii
    have hparts : parts? s = some (placeholder, r.text) := parts?_eq_some_iff.2 ⟨hs, hne, hline, hbrace⟩
    have hwalk : readWalk? r.text = some w := readWalk?_eq_some_iff.2 ⟨r, rfl, hr⟩
    simp [read?, hparts, hwalk]

section

variable {digit : Char → Bool} {s placeholder placeholder' : List Char} {r r' : Range}

/-- The last brace that is opened tells the placeholder from the walk. -/
theorem Frames.unique (hd : IsDigits digit) (h : Frames s placeholder r) (hr : r.IsWritten digit)
    (h' : Frames s placeholder' r') (hr' : r'.IsWritten digit) : placeholder = placeholder' ∧ r = r' := by
  have hbrace {r : Range} (hr : r.IsWritten digit) : '\x7b' ∉ r.text ++ ['\x7d'] := by
    simpa using hr.brace_not_mem hd
  obtain ⟨hfront, hback⟩ := Text.eq_of_append_sep (hbrace hr) (hbrace hr') (h.text.symm.trans h'.text)
  exact ⟨hfront, hr.eq_of_text hd hr' (List.append_cancel_right hback)⟩

def readLast? : Option (List Char) → Option (Option Int)
  | some last => (Text.int64? last).map some
  | none => some none

theorem readLast?_eq_some_iff (hd : IsDigits digit) (hr : r.IsWritten digit) {e : Option Int} :
    readLast? r.last = some e ↔ Option.Rel (Text.Numeral ['-']) r.last e ∧ ∀ n ∈ e, fits64 n := by
  cases hlast : r.last with
  | none =>
    constructor
    · intro h
      cases h
      exact ⟨.none, by simp⟩
    · rintro ⟨h, -⟩
      cases h
      rfl
  | some last =>
    have hread {n : Int} := int64?_of_signed (n := n) hd (by simp) (hr.last last hlast)
    constructor
    · intro h
      obtain ⟨n, hn, rfl⟩ := Option.map_eq_some_iff.1 h
      obtain ⟨hnumber, hfits⟩ := hread.1 hn
      exact ⟨.some hnumber, by simpa using hfits⟩
    · rintro ⟨h, hfits⟩
      cases h with
      | some h => exact Option.map_eq_some_iff.2 ⟨_, hread.2 ⟨h, hfits _ rfl⟩, rfl⟩

/-- The walk of the parts that were found, if each can be read. -/
def Range.walk? (r : Range) : Option Walk := do
  let first ← Text.int64? r.first
  let last ← readLast? r.last
  walkWith? first last r.step

theorem Range.walk?_eq_some_iff (hd : IsDigits digit) (hr : r.IsWritten digit) {w : Walk} :
    r.walk? = some w ↔ r.Denotes w := by
  have hread {n : Int} := int64?_of_signed (n := n) hd (by simp) hr.first
  constructor
  · intro h
    obtain ⟨b, hb, h⟩ := Option.bind_eq_some_iff.1 h
    obtain ⟨e, he, h⟩ := Option.bind_eq_some_iff.1 h
    obtain ⟨⟨rfl, rfl⟩, hstep, hfits, hsound⟩ := walkWith?_eq_some_iff.1 h
    obtain ⟨hfirst, hfits'⟩ := hread.1 hb
    obtain ⟨hend, hfits''⟩ := (readLast?_eq_some_iff hd hr).1 he
    obtain ⟨hmoves, hahead⟩ := Walk.isSound_iff.1 hsound
    exact ⟨hfirst, hend, hstep, hfits', hfits'', hfits, hmoves, hahead⟩
  · intro h
    refine Option.bind_eq_some_iff.2 ⟨w.first, hread.2 ⟨h.first, h.leads.first⟩, ?_⟩
    refine Option.bind_eq_some_iff.2 ⟨w.last, (readLast?_eq_some_iff hd hr).2 ⟨h.last, h.leads.last⟩, ?_⟩
    exact walkWith?_eq_some_iff.2 ⟨⟨rfl, rfl⟩, h.step, h.leads.step, h.leads.isSound⟩

/-- It is the same to find the parts of a sweep by their form, with digits of any script, and to read them then. -/
theorem read?_of_frames (hd : IsDigits digit) (h : Frames s placeholder r) (hr : r.IsWritten digit) :
    read? s = r.walk?.map (placeholder, ·) := by
  ext ⟨front, w⟩
  rw [read?_eq_some_iff, Option.map_eq_some_iff]
  constructor
  · rintro ⟨r', hframes, hwalk⟩
    obtain ⟨rfl, rfl⟩ := h.unique hd hr hframes (hwalk.isWritten hd)
    exact ⟨w, (Range.walk?_eq_some_iff hd hr).2 hwalk, rfl⟩
  · rintro ⟨w', hwalk, heq⟩
    cases heq
    exact ⟨r, h, (Range.walk?_eq_some_iff hd hr).1 hwalk⟩

theorem read?_of_unframed (hd : IsDigits digit) (h : ∀ placeholder r, Frames s placeholder r → ¬ r.IsWritten digit) :
    read? s = none := by
  cases hread : read? s with
  | none => rfl
  | some sweep =>
    obtain ⟨r, hframes, hwalk⟩ := read?_eq_some_iff.1 hread
    exact absurd (hwalk.isWritten hd) (h sweep.1 r hframes)

end

theorem parse_eq_elim (text : String) (count : Nat) : parse text count =
    (read? text.toList).elim ⟨text, none⟩ fun sweep => ⟨String.ofList sweep.1, some (sweep.2.values count)⟩ := by
  unfold parse
  cases read? text.toList <;> rfl

/-- A text spells a sweep, and only one, whose placeholder and walk are the ones it is read as. Or it spells none, and
stands for itself. So it does as well to find the parts by their form first, with digits of any script, and to read
them then: what has the form is read as its walk, if it has one, and else stands for itself, and so does what has not
the form. -/
theorem parse_of_spelling (text : String) (count : Nat) :
    ((∃ placeholder r w, Spells text.toList placeholder r w ∧
        (∀ placeholder' r' w', Spells text.toList placeholder' r' w' → placeholder' = placeholder ∧ r' = r ∧ w' = w) ∧
        parse text count = ⟨String.ofList placeholder, some (w.values count)⟩) ∨
      (¬ ∃ placeholder r w, Spells text.toList placeholder r w) ∧ parse text count = ⟨text, none⟩) ∧
      ∀ digit, IsDigits digit →
        (∀ placeholder r, Frames text.toList placeholder r → r.IsWritten digit → parse text count =
          r.walk?.elim ⟨text, none⟩ fun w => ⟨String.ofList placeholder, some (w.values count)⟩) ∧
        ((∀ placeholder r, Frames text.toList placeholder r → ¬ r.IsWritten digit) →
          parse text count = ⟨text, none⟩) := by
  constructor
  · cases hread : read? text.toList with
    | none =>
      refine .inr ⟨?_, by rw [parse_eq_elim, hread, Option.elim_none]⟩
      rintro ⟨placeholder, r, w, hspells⟩
      rw [read?_eq_some_iff.2 ⟨r, hspells⟩] at hread
      cases hread
    | some sweep =>
      obtain ⟨placeholder, w⟩ := sweep
      obtain ⟨r, hspells⟩ := read?_eq_some_iff.1 hread
      refine .inl ⟨placeholder, r, w, hspells, fun placeholder' r' w' hspells' => ?_,
        by rw [parse_eq_elim, hread, Option.elim_some]⟩
      have hsame := read?_eq_some_iff.2 ⟨r', hspells'⟩
      rw [hread] at hsame
      cases hsame
      have hd := isDigits_ascii
      exact ⟨rfl, (hspells'.toFrames.unique hd (hspells'.walk.isWritten hd) hspells.toFrames
        (hspells.walk.isWritten hd)).2, rfl⟩
  · intro digit hd
    refine ⟨fun placeholder r hframes hwritten => ?_, fun hunframed => ?_⟩
    · rw [parse_eq_elim, read?_of_frames hd hframes hwritten]
      cases r.walk? <;> rfl
    · rw [parse_eq_elim, read?_of_unframed hd hunframed, Option.elim_none]

/-- A placeholder may hold braces, and a dash may be a sign. -/
example : parse "x\x7b1\x7d\x7b-5--1,+2\x7d" 4 = ⟨"x\x7b1\x7d", some [-5, -3, -1, -5]⟩ := by decide +kernel

end Muster.Sweep
