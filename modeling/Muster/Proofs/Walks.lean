import Muster.Proofs.Spelling

/-!
# Walks

The numbers of a sweep come in equal steps, and again and again: from the first one on as far as the end of the walk
or, without an end, as far as 64 bits go.
-/

namespace Muster.Sweep

namespace Walk

/-- The number after so many steps. -/
def term (w : Walk) (n : Nat) : Int := w.first + n * w.step

/-- Where a walk turns back: its end or, without one, the end of the numbers that it goes towards. -/
def limit (w : Walk) : Int := w.last.getD (if 0 < w.step then Width.greatest64 else Width.least64)

/-- How many numbers there are up to the limit. -/
def period (w : Walk) : Nat := (w.limit - w.first).natAbs / w.step.natAbs + 1

variable {w : Walk}

@[simp] theorem term_zero (w : Walk) : w.term 0 = w.first := by
  simp [term]

theorem term_succ (w : Walk) (n : Nat) : w.term (n + 1) = w.term n + w.step := by
  rw [term, term, Int.natCast_succ, Int.add_mul, Int.one_mul, Int.add_assoc]

/-! ### Up to the limit -/

theorem lt_period_iff (h : w.Leads) {n : Nat} : n < w.period ↔ n * w.step.natAbs ≤ (w.limit - w.first).natAbs := by
  rw [period, Nat.lt_succ_iff, Nat.le_div_iff_mul_le (Int.natAbs_pos.2 h.moves)]

/-- The limit lies where the walk leads. -/
theorem first_le_limit (h : w.Leads) (hstep : 0 < w.step) : w.first ≤ w.limit := by
  have hfirst := fits64_iff.1 h.first
  unfold limit
  cases hlast : w.last with
  | none => simpa [hstep] using hfirst.2
  | some e =>
    have hahead := h.ahead e hlast
    simp only [Option.getD_some]
    omega

theorem limit_le_first (h : w.Leads) (hstep : w.step < 0) : w.limit ≤ w.first := by
  have hfirst := fits64_iff.1 h.first
  unfold limit
  cases hlast : w.last with
  | none => simpa [Int.not_lt.2 (Int.le_of_lt hstep)] using hfirst.1
  | some e =>
    have hahead := h.ahead e hlast
    simp only [Option.getD_some]
    omega

theorem lt_period_iff_of_pos (h : w.Leads) (hstep : 0 < w.step) {n : Nat} : n < w.period ↔ w.term n ≤ w.limit := by
  have hlimit := first_le_limit h hstep
  have hsteps : ((n * w.step.natAbs : Nat) : Int) = n * w.step := by
    rw [Int.natCast_mul, Int.natAbs_of_nonneg (Int.le_of_lt hstep)]
  rw [lt_period_iff h, term]
  omega

theorem lt_period_iff_of_neg (h : w.Leads) (hstep : w.step < 0) {n : Nat} : n < w.period ↔ w.limit ≤ w.term n := by
  have hlimit := limit_le_first h hstep
  have hsteps : ((n * w.step.natAbs : Nat) : Int) = -(n * w.step) := by
    rw [Int.natCast_mul, Int.ofNat_natAbs_of_nonpos (Int.le_of_lt hstep), Int.mul_neg]
  rw [lt_period_iff h, term]
  omega

theorem first_le_term (hstep : 0 < w.step) (n : Nat) : w.first ≤ w.term n := by
  have hsteps : 0 ≤ n * w.step := Int.mul_nonneg (Int.natCast_nonneg n) (Int.le_of_lt hstep)
  rw [term]
  omega

theorem term_le_first (hstep : w.step < 0) (n : Nat) : w.term n ≤ w.first := by
  have hsteps : n * w.step ≤ 0 := Int.mul_nonpos_of_nonneg_of_nonpos (Int.natCast_nonneg n) (Int.le_of_lt hstep)
  rw [term]
  omega

/-- The numbers up to the limit are the ones that fit and are not past the end. -/
theorem lt_period_iff_stays (h : w.Leads) (n : Nat) :
    n < w.period ↔ fits64 (w.term n) ∧ ¬ w.passes (w.term n) := by
  have hfirst := fits64_iff.1 h.first
  rw [fits64_iff]
  rcases Int.lt_or_lt_of_ne h.moves with hstep | hstep
  · have hup := term_le_first hstep n
    have hno : ¬ 0 < w.step := Int.not_lt.2 (Int.le_of_lt hstep)
    rw [lt_period_iff_of_neg h hstep, limit, passes]
    cases hlast : w.last with
    | none => simp [hno]; omega
    | some e =>
      have hlast := fits64_iff.1 (h.last e hlast)
      simp [hno]; omega
  · have hdown := first_le_term hstep n
    rw [lt_period_iff_of_pos h hstep, limit, passes]
    cases hlast : w.last with
    | none => simp [hstep]; omega
    | some e =>
      have hlast := fits64_iff.1 (h.last e hlast)
      simp [hstep]; omega

/-! ### Around and around -/

theorem period_pos (w : Walk) : 0 < w.period := Nat.succ_pos _

theorem next_term (h : w.Leads) (n : Nat) : w.next (w.term (n % w.period)) = w.term ((n + 1) % w.period) := by
  have hlt := Nat.mod_lt n w.period_pos
  have hgoes : (fits64 (w.term (n % w.period + 1)) && !w.passes (w.term (n % w.period + 1))) = true ↔
      n % w.period + 1 < w.period := by
    simpa using (lt_period_iff_stays h _).symm
  rw [next, ← term_succ, ← Nat.mod_add_mod]
  split
  · rename_i hstays
    rw [Nat.mod_eq_of_lt (hgoes.1 hstays)]
  · rename_i hstops
    have hend : n % w.period + 1 = w.period := by
      rw [hgoes] at hstops
      omega
    rw [hend, Nat.mod_self, term_zero]

/-- The walk keeps its place by how many steps there were since the last return. -/
theorem from_term (h : w.Leads) (n count : Nat) :
    w.from (w.term (n % w.period)) count = (List.range count).map fun i => w.term ((n + i) % w.period) := by
  induction count generalizing n with
  | zero => rfl
  | succ count ih =>
    rw [Walk.from, next_term h, ih, List.range_succ_eq_map, List.map_cons, List.map_map]
    refine congrArg _ (List.map_congr_left fun i _ => ?_)
    rw [Function.comp_apply, Nat.add_right_comm, Nat.add_assoc]

theorem values_eq (h : w.Leads) (count : Nat) :
    w.values count = (List.range count).map fun i => w.term (i % w.period) := by
  have hwalk := from_term h 0 count
  simpa [Walk.values] using hwalk

/-- The numbers of a walk lie between its first number and its limit. -/
theorem term_between (h : w.Leads) {n : Nat} (hn : n < w.period) :
    min w.first w.limit ≤ w.term n ∧ w.term n ≤ max w.first w.limit := by
  rcases Int.lt_or_lt_of_ne h.moves with hstep | hstep
  · have hlimit := (lt_period_iff_of_neg h hstep).1 hn
    have hfirst := term_le_first hstep n
    omega
  · have hlimit := (lt_period_iff_of_pos h hstep).1 hn
    have hfirst := first_le_term hstep n
    omega

end Walk

/-- A sweep has a number for each node. They are those of its walk up to the end or, without an end, those that fit
into 64 bits, and then the same ones again. -/
theorem parse_of_walk {text : String} {placeholder : List Char} {w : Walk}
    (h : read? text.toList = some (placeholder, w)) :
    ∃ k, (∀ e, w.last = some e → k = (e - w.first).natAbs / w.step.natAbs + 1) ∧
      (w.last = none → ∀ n : Nat, n < k ↔ fits64 (w.first + n * w.step)) ∧
      ∀ count, ∃ values, parse text count = ⟨String.ofList placeholder, some values⟩ ∧
        values = (List.range count).map (fun i => w.first + (i % k : Nat) * w.step) ∧
        ∀ v ∈ values, fits64 v ∧ ∀ e, w.last = some e → min w.first e ≤ v ∧ v ≤ max w.first e := by
  obtain ⟨r, hspells⟩ := read?_eq_some_iff.1 h
  have hleads := hspells.walk.leads
  refine ⟨w.period, fun e he => ?_, fun hopen n => ?_, fun count => ⟨w.values count, by simp [parse, h], ?_, ?_⟩⟩
  · rw [Walk.period, Walk.limit, he, Option.getD_some]
  · have hpasses : w.passes (w.term n) = false := by rw [Walk.passes, hopen]
    have hstays := Walk.lt_period_iff_stays hleads n
    rw [hpasses] at hstays
    simpa [Walk.term] using hstays
  · exact Walk.values_eq hleads count
  · intro v hv
    rw [Walk.values_eq hleads] at hv
    obtain ⟨i, -, rfl⟩ := List.mem_map.1 hv
    have hlt := Nat.mod_lt i w.period_pos
    refine ⟨((Walk.lt_period_iff_stays hleads _).1 hlt).1, fun e he => ?_⟩
    have hbetween := Walk.term_between hleads hlt
    rwa [Walk.limit, he, Option.getD_some] at hbetween

/-- A walk over all numbers of 64 bits, with the longest step upwards, and one that has no room for a second step. -/
theorem parse_of_walk_longest :
    parse "x\x7b-9223372036854775808-9223372036854775807,9223372036854775807\x7d" 4 =
      ⟨"x", some [-9223372036854775808, -1, 9223372036854775806, -9223372036854775808]⟩ ∧
    parse "x\x7b0,-9223372036854775808\x7d" 3 = ⟨"x", some [0, -9223372036854775808, 0]⟩ := by
  constructor
  · have hread : read? "x\x7b-9223372036854775808-9223372036854775807,9223372036854775807\x7d".toList =
        some (['x'], ⟨-9223372036854775808, some 9223372036854775807, 9223372036854775807⟩) := by decide +kernel
    obtain ⟨k, hk, -, hvalues⟩ := parse_of_walk hread
    obtain ⟨values, hparse, rfl, -⟩ := hvalues 4
    have hperiod : k = 3 := (hk _ rfl).trans (by decide)
    rw [hparse, hperiod]
    decide
  · have hread : read? "x\x7b0,-9223372036854775808\x7d".toList = some (['x'], ⟨0, none, -9223372036854775808⟩) := by
      decide +kernel
    obtain ⟨k, -, hopen, hvalues⟩ := parse_of_walk hread
    obtain ⟨values, hparse, rfl, -⟩ := hvalues 3
    have hone : 1 < k := (hopen rfl 1).2 (by decide)
    have htwo : ¬ 2 < k := fun h => absurd ((hopen rfl 2).1 h) (by decide)
    have hperiod : k = 2 := by omega
    rw [hparse, hperiod]
    decide

end Muster.Sweep
