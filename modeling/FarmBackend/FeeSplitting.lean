import Mathlib.Algebra.Order.BigOperators.Group.List
import FarmBackend.Fees

/-!
# Fees on the parts of an amount

The fee of every part is rounded, so the parts of an amount pay up to half a cent each more or less
than the amount does. `EPSILON` is added before the rounding: it can lift a fee that is a little less
than half a cent, once for every part.
-/

namespace FarmBackend.Fees
open Decimal

set_option autoImplicit false

def FeeRule.PercentOnly (rule : FeeRule) : Prop := rule.flat = 0 ∧ rule.min = 0 ∧ rule.max = 0

/-- `percent` has at most eleven decimals. -/
def FeeRule.Plain (rule : FeeRule) : Prop := ∃ m : ℤ, rule.percent * 10 ^ 11 = m

/-- The fees on the parts. -/
def splitFee (rule : FeeRule) (cents : List ℤ) : ℚ :=
  (cents.map fun c => computeFee rule (value 2 c) 2).sum

/-- By how much the fees on the parts miss the fee on the whole amount. -/
def splitError (rule : FeeRule) (cents : List ℤ) : ℚ :=
  |splitFee rule cents - computeFee rule (value 2 cents.sum) 2|

/-! ### Cents -/

section Cents
variable {rule : FeeRule} {cents : List ℤ} {c : ℤ}

/-- What a rule takes of `c` cents, in cents. -/
def share (rule : FeeRule) (c : ℤ) : ℚ := c * rule.percent / 100

/-- `EPSILON` in cents. -/
def lift : ℚ := EPSILON * 100

theorem rawFee_percentOnly (h : rule.PercentOnly) (amount : ℚ) :
    rawFee rule amount = amount * rule.percent / 100 := by
  obtain ⟨hFlat, hMin, hMax⟩ := h
  simp [rawFee, hFlat, hMin, hMax]

theorem feeUnits_percentOnly (h : rule.PercentOnly) (hPercent : 0 ≤ rule.percent) (hPos : 0 ≤ c) :
    feeUnits rule (value 2 c) 2 = mathRound (share rule c + lift) := by
  have hScaled : (rawFee rule (value 2 c) + EPSILON) * 10 ^ 2 = share rule c + lift := by
    rw [rawFee_percentOnly h, value, share, lift]
    ring
  have hCents : (0 : ℚ) ≤ c := by exact_mod_cast hPos
  have hLift : 0 < lift ∧ lift < 1 / 2 := by norm_num [lift, EPSILON]
  unfold feeUnits
  split
  · rename_i hZero
    rw [← value_zero 2, value_le_value] at hZero
    obtain rfl : c = 0 := le_antisymm hZero hPos
    have hNone : share rule 0 = 0 := by simp [share]
    rw [hNone, zero_add, mathRound, eq_comm, Int.floor_eq_zero_iff]
    constructor <;> linarith
  · rw [hScaled]
    refine max_eq_right ?_
    have hShare : 0 ≤ share rule c := by unfold share; positivity
    exact Int.floor_nonneg.mpr (by linarith)

/-- Nobody pays a negative fee. -/
theorem computeFee_of_neg (h : rule.PercentOnly) (hPercent : rule.percent < 0) (amount : ℚ) :
    computeFee rule amount 2 = 0 := by
  unfold computeFee
  split
  · rfl
  · rename_i hAmount
    have hNeg : amount * rule.percent < 0 := mul_neg_of_pos_of_neg (not_le.mp hAmount) hPercent
    have hRound : mathRound ((rawFee rule amount + EPSILON) * 10 ^ 2) ≤ 0 := by
      rw [mathRound, ← Int.lt_add_one_iff, zero_add, Int.floor_lt, rawFee_percentOnly h]
      norm_num [EPSILON]
      linarith
    have hCast : (mathRound ((rawFee rule amount + EPSILON) * 10 ^ 2) : ℚ) ≤ 0 := by
      exact_mod_cast hRound
    exact max_eq_left (div_nonpos_of_nonpos_of_nonneg hCast (by positivity))

theorem sum_shares (rule : FeeRule) (cents : List ℤ) :
    (cents.map (share rule)).sum = share rule cents.sum := by
  induction cents with
  | nil => simp [share]
  | cons c cents ih =>
    rw [List.map_cons, List.sum_cons, List.sum_cons, ih]
    unfold share
    push_cast
    ring

theorem sum_lifted (rule : FeeRule) (cents : List ℤ) :
    (cents.map fun c => share rule c + lift).sum = share rule cents.sum + cents.length * lift := by
  rw [← sum_shares, List.sum_map_add, List.map_const', List.sum_replicate, nsmul_eq_mul]

/-- The fees on the parts less the fee on the whole amount, in cents. -/
def splitCents (rule : FeeRule) (cents : List ℤ) : ℤ :=
  (cents.map fun c => mathRound (share rule c + lift)).sum - mathRound (share rule cents.sum + lift)

theorem sum_nonneg_of_pos (hPos : ∀ c ∈ cents, 0 < c) : 0 ≤ cents.sum :=
  List.sum_nonneg fun c hMem => (hPos c hMem).le

theorem splitFee_eq_value (rule : FeeRule) (cents : List ℤ) :
    splitFee rule cents = value 2 (cents.map fun c => feeUnits rule (value 2 c) 2).sum := by
  unfold splitFee
  induction cents with
  | nil => simp
  | cons c cents ih =>
    rw [List.map_cons, List.sum_cons, List.map_cons, List.sum_cons, ih, computeFee_eq_value,
      value_add]

theorem splitError_eq (h : rule.PercentOnly) (hPercent : 0 ≤ rule.percent)
    (hPos : ∀ c ∈ cents, 0 < c) : splitError rule cents = |(splitCents rule cents : ℚ)| / 100 := by
  have hParts : (cents.map fun c => feeUnits rule (value 2 c) 2) =
      cents.map fun c => mathRound (share rule c + lift) :=
    List.map_congr_left fun c hMem => feeUnits_percentOnly h hPercent (hPos c hMem).le
  rw [splitError, splitFee_eq_value, computeFee_eq_value, hParts, value_sub,
    feeUnits_percentOnly h hPercent (sum_nonneg_of_pos hPos), ← splitCents, value, abs_div]
  norm_num

theorem splitError_of_neg (h : rule.PercentOnly) (hPercent : rule.percent < 0) :
    splitError rule cents = 0 := by
  have hParts : splitFee rule cents = 0 := by
    refine List.sum_eq_zero ?_
    intro fee hMem
    obtain ⟨c, -, rfl⟩ := List.mem_map.mp hMem
    exact computeFee_of_neg h hPercent _
  rw [splitError, hParts, computeFee_of_neg h hPercent, sub_zero, abs_zero]

theorem lift_pos : 0 < lift := by norm_num [lift, EPSILON]

theorem mathRound_lift : mathRound lift = 0 := by
  rw [mathRound, Int.floor_eq_zero_iff]
  constructor <;> norm_num [lift, EPSILON]

theorem abs_splitCents_le (rule : FeeRule) (cents : List ℤ) :
    |(splitCents rule cents : ℚ)| ≤ (cents.length + 1) / 2 + (cents.length - 1) * lift := by
  have hLift := lift_pos
  cases hCents : cents with
  | nil =>
    have hNothing : splitCents rule [] = 0 := by
      simp [splitCents, share, mathRound_lift]
    rw [hNothing]
    norm_num [lift, EPSILON]
  | cons c rest =>
    have hParts := abs_sum_mathRound_sub (cents.map fun c => share rule c + lift)
    rw [sum_lifted, List.length_map, List.map_map, abs_le] at hParts
    have hUp := mathRound_le (share rule cents.sum + lift)
    have hDown := lt_mathRound (share rule cents.sum + lift)
    have hSome : (1 : ℚ) ≤ cents.length := by
      rw [hCents, List.length_cons]
      push_cast
      linarith [Nat.cast_nonneg (α := ℚ) rest.length]
    have hMore : 0 ≤ ((cents.length : ℚ) - 1) * lift := mul_nonneg (by linarith) hLift.le
    rw [← hCents, splitCents, abs_le]
    simp only [Int.cast_sub, Function.comp_def] at hParts ⊢
    constructor <;> linarith

/-- Half a cent for each part and for the whole, while the parts are not too many for `EPSILON`. -/
theorem abs_splitCents_le_of_few (rule : FeeRule) (hFew : (cents.length : ℚ) * (200 * EPSILON) ≤ 1) :
    |(splitCents rule cents : ℚ)| ≤ (cents.length + 1) / 2 := by
  have hAll := abs_splitCents_le rule cents
  have hLift := lift_pos
  have hExtra : ((cents.length : ℚ) - 1) * (2 * lift) < 1 := by
    unfold lift at hLift ⊢
    linarith
  have hLt : 2 * |(splitCents rule cents : ℚ)| < cents.length + 2 := by linarith
  have hInt : 2 * |splitCents rule cents| < cents.length + 2 := by exact_mod_cast hLt
  have hLe : 2 * |splitCents rule cents| ≤ cents.length + 1 := by omega
  have hCast : 2 * |(splitCents rule cents : ℚ)| ≤ cents.length + 1 := by exact_mod_cast hLe
  linarith

theorem mathRound_lifted (hPlain : rule.Plain) (c : ℤ) :
    mathRound (share rule c + lift) = mathRound (share rule c) := by
  obtain ⟨m, hm⟩ := hPlain
  have hGrain : share rule c + 1 / 2 =
      ((c * m + 5 * 10 ^ 12 : ℤ) : ℚ) / (10 ^ 13 : ℕ) := by
    rw [share]
    push_cast
    rw [← hm]
    ring
  refine mathRound_add_of_lt (by positivity) hGrain lift_pos.le ?_
  norm_num [lift, EPSILON]

/-- Without an effect of `EPSILON` it is half a cent for each part. -/
theorem abs_splitCents_le_of_plain (hPlain : rule.Plain) :
    |(splitCents rule cents : ℚ)| ≤ cents.length / 2 := by
  cases hCents : cents with
  | nil =>
    have hNothing : splitCents rule [] = 0 := by
      simp [splitCents, share, mathRound_lift]
    simp [hNothing]
  | cons c rest =>
    have hSame : splitCents rule cents =
        ((cents.map (share rule)).map mathRound).sum - mathRound (share rule cents.sum) := by
      simp only [splitCents, mathRound_lifted hPlain, List.map_map, Function.comp_def]
    have hNonempty : cents.map (share rule) ≠ [] := by simp [hCents]
    have hParts := abs_le.mp (abs_sum_mathRound_sub (cents.map (share rule)))
    have hStrict := lt_sum_mathRound hNonempty
    rw [sum_shares, List.length_map] at hParts hStrict
    have hUp := mathRound_le (share rule cents.sum)
    have hDown := lt_mathRound (share rule cents.sum)
    have hLt : 2 * |(splitCents rule cents : ℚ)| < cents.length + 1 := by
      rw [hSame, ← lt_div_iff₀' two_pos, abs_lt]
      rw [Int.cast_sub]
      constructor <;> linarith
    have hInt : 2 * |splitCents rule cents| < cents.length + 1 := by exact_mod_cast hLt
    have hLe : 2 * |splitCents rule cents| ≤ cents.length := by omega
    have hCast : 2 * |(splitCents rule cents : ℚ)| ≤ cents.length := by exact_mod_cast hLe
    rw [← hCents]
    linarith

/-- By how much the fees on `n` parts may miss the fee on their sum: half a cent for each part and for
the whole, and half a cent for each part when the percentage has at most eleven decimals. With other
percentages `EPSILON` counts once the parts are very many. -/
structure FeeRule.Near (rule : FeeRule) (n : ℕ) (miss : ℚ) : Prop where
  always : miss ≤ ((n + 1) / 2 + (n - 1) * lift) / 100
  few : (n : ℚ) * (200 * EPSILON) ≤ 1 → miss ≤ (n + 1) / 2 / 100
  plain : rule.Plain → miss ≤ n / 2 / 100

theorem splitError_near (h : rule.PercentOnly) (hPos : ∀ c ∈ cents, 0 < c) :
    rule.Near cents.length (splitError rule cents) := by
  rcases lt_or_ge rule.percent 0 with hNeg | hPercent
  · rw [splitError_of_neg h hNeg]
    have hBound : (0 : ℚ) ≤ (cents.length + 1) / 2 + (cents.length - 1) * lift :=
      (abs_nonneg _).trans (abs_splitCents_le rule cents)
    exact ⟨by positivity, fun _ => by positivity, fun _ => by positivity⟩
  · rw [splitError_eq h hPercent hPos]
    refine ⟨?_, ?_, ?_⟩
    · exact div_le_div_of_nonneg_right (abs_splitCents_le rule cents) (by norm_num)
    · intro hFew
      exact div_le_div_of_nonneg_right (abs_splitCents_le_of_few rule hFew) (by norm_num)
    · intro hPlain
      exact div_le_div_of_nonneg_right (abs_splitCents_le_of_plain hPlain) (by norm_num)

end Cents

/-! ### Between the floor and the cap -/

section Bounds
variable {rule : FeeRule} {amount : ℚ} {dp : ℕ}

/-- How `computeFee` rounds. -/
def rounded (dp : ℕ) (fee : ℚ) : ℚ := mathRound ((fee + EPSILON) * 10 ^ dp) / 10 ^ dp

/-- No cap, or one that is not below the floor. -/
def FeeRule.Capped (rule : FeeRule) : Prop := rule.max = 0 ∨ rule.min ≤ rule.max

theorem computeFee_eq_rounded (hAmount : 0 < amount) :
    computeFee rule amount dp = max 0 (rounded dp (rawFee rule amount)) :=
  if_neg (not_le.mpr hAmount)

theorem rounded_mono {x y : ℚ} (h : x ≤ y) : rounded dp x ≤ rounded dp y := by
  have hScale : (0 : ℚ) < 10 ^ dp := by positivity
  have hRound : mathRound ((x + EPSILON) * 10 ^ dp) ≤ mathRound ((y + EPSILON) * 10 ^ dp) :=
    mathRound_mono (mul_le_mul_of_nonneg_right (by linarith) hScale.le)
  exact div_le_div_of_nonneg_right (by exact_mod_cast hRound) hScale.le

theorem rounded_nonneg {x : ℚ} (h : 0 ≤ x) : 0 ≤ rounded dp x := by
  have hEpsilon : 0 < EPSILON := by norm_num [EPSILON]
  have hRound : 0 ≤ mathRound ((x + EPSILON) * 10 ^ dp) := Int.floor_nonneg.mpr (by positivity)
  have hCast : (0 : ℚ) ≤ mathRound ((x + EPSILON) * 10 ^ dp) := by exact_mod_cast hRound
  exact div_nonneg hCast (by positivity)

theorem rawFee_mono (hPercent : 0 ≤ rule.percent) {a b : ℚ} (h : a ≤ b) :
    rawFee rule a ≤ rawFee rule b := by
  have hLinear : a * rule.percent / 100 + rule.flat ≤ b * rule.percent / 100 + rule.flat := by
    have hMul : a * rule.percent ≤ b * rule.percent := mul_le_mul_of_nonneg_right h hPercent
    linarith
  unfold rawFee
  dsimp only
  split_ifs <;> gcongr

theorem computeFee_mono (hPercent : 0 ≤ rule.percent) :
    Monotone fun amount => computeFee rule amount dp := by
  intro a b h
  by_cases hA : a ≤ 0
  · have hZero : computeFee rule a dp = 0 := if_pos hA
    exact hZero.le.trans (computeFee_nonneg rule b dp)
  · have hPos := not_le.mp hA
    simp only [computeFee_eq_rounded hPos, computeFee_eq_rounded (hPos.trans_le h)]
    exact max_le_max_left 0 (rounded_mono (rawFee_mono hPercent h))

theorem min_le_rawFee (hMin : 0 < rule.min) (hCapped : rule.Capped) :
    rule.min ≤ rawFee rule amount := by
  unfold rawFee
  dsimp only
  rw [if_pos hMin]
  split_ifs with hMax
  · exact le_min (hCapped.resolve_left hMax.ne') (le_max_left _ _)
  · exact le_max_left _ _

theorem rounded_min_le (hMin : 0 < rule.min) (hCapped : rule.Capped) (hAmount : 0 < amount) :
    rounded dp rule.min ≤ computeFee rule amount dp := by
  rw [computeFee_eq_rounded hAmount]
  exact (rounded_mono (min_le_rawFee hMin hCapped)).trans (le_max_right _ _)

theorem le_rounded_max (hMax : 0 < rule.max) : computeFee rule amount dp ≤ rounded dp rule.max := by
  have hNonneg : 0 ≤ rounded dp rule.max := rounded_nonneg hMax.le
  unfold computeFee
  split_ifs
  · exact hNonneg
  · refine max_le hNonneg (rounded_mono ?_)
    unfold rawFee
    dsimp only
    rw [if_pos hMax]
    exact min_le_left _ _

end Bounds

end FarmBackend.Fees
