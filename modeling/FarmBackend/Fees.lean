import FarmBackend.Decimal

/-!
# The fee schedule (`fees/fee-defaults.ts`)

A rule is what `FeesService.rule` answers for its key at the time it is asked; the schedule is
read again by every call, so the callers below take it as an argument.
-/

namespace FarmBackend.Fees
open Decimal

set_option autoImplicit false

inductive FeeKey where
  | escrowCreation
  | escrowRelease
  | withdrawal
  | merchant
  | transfer
  deriving DecidableEq, Repr

/-- `max = 0` means no cap. -/
structure FeeRule where
  percent : ℚ
  flat : ℚ
  min : ℚ
  max : ℚ
  deriving DecidableEq, Repr

abbrev FeeRules := FeeKey → FeeRule

def EPSILON : ℚ := 1 / 2 ^ 52

def rawFee (rule : FeeRule) (amount : ℚ) : ℚ :=
  let fee := amount * rule.percent / 100 + rule.flat
  let fee := if 0 < rule.min then Max.max rule.min fee else fee
  if 0 < rule.max then Min.min rule.max fee else fee

def computeFee (rule : FeeRule) (amount : ℚ) (dp : ℕ) : ℚ :=
  if amount ≤ 0 then 0
  else Max.max 0 (mathRound ((rawFee rule amount + EPSILON) * 10 ^ dp) / 10 ^ dp)

/-- `feeFor(fees, key, amount, dp)`. -/
def feeFor (rules : FeeRules) (key : FeeKey) (amount : ℚ) (dp : ℕ) : ℚ :=
  computeFee (rules key) amount dp

/-- The default schedule, nothing overridden. -/
def FEE_DEFAULTS : FeeRules
  | .escrowCreation | .escrowRelease | .withdrawal => ⟨3 / 2, 0, 0, 0⟩
  | .merchant => ⟨1, 0, 0, 0⟩
  | .transfer => ⟨0, 0, 0, 0⟩

/-- A fee is a whole number of units of its last decimal. -/
def feeUnits (rule : FeeRule) (amount : ℚ) (dp : ℕ) : ℤ :=
  if amount ≤ 0 then 0
  else Max.max 0 (mathRound ((rawFee rule amount + EPSILON) * 10 ^ dp))

theorem computeFee_eq_value (rule : FeeRule) (amount : ℚ) (dp : ℕ) :
    computeFee rule amount dp = value dp (feeUnits rule amount dp) := by
  unfold computeFee feeUnits
  split
  · exact (value_zero dp).symm
  · have hZero := value_zero dp
    rcases le_total 0 (mathRound ((rawFee rule amount + EPSILON) * 10 ^ dp)) with hSign | hSign
    · rw [max_eq_right hSign]
      exact max_eq_right (value_nonneg.mpr hSign)
    · rw [max_eq_left hSign, hZero]
      refine max_eq_left ?_
      rw [← hZero]
      exact value_le_value.mpr hSign

theorem feeUnits_nonneg (rule : FeeRule) (amount : ℚ) (dp : ℕ) :
    0 ≤ feeUnits rule amount dp := by
  unfold feeUnits
  split
  · exact le_refl 0
  · exact le_max_left _ _

theorem computeFee_nonneg (rule : FeeRule) (amount : ℚ) (dp : ℕ) :
    0 ≤ computeFee rule amount dp := by
  rw [computeFee_eq_value]
  exact value_nonneg.mpr (feeUnits_nonneg rule amount dp)

/-- The rule charges nothing exactly when its fee stays below half of the last decimal. -/
theorem feeUnits_eq_zero_iff (rule : FeeRule) (amount : ℚ) (dp : ℕ) :
    feeUnits rule amount dp = 0 ↔
      amount ≤ 0 ∨ (rawFee rule amount + EPSILON) * 10 ^ dp < 1 / 2 := by
  unfold feeUnits
  split
  · simp [*]
  · rename_i hAmount
    rw [max_eq_left_iff, mathRound, ← Int.lt_add_one_iff, zero_add, Int.floor_lt, Int.cast_one]
    constructor
    · intro h
      exact .inr (by linarith)
    · rintro (h | h)
      · exact absurd h hAmount
      · linarith

/-- Before it is rounded, the fee stays less than half a unit of its last decimal above what the
amount has of whole ones. -/
def FeeRule.Fits (rule : FeeRule) (amount : ℚ) (dp : ℕ) : Prop :=
  rawFee rule amount + EPSILON < (⌊amount * 10 ^ dp⌋ + 1 / 2) / 10 ^ dp

instance (rule : FeeRule) (amount : ℚ) (dp : ℕ) : Decidable (rule.Fits amount dp) :=
  inferInstanceAs (Decidable (_ < _))

theorem computeFee_le_iff {rule : FeeRule} {amount : ℚ} {dp : ℕ} (hAmount : 0 < amount) :
    computeFee rule amount dp ≤ amount ↔ rule.Fits amount dp := by
  have hScale : (0 : ℚ) < 10 ^ dp := by positivity
  have hWhole : 0 ≤ ⌊amount * 10 ^ dp⌋ := Int.floor_nonneg.mpr (by positivity)
  have hUnits : computeFee rule amount dp ≤ amount ↔
      feeUnits rule amount dp ≤ ⌊amount * 10 ^ dp⌋ := by
    rw [computeFee_eq_value, value, div_le_iff₀ hScale, Int.le_floor]
  rw [hUnits, feeUnits, if_neg (not_le.mpr hAmount), max_le_iff, mathRound, ← Int.lt_add_one_iff,
    ← Int.lt_add_one_iff, Int.floor_lt, FeeRule.Fits, lt_div_iff₀ hScale]
  push_cast
  constructor
  · rintro ⟨-, hFee⟩
    linarith
  · intro hFits
    exact ⟨by omega, by linarith⟩

end FarmBackend.Fees
