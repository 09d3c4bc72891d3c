import Mathlib.Data.Rat.Floor
import Mathlib.Tactic.Linarith
import Mathlib.Tactic.FieldSimp
import Mathlib.Tactic.Ring

/-!
# Fixed-point columns and the rounding of numbers

A column `numeric(p, s)` holds an integer count of its smallest unit `10 ^ (-s)`; writing a
number rounds it half away from zero. `toFixed` rounds the same way, `mathRound` rounds
half up. Numbers are rationals: nothing here models the rounding of binary floating point.
-/

namespace FarmBackend.Decimal

set_option autoImplicit false

def roundHalfAway (x : ℚ) : ℤ :=
  if 0 ≤ x then ⌊x + 1 / 2⌋ else -⌊-x + 1 / 2⌋

/-- `Math.round`. -/
def mathRound (x : ℚ) : ℤ := ⌊x + 1 / 2⌋

/-- What a column with `scale` decimals keeps of a number. -/
def column (scale : ℕ) (x : ℚ) : ℤ := roundHalfAway (x * 10 ^ scale)

/-- The number a column with `scale` decimals stands for. -/
def value (scale : ℕ) (units : ℤ) : ℚ := units / 10 ^ scale

/-- `x.toFixed(digits)`, read back as a number. -/
def toFixed (digits : ℕ) (x : ℚ) : ℚ := value digits (column digits x)

theorem roundHalfAway_of_nonneg {x : ℚ} (hx : 0 ≤ x) : roundHalfAway x = ⌊x + 1 / 2⌋ :=
  if_pos hx

@[simp] theorem roundHalfAway_intCast (n : ℤ) : roundHalfAway (n : ℚ) = n := by
  have hHalf : ∀ m : ℤ, ⌊(m : ℚ) + 1 / 2⌋ = m := by
    intro m
    rw [Int.floor_eq_iff]
    constructor <;> linarith
  unfold roundHalfAway
  split
  · exact hHalf n
  · have hNeg := hHalf (-n)
    push_cast at hNeg
    rw [hNeg]
    ring

theorem roundHalfAway_int_add {n : ℤ} {x : ℚ} (hx : 0 ≤ x) (hSum : 0 ≤ (n : ℚ) + x) :
    roundHalfAway (n + x) = n + roundHalfAway x := by
  rw [roundHalfAway_of_nonneg hx, roundHalfAway_of_nonneg hSum, add_assoc, Int.floor_intCast_add]

theorem roundHalfAway_sub_int {n : ℤ} {x : ℚ} (hx : 0 ≤ x) (hDiff : 0 ≤ x - n) :
    roundHalfAway (x - n) = roundHalfAway x - n := by
  have hSum := @roundHalfAway_int_add (-n) x hx (by push_cast; linarith)
  push_cast at hSum
  rwa [neg_add_eq_sub, neg_add_eq_sub] at hSum

/-- Taking a part of a unit away rounds a half down, adding it rounds a half up. -/
theorem roundHalfAway_int_sub {n : ℤ} {x : ℚ} (hDiff : 0 ≤ (n : ℚ) - x) :
    roundHalfAway (n - x) = n - ⌈x - 1 / 2⌉ := by
  have hShift : (n : ℚ) - x + 1 / 2 = n + -(x - 1 / 2) := by ring
  rw [roundHalfAway_of_nonneg hDiff, hShift, Int.floor_intCast_add, Int.floor_neg]
  ring

theorem roundHalfAway_neg (x : ℚ) : roundHalfAway (-x) = -roundHalfAway x := by
  rcases lt_trichotomy x 0 with hx | rfl | hx
  · rw [roundHalfAway_of_nonneg (by linarith), roundHalfAway, if_neg (by linarith), neg_neg]
  · have h0 := roundHalfAway_intCast 0
    simp only [Int.cast_zero] at h0
    simp [h0]
  · rw [roundHalfAway_of_nonneg hx.le, roundHalfAway, if_neg (by linarith), neg_neg]

theorem floor_add_half_sub_ceil_sub_half (x : ℚ) :
    ⌊x + 1 / 2⌋ - ⌈x - 1 / 2⌉ = if Int.fract x = 1 / 2 then 1 else 0 := by
  have hParts := Int.floor_add_fract x
  have hNonneg := Int.fract_nonneg x
  have hLt := Int.fract_lt_one x
  rcases lt_trichotomy (Int.fract x) (1 / 2) with hLow | hHalf | hHigh
  · have hFloor : ⌊x + 1 / 2⌋ = ⌊x⌋ := by rw [Int.floor_eq_iff]; constructor <;> linarith
    have hCeil : ⌈x - 1 / 2⌉ = ⌊x⌋ := by rw [Int.ceil_eq_iff]; constructor <;> linarith
    rw [hFloor, hCeil, if_neg hLow.ne, sub_self]
  · have hFloor : ⌊x + 1 / 2⌋ = ⌊x⌋ + 1 := by
      rw [Int.floor_eq_iff]
      push_cast
      constructor <;> linarith
    have hCeil : ⌈x - 1 / 2⌉ = ⌊x⌋ := by rw [Int.ceil_eq_iff]; constructor <;> linarith
    rw [hFloor, hCeil, if_pos hHalf]
    ring
  · have hFloor : ⌊x + 1 / 2⌋ = ⌊x⌋ + 1 := by
      rw [Int.floor_eq_iff]
      push_cast
      constructor <;> linarith
    have hCeil : ⌈x - 1 / 2⌉ = ⌊x⌋ + 1 := by
      rw [Int.ceil_eq_iff]
      push_cast
      constructor <;> linarith
    rw [hFloor, hCeil, if_neg hHigh.ne', sub_self]

theorem roundHalfAway_nonneg {x : ℚ} (hx : 0 ≤ x) : 0 ≤ roundHalfAway x := by
  rw [roundHalfAway_of_nonneg hx]
  exact Int.floor_nonneg.mpr (by linarith)

theorem roundHalfAway_mono {x y : ℚ} (h : x ≤ y) : roundHalfAway x ≤ roundHalfAway y := by
  by_cases hx : 0 ≤ x
  · rw [roundHalfAway_of_nonneg hx, roundHalfAway_of_nonneg (hx.trans h)]
    exact Int.floor_le_floor (by linarith)
  · by_cases hy : 0 ≤ y
    · have hNeg : 0 ≤ roundHalfAway (-x) := roundHalfAway_nonneg (by linarith)
      rw [roundHalfAway_neg] at hNeg
      have hPos := roundHalfAway_nonneg hy
      omega
    · unfold roundHalfAway
      rw [if_neg hx, if_neg hy]
      have hFloor : ⌊-y + 1 / 2⌋ ≤ ⌊-x + 1 / 2⌋ := Int.floor_le_floor (by linarith)
      omega

theorem abs_roundHalfAway_sub (x : ℚ) : |(roundHalfAway x : ℚ) - x| ≤ 1 / 2 := by
  have hNonneg : ∀ y : ℚ, 0 ≤ y → |(roundHalfAway y : ℚ) - y| ≤ 1 / 2 := by
    intro y hy
    have hLow := Int.sub_one_lt_floor (y + 1 / 2)
    have hHigh := Int.floor_le (y + 1 / 2)
    rw [roundHalfAway_of_nonneg hy, abs_le]
    constructor <;> linarith
  rcases le_total 0 x with hx | hx
  · exact hNonneg x hx
  · have hNeg := hNonneg (-x) (by linarith)
    rw [roundHalfAway_neg, ← abs_neg] at hNeg
    push_cast at hNeg
    rw [neg_sub, sub_neg_eq_add, neg_add_eq_sub] at hNeg
    rw [abs_sub_comm]
    rwa [abs_sub_comm] at hNeg

theorem abs_toFixed_sub (digits : ℕ) (x : ℚ) : |toFixed digits x - x| ≤ 1 / 2 / 10 ^ digits := by
  have hScale : (0 : ℚ) < 10 ^ digits := by positivity
  have hHalf := abs_roundHalfAway_sub (x * 10 ^ digits)
  have hSame : toFixed digits x - x =
      ((roundHalfAway (x * 10 ^ digits) : ℚ) - x * 10 ^ digits) / 10 ^ digits := by
    unfold toFixed value column
    field_simp
  rw [hSame, abs_div, abs_of_pos hScale]
  exact div_le_div_of_nonneg_right hHalf hScale.le

theorem mathRound_mono {x y : ℚ} (h : x ≤ y) : mathRound x ≤ mathRound y :=
  Int.floor_le_floor (by linarith)

theorem mathRound_le (x : ℚ) : (mathRound x : ℚ) ≤ x + 1 / 2 := Int.floor_le _

theorem lt_mathRound (x : ℚ) : x - 1 / 2 < mathRound x := by
  have hFloor := Int.sub_one_lt_floor (x + 1 / 2)
  unfold mathRound
  linarith

/-- Rounding a list entry by entry loses at most half a unit for each. -/
theorem abs_sum_mathRound_sub (xs : List ℚ) :
    |((xs.map mathRound).sum : ℚ) - xs.sum| ≤ xs.length / 2 := by
  induction xs with
  | nil => simp
  | cons x xs ih =>
    rw [abs_le] at ih ⊢
    obtain ⟨hLow, hHigh⟩ := ih
    have hUp := mathRound_le x
    have hDown := lt_mathRound x
    rw [List.map_cons, List.sum_cons, List.sum_cons, List.length_cons, Int.cast_add, Nat.cast_succ]
    constructor <;> linarith

theorem lt_sum_mathRound {xs : List ℚ} (h : xs ≠ []) :
    xs.sum - xs.length / 2 < ((xs.map mathRound).sum : ℚ) := by
  cases xs with
  | nil => exact absurd rfl h
  | cons x xs =>
    have hHead := lt_mathRound x
    have hTail := (abs_le.mp (abs_sum_mathRound_sub xs)).1
    rw [List.map_cons, List.sum_cons, List.sum_cons, List.length_cons, Int.cast_add, Nat.cast_succ]
    linarith

/-- An addend below the grain of the number does not change how it is rounded. -/
theorem mathRound_add_of_lt {n : ℕ} (hn : 0 < n) {k : ℤ} {x y : ℚ} (hx : x + 1 / 2 = k / n)
    (hy : 0 ≤ y) (hLt : y < 1 / n) : mathRound (x + y) = mathRound x := by
  have hPos : (0 : ℚ) < n := by exact_mod_cast hn
  have hInt : (0 : ℤ) < n := by exact_mod_cast hn
  have hFloor : mathRound x = k / (n : ℤ) := by
    rw [mathRound, hx, ← Rat.floor_intCast_div_natCast]
  have hMod := Int.emod_lt_of_pos k hInt
  have hDiv : (k : ℚ) = n * (k / (n : ℤ) : ℤ) + (k % (n : ℤ) : ℤ) := by
    exact_mod_cast (Int.mul_ediv_add_emod k n).symm
  have hLeft : ((k % (n : ℤ) : ℤ) : ℚ) + 1 ≤ n := by exact_mod_cast hMod
  have hZero : (0 : ℚ) ≤ (k % (n : ℤ) : ℤ) := by exact_mod_cast Int.emod_nonneg k hInt.ne'
  have hSmall : y * n < 1 := by rwa [lt_div_iff₀ hPos] at hLt
  rw [hFloor, mathRound, add_right_comm, hx, Int.floor_eq_iff]
  constructor
  · rw [← sub_nonneg]
    have hSame : (k : ℚ) / n + y - (k / (n : ℤ) : ℤ) = (k % (n : ℤ) : ℤ) / n + y := by
      rw [hDiv]
      field_simp
      ring
    rw [hSame]
    positivity
  · rw [div_add' _ _ _ hPos.ne', div_lt_iff₀ hPos, hDiv]
    linarith

theorem value_mul (scale : ℕ) (n : ℤ) : value scale n * 10 ^ scale = n := by
  unfold value
  field_simp

@[simp] theorem column_value (scale : ℕ) (n : ℤ) : column scale (value scale n) = n := by
  rw [column, value_mul, roundHalfAway_intCast]

@[simp] theorem toFixed_value (scale : ℕ) (n : ℤ) :
    toFixed scale (value scale n) = value scale n := by
  rw [toFixed, column_value]

theorem value_add (scale : ℕ) (a b : ℤ) :
    value scale a + value scale b = value scale (a + b) := by
  unfold value
  push_cast
  ring

theorem value_sub (scale : ℕ) (a b : ℤ) :
    value scale a - value scale b = value scale (a - b) := by
  unfold value
  push_cast
  ring

@[simp] theorem value_zero (scale : ℕ) : value scale 0 = 0 := by simp [value]

theorem value_le_value {scale : ℕ} {a b : ℤ} : value scale a ≤ value scale b ↔ a ≤ b := by
  unfold value
  rw [div_le_div_iff_of_pos_right (by positivity), Int.cast_le]

theorem value_lt_value {scale : ℕ} {a b : ℤ} : value scale a < value scale b ↔ a < b := by
  unfold value
  rw [div_lt_div_iff_of_pos_right (by positivity), Int.cast_lt]

theorem value_pos {scale : ℕ} {a : ℤ} : 0 < value scale a ↔ 0 < a := by
  have h := @value_lt_value scale 0 a
  rwa [value_zero] at h

theorem value_nonneg {scale : ℕ} {a : ℤ} : 0 ≤ value scale a ↔ 0 ≤ a := by
  have h := @value_le_value scale 0 a
  rwa [value_zero] at h

theorem value_inj {scale : ℕ} {a b : ℤ} : value scale a = value scale b ↔ a = b := by
  rw [le_antisymm_iff, le_antisymm_iff, value_le_value, value_le_value]

theorem column_mono {scale : ℕ} {x y : ℚ} (h : x ≤ y) : column scale x ≤ column scale y :=
  roundHalfAway_mono (mul_le_mul_of_nonneg_right h (by positivity))

theorem column_nonneg {scale : ℕ} {x : ℚ} (hx : 0 ≤ x) : 0 ≤ column scale x :=
  roundHalfAway_nonneg (by positivity)

/-- A column that already holds whole units takes an addend as the column alone would. -/
theorem column_value_add {scale : ℕ} {n : ℤ} {x : ℚ} (hn : 0 ≤ n) (hx : 0 ≤ x) :
    column scale (value scale n + x) = n + column scale x := by
  have hScaled : (0 : ℚ) ≤ x * 10 ^ scale := by positivity
  have hUnits : (0 : ℚ) ≤ (n : ℚ) := by exact_mod_cast hn
  rw [column, add_mul, value_mul, roundHalfAway_int_add hScaled (by linarith), column]

end FarmBackend.Decimal
