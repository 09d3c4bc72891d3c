import FarmBackend.EscrowSplits
import FarmBackend.FeeSplitting

/-!
# What the milestones of an escrow cost

The fee on every part is booked with the part. The parts are whole cents, so the fees on them miss the
fee on all that was released by as little as the parts of any amount do.
-/

namespace FarmBackend.Escrow
open Decimal Fees Wallets

set_option autoImplicit false

/-- The amount rounded to cents. -/
def Part.cents (p : Part) : ℤ := column 2 p.amount

/-- The fee on the part. -/
def Part.fee (p : Part) : ℚ := feeFor p.rules .escrowRelease (value 2 p.cents) 2

section Parts
variable {escrowId : ℕ} {buyerId : UserId} {db db' : EscrowDb} {p : Part} {parts : List Part}

theorem transactions_part (h : p.run escrowId buyerId db = some db') :
    0 < p.cents ∧ ∃ t : Transaction,
      db'.bank.transactions = db.bank.transactions ++ [t] ∧ toNumber (toPlatform t) = p.fee := by
  simp only [Part.run, Option.bind_eq_bind, Option.bind_eq_some_iff] at h
  obtain ⟨escrow, -, part, hPart, hTx⟩ := h
  simp only [EscrowDb.releasePartialChecks, Option.ite_none_right_eq_some, Option.some.injEq] at hPart
  obtain ⟨⟨hPart, -⟩, rfl⟩ := hPart
  have hCents : 0 < p.cents := value_pos.mp hPart
  have hUnits : toFixed 2 p.amount = toNumber p.units := toNumber_cents p.cents
  have hPositive : 0 < p.units := mul_pos hCents (by norm_num)
  obtain ⟨f, hFee, hFeeEq, -⟩ := releaseFee_eq p.rules hPositive
  simp only [EscrowDb.releasePartialTx, Option.bind_eq_bind, Option.bind_eq_some_iff] at hTx
  obtain ⟨buyer, -, seller, -, row, -, hTx⟩ := hTx
  rw [Option.ite_none_right_eq_some] at hTx
  simp only [Option.bind_eq_some_iff, Option.pure_def, Option.some.injEq] at hTx
  obtain ⟨-, bank', hPay, rfl⟩ := hTx
  rw [hUnits, hFeeEq, value_sub, toFixed_value] at hPay
  refine ⟨hCents, _, (moves_payRelease hFee hPay).transactions_eq, ?_⟩
  rw [Part.fee, Part.cents, ← toFixed, hUnits, hFeeEq]
  rfl

theorem transactions_payParts (h : payParts escrowId buyerId parts db = some db') :
    (∀ p ∈ parts, 0 < p.cents) ∧ ∃ rows,
      db'.bank.transactions = db.bank.transactions ++ rows ∧
      toNumber (paidToPlatform rows) = (parts.map Part.fee).sum := by
  induction parts generalizing db with
  | nil =>
    obtain rfl : db = db' := Option.some.inj h
    exact ⟨List.forall_mem_nil _, [], (List.append_nil _).symm, value_zero 8⟩
  | cons p parts ih =>
    obtain ⟨db₁, hPart, hParts⟩ := Option.bind_eq_some_iff.mp h
    obtain ⟨hCents, t, hRow, hFee⟩ := transactions_part hPart
    obtain ⟨hAll, rows, hRows, hFees⟩ := ih hParts
    refine ⟨List.forall_mem_cons.mpr ⟨hCents, hAll⟩, t :: rows, ?_, ?_⟩
    · rw [hRows, hRow, List.append_assoc, List.singleton_append]
    · rw [List.map_cons, List.sum_cons, ← hFee, ← hFees, value_add]
      rfl

/-- What the platform is paid for the parts, against its fee on all that they release. -/
theorem platformFees_payParts {rule : FeeRule} (hRule : ∀ p ∈ parts, p.rules .escrowRelease = rule)
    (h : payParts escrowId buyerId parts db = some db') :
    ∃ rows, db'.bank.transactions = db.bank.transactions ++ rows ∧
      |toNumber (paidToPlatform rows) - computeFee rule (value 2 (parts.map Part.cents).sum) 2| =
        splitError rule (parts.map Part.cents) := by
  obtain ⟨-, rows, hRows, hFees⟩ := transactions_payParts h
  refine ⟨rows, hRows, ?_⟩
  have hParts : parts.map Part.fee = parts.map fun p => computeFee rule (value 2 p.cents) 2 := by
    refine List.map_congr_left ?_
    intro p hMem
    rw [Part.fee, feeFor, hRule p hMem]
  rw [hFees, hParts, splitError, splitFee, List.map_map, Function.comp_def]

theorem milestones_near {rule : FeeRule} (hPercentOnly : rule.PercentOnly)
    (hRule : ∀ p ∈ parts, p.rules .escrowRelease = rule)
    (h : payParts escrowId buyerId parts db = some db') :
    ∃ rows, db'.bank.transactions = db.bank.transactions ++ rows ∧
      rule.Near parts.length |toNumber (paidToPlatform rows) -
        computeFee rule (value 2 (parts.map Part.cents).sum) 2| := by
  obtain ⟨rows, hRows, hMiss⟩ := platformFees_payParts hRule h
  obtain ⟨hCents, -⟩ := transactions_payParts h
  refine ⟨rows, hRows, ?_⟩
  rw [hMiss, ← List.length_map Part.cents]
  exact splitError_near hPercentOnly (List.forall_mem_map.mpr hCents)

end Parts

/-- Fees follow the amount, between the rounded floor and the rounded cap, and the fees on parts follow
the fee on the whole, for the milestones of an escrow as for the parts of any amount. -/
theorem fee_follows_amount (rule : FeeRule) :
    (rule.PercentOnly →
      (∀ cents : List ℤ, (∀ c ∈ cents, 0 < c) → rule.Near cents.length (splitError rule cents)) ∧
      ∀ (escrowId : ℕ) (buyerId : UserId) (parts : List Part) (db db' : EscrowDb),
        (∀ p ∈ parts, p.rules .escrowRelease = rule) →
        payParts escrowId buyerId parts db = some db' →
        ∃ rows, db'.bank.transactions = db.bank.transactions ++ rows ∧
          rule.Near parts.length |toNumber (paidToPlatform rows) -
            computeFee rule (value 2 (parts.map Part.cents).sum) 2|) ∧
    (0 ≤ rule.percent → ∀ dp, Monotone fun amount => computeFee rule amount dp) ∧
    (rule.Capped → ∀ (dp : ℕ) (amount : ℚ), 0 ≤ computeFee rule amount dp ∧
      (0 < rule.min → 0 < amount → rounded dp rule.min ≤ computeFee rule amount dp) ∧
      (0 < rule.max → computeFee rule amount dp ≤ rounded dp rule.max)) := by
  refine ⟨?_, ?_, ?_⟩
  · intro hPercentOnly
    refine ⟨fun cents => splitError_near hPercentOnly, ?_⟩
    intro escrowId buyerId parts db db' hRule hRun
    exact milestones_near hPercentOnly hRule hRun
  · intro hPercent dp
    exact computeFee_mono hPercent
  · intro hCapped dp amount
    refine ⟨computeFee_nonneg rule amount dp, ?_, le_rounded_max⟩
    intro hMin hAmount
    exact rounded_min_le hMin hCapped hAmount

/-- A little less than half of every cent. -/
def underHalf : FeeRule := ⟨50 - 1 / 2 ^ 40, 0, 0, 0⟩

theorem mathRound_underHalf :
    mathRound (share underHalf 1 + lift) = 1 ∧
      mathRound (share underHalf (100 * 2 ^ 40) + lift) = 50 * 2 ^ 40 - 1 := by
  decide +kernel

/-- Cent after cent, `EPSILON` lifts the fee to a whole cent; on the whole amount it is a little less
than half. -/
theorem cents_cost_twice : ∃ (rule : FeeRule) (cents : List ℤ), rule.PercentOnly ∧
    0 ≤ rule.percent ∧ rule.percent ≤ 100 ∧ (∀ c ∈ cents, 0 < c) ∧
    ((cents.length : ℚ) + 1) / 2 / 100 < splitError rule cents := by
  have hPercentOnly : underHalf.PercentOnly := ⟨rfl, rfl, rfl⟩
  have hPercent : 0 ≤ underHalf.percent := by norm_num [underHalf]
  have hPos : ∀ c ∈ List.replicate (100 * 2 ^ 40) (1 : ℤ), 0 < c := by
    intro c hMem
    rw [List.eq_of_mem_replicate hMem]
    exact one_pos
  refine ⟨underHalf, List.replicate (100 * 2 ^ 40) 1, hPercentOnly, hPercent, ?_, hPos, ?_⟩
  · norm_num [underHalf]
  · have hWhole : (List.replicate (100 * 2 ^ 40) (1 : ℤ)).sum = 100 * 2 ^ 40 := by
      rw [List.sum_replicate]
      norm_num
    have hMiss : splitCents underHalf (List.replicate (100 * 2 ^ 40) 1) = 50 * 2 ^ 40 + 1 := by
      rw [splitCents, hWhole, List.map_replicate, mathRound_underHalf.1, List.sum_replicate,
        mathRound_underHalf.2]
      norm_num
    rw [splitError_eq hPercentOnly hPercent hPos, hMiss, List.length_replicate]
    norm_num

/-- Ten FARM, then half a FARM, at the default 1.5%. -/
theorem milestones_of_ten_and_a_half :
    ∃ db', payParts 0 1 [⟨FEE_DEFAULTS, 10, 0⟩, ⟨FEE_DEFAULTS, 1 / 2, 0⟩] thirtyLocked = some db' ∧
      (∃ rows, db'.bank.transactions = rows ∧
        |toNumber (paidToPlatform rows) - computeFee ⟨3 / 2, 0, 0, 0⟩ (21 / 2) 2| ≤ 1 / 100) ∧
      computeFee ⟨3 / 2, 0, 0, 0⟩ 10 2 ≤ computeFee ⟨3 / 2, 0, 0, 0⟩ 11 2 ∧
      rounded 2 3 ≤ computeFee ⟨3 / 2, 0, 3, 5⟩ 10 2 ∧
      computeFee ⟨3 / 2, 0, 3, 5⟩ 10 2 ≤ rounded 2 5 := by
  have hRun : (payParts 0 1 [⟨FEE_DEFAULTS, 10, 0⟩, ⟨FEE_DEFAULTS, 1 / 2, 0⟩] thirtyLocked).isSome =
      true := by
    decide +kernel
  obtain ⟨db', hParts⟩ := Option.isSome_iff_exists.mp hRun
  obtain ⟨hSplits, hMono, -⟩ := fee_follows_amount ⟨3 / 2, 0, 0, 0⟩
  obtain ⟨-, -, hBounds⟩ := fee_follows_amount ⟨3 / 2, 0, 3, 5⟩
  obtain ⟨-, hFloor, hCap⟩ := hBounds (.inr (by norm_num)) 2 10
  have hRule : ∀ p ∈ [(⟨FEE_DEFAULTS, 10, 0⟩ : Part), ⟨FEE_DEFAULTS, 1 / 2, 0⟩],
      p.rules .escrowRelease = ⟨3 / 2, 0, 0, 0⟩ := by
    simp [FEE_DEFAULTS]
  obtain ⟨rows, hRows, hNear⟩ := (hSplits ⟨rfl, rfl, rfl⟩).2 0 1 _ thirtyLocked db' hRule hParts
  have hPlain : FeeRule.Plain ⟨3 / 2, 0, 0, 0⟩ := ⟨150000000000, by norm_num⟩
  have hWhole : value 2 ([(⟨FEE_DEFAULTS, 10, 0⟩ : Part), ⟨FEE_DEFAULTS, 1 / 2, 0⟩].map
      Part.cents).sum = 21 / 2 := by
    decide +kernel
  have hMiss := hNear.plain hPlain
  rw [hWhole] at hMiss
  refine ⟨db', hParts, ⟨rows, hRows, hMiss.trans (by norm_num)⟩, hMono (by norm_num) 2 (by norm_num),
    hFloor (by norm_num) (by norm_num), hCap (by norm_num)⟩

end FarmBackend.Escrow
