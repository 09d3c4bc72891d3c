import FarmBackend.ProjectRefunds

/-!
# What the refunds of a cancelled project add up to

Each investor's share of the funds held and of the reserve is cut to whole cents, so the shares of all
are within the two amounts, and less than two cents of each investor stay behind. An investor is a row
of `user_investments`.
-/

namespace FarmBackend.Projects
open Decimal Wallets Rows

set_option autoImplicit false

/-- The turns of `refundAll`, with what each of them meets. -/
def Custody.refundRows (o : InvestmentId → Outcome) (x : Shares)
    (rows : List (Investment × InvestmentId)) (s : Custody) : Option Custody :=
  rows.foldlM (fun s r => s.refundTx (o r.2) x r.1 r.2) s

/-- What an investor is entitled to. -/
def Shares.entitlement (x : Shares) (inv : Investment) : ℚ :=
  toNumber inv.amount * (x.held + x.reserve)

/-- The counters of a project are sound, and what it raised covers its fee and its releases. -/
structure Project.Held (p : Project) : Prop where
  reserve : p.Reserve
  released : 0 ≤ p.releasedAmount
  within : p.consolidationFee + p.releasedAmount ≤ p.raisedAmount
  sum : p.raisedAmount = (p.investments.map (·.amount)).sum
  amounts : ∀ inv ∈ p.investments, 0 ≤ inv.amount

/-- Both hold in every state that the calls of the marketplace reach. -/
theorem Project.Solvent.toHeld {p : Project} (h : p.Solvent) (hCoherent : p.Coherent) : p.Held where
  reserve := hCoherent.reserve
  released := hCoherent.releasedAmount
  within := by
    have hFee := h.fee
    have hWithin := hCoherent.within
    omega
  sum := h.sum
  amounts := h.amounts

/-- How the refunds of all rows share the two amounts. -/
structure Distributes (p : Project) (x : Shares) (rows : List (Investment × InvestmentId)) :
    Prop where
  held_le : (rows.map fun r => x.heldPart r.1).sum ≤ heldFunds p
  reserve_le : (rows.map fun r => x.reservePart r.1).sum ≤ reserveLeft p
  refund_le : ∀ r ∈ rows, x.refundAmount r.1 ≤ toNumber r.1.amount
  left_lt : ∀ r ∈ rows, x.entitlement r.1 - x.refundAmount r.1 < 2 / 100
  total_lt : rows ≠ [] → rows = p.investments.zipIdx →
    heldFunds p + reserveLeft p - (rows.map fun r => x.refundAmount r.1).sum < 2 / 100 * rows.length

section Parts
variable {p : Project} {x : Shares} {inv : Investment} {rows : List (Investment × InvestmentId)}

theorem lt_floor2 (a : ℚ) : a - 1 / 100 < floor2 a := by
  have hFloor := Int.lt_floor_add_one (a * 100)
  unfold floor2
  rw [lt_div_iff₀ (by norm_num)]
  linarith

theorem floor2_add (a b : ℚ) : toFixed 2 (floor2 a + floor2 b) = floor2 a + floor2 b := by
  have hCents : floor2 a + floor2 b = value 2 (⌊a * 100⌋ + ⌊b * 100⌋) := by
    simp only [floor2, value]
    push_cast
    ring
  rw [hCents, toFixed_value]

theorem refundAmount_eq (x : Shares) (inv : Investment) :
    x.refundAmount inv = x.heldPart inv + x.reservePart inv := floor2_add _ _

theorem sum_floor2_le (f : Investment → ℚ) (rows : List (Investment × InvestmentId)) :
    (rows.map fun r => floor2 (f r.1)).sum ≤ (rows.map fun r => f r.1).sum :=
  List.sum_le_sum fun r _ => floor2_le (f r.1)

theorem sum_shares (share : ℚ) (rows : List (Investment × InvestmentId)) :
    (rows.map fun r => toNumber r.1.amount * share).sum =
      toNumber (rows.map fun r => r.1.amount).sum * share := by
  induction rows with
  | nil => simp
  | cons r rows ih =>
    rw [List.map_cons, List.sum_cons, List.map_cons, List.sum_cons, ih, toNumber_add, add_mul]

theorem Project.Held.raised_nonneg (h : p.Held) : 0 ≤ p.raisedAmount := by
  rw [h.sum]
  refine List.sum_nonneg ?_
  intro n hMem
  obtain ⟨inv, hIn, rfl⟩ := List.mem_map.mp hMem
  exact h.amounts inv hIn

theorem Project.Held.heldFunds_eq (h : p.Held) :
    heldFunds p = toNumber (p.raisedAmount - p.consolidationFee - p.releasedAmount) := by
  have hWithin := h.within
  simp only [heldFunds, value_sub]
  exact max_eq_right (value_nonneg.mpr (by omega))

theorem Project.Held.reserveLeft_eq (h : p.Held) : reserveLeft p = toNumber p.remaining := by
  simp only [reserveLeft, value_sub]
  exact max_eq_right (value_nonneg.mpr h.reserve.remaining_nonneg)

/-- What is held and what is left of the reserve were raised. -/
theorem Project.Held.left_le (h : p.Held) :
    heldFunds p + reserveLeft p ≤ toNumber p.raisedAmount := by
  have hReleased := h.released
  have hRefunded := h.reserve.refunded
  have hSpent := h.reserve.released
  rw [h.heldFunds_eq, h.reserveLeft_eq, ← toNumber_add, value_le_value]
  unfold Project.remaining
  omega

theorem Project.Held.reserveLeft_nonneg (h : p.Held) : 0 ≤ reserveLeft p := by
  rw [h.reserveLeft_eq]
  exact value_nonneg.mpr h.reserve.remaining_nonneg

/-- The shares of all that was raised are the two amounts. -/
theorem Project.Held.shares_mul_raised (h : p.Held) :
    toNumber p.raisedAmount * (refundShares p).held = heldFunds p ∧
      toNumber p.raisedAmount * (refundShares p).reserve = reserveLeft p := by
  have hLeft := h.left_le
  have hHeld := heldFunds_nonneg p
  have hReserve := h.reserveLeft_nonneg
  simp only [refundShares]
  split
  · rename_i hRaised
    have hPos : 0 < toNumber p.raisedAmount := value_pos.mpr hRaised
    have hCap : heldFunds p / toNumber p.raisedAmount ≤ 1 := by
      rw [div_le_one hPos]
      linarith
    rw [min_eq_right hCap]
    exact ⟨mul_div_cancel₀ _ hPos.ne', mul_div_cancel₀ _ hPos.ne'⟩
  · rename_i hNone
    have hZero : p.raisedAmount = 0 := le_antisymm (not_lt.mp hNone) h.raised_nonneg
    rw [hZero, toNumber_zero] at hLeft ⊢
    rw [zero_mul, zero_mul]
    constructor <;> linarith

theorem Project.Held.shares_nonneg (h : p.Held) :
    0 ≤ (refundShares p).held ∧ 0 ≤ (refundShares p).reserve :=
  ⟨share_nonneg h.raised_nonneg, (reserve_share h.reserve h.raised_nonneg).1⟩

theorem Project.Held.shares_le_one (h : p.Held) (hRaised : 0 < p.raisedAmount) :
    (refundShares p).held + (refundShares p).reserve ≤ 1 := by
  have hPos : 0 < toNumber p.raisedAmount := value_pos.mpr hRaised
  obtain ⟨hHeld, hReserve⟩ := h.shares_mul_raised
  have hLeft := h.left_le
  rw [← hHeld, ← hReserve, ← mul_add] at hLeft
  exact (mul_le_iff_le_one_right hPos).mp hLeft

theorem Project.Held.refundable_amounts_le (h : p.Held) :
    toNumber ((refundable p).map fun r => r.1.amount).sum ≤ toNumber p.raisedAmount := by
  rw [value_le_value, h.sum]
  exact refundable_amounts h.amounts

theorem Project.Held.amount_nonneg (h : p.Held) {r : Investment × InvestmentId}
    (hRow : r ∈ refundable p) : 0 ≤ r.1.amount :=
  h.amounts r.1 (List.mem_of_getElem? (refundable_spec hRow).2)

/-- A row with an amount is part of what was raised. -/
theorem Project.Held.refund_le_amount (h : p.Held) (hAmount : 0 ≤ inv.amount)
    (hPart : inv.amount ≤ p.raisedAmount) :
    (refundShares p).refundAmount inv ≤ toNumber inv.amount := by
  have hNumber : 0 ≤ toNumber inv.amount := value_nonneg.mpr hAmount
  rw [refundAmount_eq]
  have hParts : (refundShares p).heldPart inv + (refundShares p).reservePart inv ≤
      toNumber inv.amount * ((refundShares p).held + (refundShares p).reserve) := by
    rw [mul_add]
    exact add_le_add (floor2_le _) (floor2_le _)
  refine hParts.trans ?_
  rcases h.raised_nonneg.eq_or_lt with hZero | hRaised
  · have hNothing : inv.amount = 0 := le_antisymm (hZero ▸ hPart) hAmount
    rw [hNothing, toNumber_zero, zero_mul]
  · exact mul_le_of_le_one_right hNumber (h.shares_le_one hRaised)

theorem entitlement_sub_lt (x : Shares) (inv : Investment) :
    x.entitlement inv - x.refundAmount inv < 2 / 100 := by
  have hHeld := lt_floor2 (toNumber inv.amount * x.held)
  have hReserve := lt_floor2 (toNumber inv.amount * x.reserve)
  rw [refundAmount_eq, Shares.entitlement, Shares.heldPart, Shares.reservePart, mul_add]
  linarith

theorem sum_entitlements_sub_lt (x : Shares) (hRows : rows ≠ []) :
    (rows.map fun r => x.entitlement r.1).sum - (rows.map fun r => x.refundAmount r.1).sum <
      2 / 100 * rows.length := by
  induction rows with
  | nil => exact absurd rfl hRows
  | cons r rows ih =>
    have hHead := entitlement_sub_lt x r.1
    rw [List.map_cons, List.sum_cons, List.map_cons, List.sum_cons, List.length_cons]
    push_cast
    by_cases hLast : rows = []
    · subst hLast
      simp only [List.map_nil, List.sum_nil, List.length_nil, Nat.cast_zero]
      linarith
    · have hTail := ih hLast
      linarith

theorem Project.Held.distributes (h : p.Held) : Distributes p (refundShares p) (refundable p) := by
  obtain ⟨hHeld, hReserve⟩ := h.shares_mul_raised
  obtain ⟨hHeldShare, hReserveShare⟩ := h.shares_nonneg
  have hRows := h.refundable_amounts_le
  refine ⟨?_, ?_, ?_, ?_, ?_⟩
  · calc ((refundable p).map fun r => (refundShares p).heldPart r.1).sum
        ≤ ((refundable p).map fun r => toNumber r.1.amount * (refundShares p).held).sum :=
          sum_floor2_le (fun inv => toNumber inv.amount * (refundShares p).held) _
      _ = toNumber ((refundable p).map fun r => r.1.amount).sum * (refundShares p).held :=
          sum_shares _ _
      _ ≤ toNumber p.raisedAmount * (refundShares p).held :=
          mul_le_mul_of_nonneg_right hRows hHeldShare
      _ = heldFunds p := hHeld
  · calc ((refundable p).map fun r => (refundShares p).reservePart r.1).sum
        ≤ ((refundable p).map fun r => toNumber r.1.amount * (refundShares p).reserve).sum :=
          sum_floor2_le (fun inv => toNumber inv.amount * (refundShares p).reserve) _
      _ = toNumber ((refundable p).map fun r => r.1.amount).sum * (refundShares p).reserve :=
          sum_shares _ _
      _ ≤ toNumber p.raisedAmount * (refundShares p).reserve :=
          mul_le_mul_of_nonneg_right hRows hReserveShare
      _ = reserveLeft p := hReserve
  · intro r hRow
    refine h.refund_le_amount (h.amount_nonneg hRow) ?_
    rw [h.sum]
    refine List.single_le_sum ?_ _ ?_
    · intro n hMem
      obtain ⟨inv, hIn, rfl⟩ := List.mem_map.mp hMem
      exact h.amounts inv hIn
    · exact List.mem_map_of_mem (List.mem_of_getElem? (refundable_spec hRow).2)
  · intro r _
    exact entitlement_sub_lt _ r.1
  · intro hSome hAll
    have hTotal := sum_entitlements_sub_lt (refundShares p) hSome
    have hEntitled : ((refundable p).map fun r => (refundShares p).entitlement r.1).sum =
        heldFunds p + reserveLeft p := by
      have hAmounts : ((refundable p).map fun r => r.1.amount).sum = p.raisedAmount := by
        rw [hAll, h.sum]
        conv_rhs => rw [← List.zipIdx_map_fst 0 p.investments, List.map_map]
        rfl
      unfold Shares.entitlement
      rw [sum_shares, hAmounts, mul_add, hHeld, hReserve]
    rwa [hEntitled] at hTotal

end Parts

section Turns
variable {o : InvestmentId → Outcome} {s s' : Custody} {x : Shares} {r : Investment × InvestmentId}
  {done rest : List (Investment × InvestmentId)}

/-- What holds between two turns. -/
structure Turn (x : Shares) (p : Project) (rows : List (Investment × InvestmentId)) : Prop where
  loop : RefundLoop x p rows
  reserve : p.Reserve
  amounts : ∀ inv ∈ p.investments, 0 ≤ inv.amount

theorem turn_refundTx {outcome : Outcome} (h : Turn x s.project (r :: rest))
    (hRefund : s.refundTx outcome x r.1 r.2 = some s') :
    Turn x s'.project rest ∧
      s'.project.refunds = s.project.refunds ++ x.credited r.2 r.1 := by
  obtain ⟨hRow, hAmount, hFits⟩ := h.loop.head h.amounts
  obtain ⟨n, hn, hProject⟩ := refundTx_form h.reserve h.loop.share hAmount hRow hRefund
  refine ⟨⟨h.loop.tail hn hProject, ?_, ?_⟩, by rw [hProject]; rfl⟩
  · rcases refundTx_cases h.reserve hRefund with rfl | ⟨row, new, _, _, _, hRepays⟩
    · exact h.reserve
    · exact hRepays.reserve ⟨h.reserve.refunded, h.reserve.released, h.reserve.left⟩
  · intro inv hMem
    rw [hProject] at hMem
    obtain ⟨i, hAt⟩ := List.mem_iff_getElem?.mp hMem
    rcases getElem?_modify_cases hAt with ⟨_, old, hOld, rfl⟩ | ⟨_, hOld⟩
    · exact h.amounts old (List.mem_of_getElem? hOld)
    · exact h.amounts inv (List.mem_of_getElem? hOld)

theorem turn_refundRows (h : Turn x s.project (done ++ rest))
    (hRun : s.refundRows o x done = some s') :
    Turn x s'.project rest ∧ s'.project.refunds =
      s.project.refunds ++ done.flatMap fun r => x.credited r.2 r.1 := by
  induction done generalizing s with
  | nil =>
    obtain rfl : s = s' := Option.some.inj hRun
    exact ⟨h, by simp⟩
  | cons r done ih =>
    simp only [Custody.refundRows, List.foldlM_cons, Option.bind_eq_bind,
      Option.bind_eq_some_iff] at hRun
    obtain ⟨s₁, hRefund, hRest⟩ := hRun
    obtain ⟨hTurn, hRefunds⟩ := turn_refundTx h hRefund
    obtain ⟨hEnd, hAll⟩ := ih hTurn hRest
    refine ⟨hEnd, ?_⟩
    rw [hAll, hRefunds, List.flatMap_cons, List.append_assoc]

theorem turn_start (h : s.project.Held) :
    Turn (refundShares s.project) s.project (refundable s.project) :=
  ⟨refundLoop_start h.reserve h.raised_nonneg h.sum h.amounts, h.reserve, h.amounts⟩

/-- The claim on the reserve goes through whenever a turn makes it. -/
theorem Turn.covers (h : Turn x s.project (r :: rest)) (hPart : 0 < x.reservePart r.1) :
    s.project.covers (x.reservePart r.1) := by
  obtain ⟨-, -, hFits⟩ := h.loop.head h.amounts
  refine ⟨hPart, ?_⟩
  rw [Shares.reservePart, ← toNumber_floor2, ← Shares.reservePart, value_add, value_add,
    value_le_value]
  unfold Project.remaining at hFits
  omega

/-- A cancelled project refunds its investors out of what is held and what is left of the reserve: the
reserve is never exhausted, and next to nothing stays behind. -/
theorem cancelled_project_distributes (h : s.project.Held) :
    Distributes s.project (refundShares s.project) (refundable s.project) ∧
      ∀ o done rest s', refundable s.project = done ++ rest →
        s.refundRows o (refundShares s.project) done = some s' →
        (s'.project.refunds = s.project.refunds ++
          done.flatMap fun r => (refundShares s.project).credited r.2 r.1) ∧
        ∀ r ∈ rest.head?, 0 < (refundShares s.project).reservePart r.1 →
          s'.project.covers ((refundShares s.project).reservePart r.1) := by
  refine ⟨h.distributes, ?_⟩
  intro o done rest s' hRows hRun
  obtain ⟨hTurn, hRefunds⟩ := turn_refundRows (hRows ▸ turn_start h) hRun
  refine ⟨hRefunds, ?_⟩
  intro r hHead hPart
  obtain ⟨rest, rfl⟩ := List.head?_eq_some_iff.mp hHead
  exact hTurn.covers hPart

end Turns

/-- Three investors of a cancelled project, 20 FARM of which went to the business. -/
def threeInvestors : Custody where
  project := { sixtyForty.project with
    status := .cancelled
    raisedAmount := Wallets.toUnits (10001 / 100)
    releasedAmount := 20 * farm
    consolidationFee := 15 * farm
    consolidationFeeAt := some 0
    consolidationRefunded := farm
    investments := [⟨5, Wallets.toUnits (3333 / 100), .active⟩,
      ⟨6, Wallets.toUnits (3333 / 100), .active⟩, ⟨7, Wallets.toUnits (3335 / 100), .active⟩] }
  ledger := []

/-- The first two are refunded, and the reserve covers the part of the third. -/
theorem threeInvestors_refunded :
    Distributes threeInvestors.project (refundShares threeInvestors.project)
      (refundable threeInvestors.project) ∧
    ∃ s', threeInvestors.refundRows (fun _ => granted 1) (refundShares threeInvestors.project)
        ((refundable threeInvestors.project).take 2) = some s' ∧
      s'.project.refunds.length = 2 ∧ s'.project.covers (466 / 100) := by
  have hHeld : threeInvestors.project.Held := by
    refine ⟨⟨?_, ?_, ?_⟩, ?_, ?_, ?_, ?_⟩ <;> decide +kernel
  obtain ⟨hDistributes, hTurns⟩ := cancelled_project_distributes hHeld
  have hRun : (threeInvestors.refundRows (fun _ => granted 1) (refundShares threeInvestors.project)
      ((refundable threeInvestors.project).take 2)).isSome = true := by
    decide +kernel
  obtain ⟨s', hTwo⟩ := Option.isSome_iff_exists.mp hRun
  obtain ⟨hRefunds, hThird⟩ := hTurns _ _ ((refundable threeInvestors.project).drop 2) s'
    (List.take_append_drop 2 _).symm hTwo
  have hPart : ∃ r ∈ ((refundable threeInvestors.project).drop 2).head?,
      (refundShares threeInvestors.project).reservePart r.1 = 466 / 100 := by
    decide +kernel
  have hNew : (((refundable threeInvestors.project).take 2).flatMap fun r =>
      (refundShares threeInvestors.project).credited r.2 r.1).length = 2 := by
    decide +kernel
  obtain ⟨r, hHead, hAmount⟩ := hPart
  have hCovers := hThird r hHead (by rw [hAmount]; norm_num)
  rw [hAmount] at hCovers
  refine ⟨hDistributes, s', hTwo, ?_, hCovers⟩
  rw [hRefunds, List.length_append, hNew]
  rfl

end FarmBackend.Projects
