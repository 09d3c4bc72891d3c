import FarmBackend.ProjectPayouts

/-!
# A cancellation refunds every investor

The loop of `refundAll` over rows that nobody else changes: every turn claims its row, and what the
turns pay out of the reserve is within what the reserve has left. A turn fails only for want of a
wallet.
-/

namespace FarmBackend.Projects
open Decimal Wallets Fees Interleaving Rows

set_option autoImplicit false

/-- The rows still to be refunded, while the loop runs alone. -/
structure RefundLoop (x : Shares) (p : Project) (rows : List (Investment × InvestmentId)) : Prop where
  share : 0 ≤ x.reserve
  fits : (rows.map fun r => Wallets.toUnits (x.reservePart r.1)).sum ≤ p.remaining
  current : ∀ r ∈ rows, p.investments[r.2]? = some r.1
  nodup : (rows.map (·.2)).Nodup
  all : ∀ (id : InvestmentId) (inv : Investment), p.investments[id]? = some inv →
    inv.status = .committed → (inv, id) ∈ rows

def Project.hasCommitted (p : Project) : Prop := ∃ inv ∈ p.investments, inv.status = .committed

instance (p : Project) : Decidable p.hasCommitted := inferInstanceAs (Decidable (∃ inv ∈ _, _))

def Shares.refundAmount (x : Shares) (inv : Investment) : ℚ :=
  toFixed 2 (x.heldPart inv + x.reservePart inv)

def walletsFound (o : Outcome) (x : Shares) (inv : Investment) : Bool :=
  decide (0 < x.refundAmount inv → o.activeWallet inv.userId = true ∧
    (0 < x.reservePart inv → o.platform = true))

section Turn
variable {o : Outcome} {s : Custody} {x : Shares} {inv : Investment} {id : InvestmentId}

theorem payFromReserve_succeeds {amount : ℚ} (hWhole : toNumber (Wallets.toUnits amount) = amount)
    (hFits : Wallets.toUnits amount ≤ s.project.remaining)
    (hPlatform : 0 < amount → o.platform = true) : ∃ s', s.payFromReserve o amount = some s' := by
  unfold Custody.payFromReserve
  by_cases hPos : 0 < amount
  · have hCovers : toNumber s.project.consolidationRefunded +
        toNumber s.project.consolidationReleased + amount ≤ toNumber s.project.consolidationFee := by
      rw [← hWhole, value_add, value_add, value_le_value]
      unfold Project.remaining at hFits
      omega
    rw [if_pos hPos, if_pos ⟨hCovers, hPlatform hPos⟩]
    exact ⟨_, rfl⟩
  · rw [if_neg hPos]
    exact ⟨s, rfl⟩

theorem reservePart_nonneg (hShare : 0 ≤ x.reserve) (hAmount : 0 ≤ inv.amount) :
    0 ≤ x.reservePart inv := by
  have hNumber : 0 ≤ toNumber inv.amount := value_nonneg.mpr hAmount
  unfold Shares.reservePart floor2
  have hFloor : 0 ≤ ⌊toNumber inv.amount * x.reserve * 100⌋ := Int.floor_nonneg.mpr (by positivity)
  have hCast : (0 : ℚ) ≤ ⌊toNumber inv.amount * x.reserve * 100⌋ := by exact_mod_cast hFloor
  positivity

theorem refundTx_current (hRow : s.project.investments[id]? = some inv) :
    s.refundTx o x inv id =
      (s.investmentsUpdate id (Investment.claimed x)).refundMoney o x id inv := by
  simp only [Custody.refundTx, hRow, if_true]
  rfl

theorem refundTx_succeeds (hRow : s.project.investments[id]? = some inv)
    (hFits : Wallets.toUnits (x.reservePart inv) ≤ s.project.remaining)
    (hWallets : walletsFound o x inv = true) : ∃ s', s.refundTx o x inv id = some s' := by
  rw [refundTx_current hRow]
  unfold Custody.refundMoney
  dsimp only
  by_cases hPos : 0 < toFixed 2 (x.heldPart inv + x.reservePart inv)
  · obtain ⟨hWallet, hPlatform⟩ := of_decide_eq_true hWallets hPos
    rw [if_pos hPos, Custody.creditInvestor, if_pos hWallet]
    exact payFromReserve_succeeds (toNumber_floor2 _) hFits hPlatform
  · rw [if_neg hPos]
    exact ⟨_, rfl⟩

/-- The refunds of one turn. -/
def Shares.credited (x : Shares) (id : InvestmentId) (inv : Investment) : List Refund :=
  if 0 < x.refundAmount inv then [x.refund id inv] else []

/-- A turn that commits has found the wallets it needs. -/
theorem walletsFound_of_refundTx {s' : Custody} (hRow : s.project.investments[id]? = some inv)
    (h : s.refundTx o x inv id = some s') : walletsFound o x inv = true := by
  refine decide_eq_true fun hPos => ?_
  have hSome : 0 < toFixed 2 (x.heldPart inv + x.reservePart inv) := hPos
  rw [refundTx_current hRow, Custody.refundMoney] at h
  simp only [hSome, if_true, Option.bind_eq_bind, Option.bind_eq_some_iff, Custody.creditInvestor,
    Option.ite_none_right_eq_some] at h
  obtain ⟨s₁, ⟨hWallet, -⟩, hPay⟩ := h
  refine ⟨hWallet, fun hReserve => ?_⟩
  rw [Custody.payFromReserve, if_pos hReserve, Option.ite_none_right_eq_some] at hPay
  exact hPay.1.2

/-- What a turn leaves when nobody else has changed its row. -/
theorem refundTx_form {s' : Custody} (hReserve : s.project.Reserve) (hShare : 0 ≤ x.reserve)
    (hAmount : 0 ≤ inv.amount) (hRow : s.project.investments[id]? = some inv)
    (h : s.refundTx o x inv id = some s') :
    ∃ n, n ≤ Wallets.toUnits (x.reservePart inv) ∧
      s'.project = (s.investmentsUpdate id (Investment.claimed x)).project.repaid
        (x.credited id inv) n := by
  have hUnits : 0 ≤ Wallets.toUnits (x.reservePart inv) :=
    column_nonneg (reservePart_nonneg hShare hAmount)
  rw [refundTx_current hRow, Custody.refundMoney] at h
  unfold Shares.credited Shares.refundAmount
  split at h
  · rename_i hPos
    rw [if_pos hPos]
    simp only [Option.bind_eq_bind, Option.bind_eq_some_iff] at h
    obtain ⟨s₁, hCredit, hPay⟩ := h
    obtain ⟨hProject, _⟩ := creditInvestor_spec hCredit
    rcases payFromReserve_cases hPay with rfl | ⟨hCovers, hPaid, _⟩
    · refine ⟨0, hUnits, ?_⟩
      rw [hProject]
      simp only [Project.repaid, add_zero]
      rfl
    · have hReserve₁ : s₁.project.Reserve := by
        rw [hProject]
        exact ⟨hReserve.refunded, hReserve.released, hReserve.left⟩
      refine ⟨Wallets.toUnits (x.reservePart inv), le_refl _, ?_⟩
      rw [hPaid, (hReserve₁.covers hCovers).2.2.1, hProject]
      simp only [Project.repaid, List.append_nil]
      rfl
  · rename_i hNone
    rw [if_neg hNone]
    simp only [Option.some.injEq] at h
    subst h
    refine ⟨0, hUnits, ?_⟩
    simp only [Project.repaid, List.append_nil, add_zero]

end Turn

section Loop
variable {x : Shares} {p p' : Project} {inv : Investment} {id : InvestmentId}
  {rows : List (Investment × InvestmentId)}

theorem RefundLoop.done (h : RefundLoop x p []) : ¬p.hasCommitted := by
  rintro ⟨inv, hMem, hCommitted⟩
  obtain ⟨id, hAt⟩ := List.mem_iff_getElem?.mp hMem
  cases h.all id inv hAt hCommitted

theorem RefundLoop.head (h : RefundLoop x p ((inv, id) :: rows))
    (hAmounts : ∀ inv ∈ p.investments, 0 ≤ inv.amount) :
    p.investments[id]? = some inv ∧ 0 ≤ inv.amount ∧
      Wallets.toUnits (x.reservePart inv) ≤ p.remaining := by
  have hRow := h.current (inv, id) List.mem_cons_self
  have hFits := h.fits
  rw [List.map_cons, List.sum_cons] at hFits
  dsimp only at hFits
  have hRest : 0 ≤ (rows.map fun r => Wallets.toUnits (x.reservePart r.1)).sum := by
    refine List.sum_nonneg ?_
    intro n hMem
    obtain ⟨r, hIn, rfl⟩ := List.mem_map.mp hMem
    have hAt := h.current r (List.mem_cons_of_mem _ hIn)
    exact column_nonneg (reservePart_nonneg h.share (hAmounts r.1 (List.mem_of_getElem? hAt)))
  exact ⟨hRow, hAmounts inv (List.mem_of_getElem? hRow), by omega⟩

theorem RefundLoop.tail (h : RefundLoop x p ((inv, id) :: rows)) {new : List Refund} {n : ℤ}
    (hn : n ≤ Wallets.toUnits (x.reservePart inv))
    (hProject : p' = ({ p with investments := p.investments.modify id (Investment.claimed x) }
      : Project).repaid new n) : RefundLoop x p' rows := by
  obtain ⟨hShare, hFits, hCurrent, hNodup, hAll⟩ := h
  rw [List.map_cons, List.nodup_cons] at hNodup
  rw [List.map_cons, List.sum_cons] at hFits
  subst hProject
  refine ⟨hShare, ?_, ?_, hNodup.2, ?_⟩
  · simp only [Project.remaining, Project.repaid] at hFits ⊢
    omega
  · intro r hMem
    have hNe : id ≠ r.2 := by
      rintro rfl
      exact hNodup.1 (List.mem_map.mpr ⟨r, hMem, rfl⟩)
    exact (getElem?_modify_ne _ hNe).trans (hCurrent r (List.mem_cons_of_mem _ hMem))
  · intro i other hAt hCommitted
    rcases getElem?_modify_cases hAt with ⟨_, old, _, rfl⟩ | ⟨hNe, hOld⟩
    · -- a claimed row is committed no more
      have hRefunded := refundedStatus_isRefunded x
      have hStatus : Custody.refundedStatus x = .committed := hCommitted
      rw [hStatus] at hRefunded
      cases hRefunded
    · rcases List.mem_cons.mp (hAll i other hOld hCommitted) with hHead | hTail
      · cases hHead
        exact absurd rfl hNe
      · exact hTail

/-- The share of the reserve that all rows have is what the reserve has left. -/
theorem reserve_share (hReserve : p.Reserve) (hRaised : 0 ≤ p.raisedAmount) :
    0 ≤ (refundShares p).reserve ∧
      (refundShares p).reserve * toNumber p.raisedAmount ≤ toNumber p.remaining := by
  have hNumber : 0 ≤ toNumber p.raisedAmount := value_nonneg.mpr hRaised
  have hLeft : reserveLeft p = toNumber p.remaining := by
    simp only [reserveLeft, value_sub]
    exact max_eq_right (value_nonneg.mpr hReserve.remaining_nonneg)
  have hRemaining : 0 ≤ toNumber p.remaining := value_nonneg.mpr hReserve.remaining_nonneg
  simp only [refundShares, hLeft]
  split
  · rename_i hPos
    have hPosNumber : 0 < toNumber p.raisedAmount := value_pos.mpr hPos
    exact ⟨div_nonneg hRemaining hNumber, (div_mul_cancel₀ _ hPosNumber.ne').le⟩
  · exact ⟨le_refl 0, by rwa [zero_mul]⟩

theorem refundable_amounts (hAmounts : ∀ inv ∈ p.investments, 0 ≤ inv.amount) :
    ((refundable p).map fun r => r.1.amount).sum ≤ (p.investments.map (·.amount)).sum := by
  have hAll : (p.investments.zipIdx.map fun r => r.1.amount) = p.investments.map (·.amount) := by
    rw [← List.zipIdx_map_fst 0 p.investments, List.map_map]
    simp
  rw [← hAll]
  refine List.Sublist.sum_le_sum (List.filter_sublist.map _) ?_
  intro n hMem
  rw [hAll] at hMem
  obtain ⟨inv, hIn, rfl⟩ := List.mem_map.mp hMem
  exact hAmounts inv hIn

/-- All turns together pay no more than the reserve has left. -/
theorem refund_parts_fit (hReserve : p.Reserve) (hRaised : 0 ≤ p.raisedAmount)
    (hSum : p.raisedAmount = (p.investments.map (·.amount)).sum)
    (hAmounts : ∀ inv ∈ p.investments, 0 ≤ inv.amount) :
    ((refundable p).map fun r => Wallets.toUnits ((refundShares p).reservePart r.1)).sum ≤
      p.remaining := by
  obtain ⟨hShare, hTotal⟩ := reserve_share hReserve hRaised
  have hParts : ∀ rows : List (Investment × InvestmentId),
      toNumber (rows.map fun r => Wallets.toUnits ((refundShares p).reservePart r.1)).sum ≤
        (refundShares p).reserve * toNumber (rows.map fun r => r.1.amount).sum := by
    intro rows
    induction rows with
    | nil => simp
    | cons r rows ih =>
      rw [List.map_cons, List.sum_cons, List.map_cons, List.sum_cons, toNumber_add, toNumber_add,
        mul_add]
      refine add_le_add ?_ ih
      rw [Shares.reservePart, toNumber_floor2]
      exact (floor2_le _).trans (mul_comm _ _).le
  have hRows : toNumber ((refundable p).map fun r => r.1.amount).sum ≤ toNumber p.raisedAmount := by
    rw [value_le_value, hSum]
    exact refundable_amounts hAmounts
  rw [← @value_le_value 8]
  calc toNumber ((refundable p).map fun r =>
        Wallets.toUnits ((refundShares p).reservePart r.1)).sum
      ≤ (refundShares p).reserve * toNumber ((refundable p).map fun r => r.1.amount).sum :=
        hParts _
    _ ≤ (refundShares p).reserve * toNumber p.raisedAmount :=
        mul_le_mul_of_nonneg_left hRows hShare
    _ ≤ toNumber p.remaining := hTotal

theorem refundLoop_start (hReserve : p.Reserve) (hRaised : 0 ≤ p.raisedAmount)
    (hSum : p.raisedAmount = (p.investments.map (·.amount)).sum)
    (hAmounts : ∀ inv ∈ p.investments, 0 ≤ inv.amount) :
    RefundLoop (refundShares p) p (refundable p) where
  share := (reserve_share hReserve hRaised).1
  fits := refund_parts_fit hReserve hRaised hSum hAmounts
  current _ hMem := (refundable_spec hMem).2
  nodup := by
    refine List.Nodup.sublist (List.filter_sublist.map _) ?_
    rw [List.zipIdx_map_snd]
    exact List.nodup_range'
  all := by
    intro id inv hAt hCommitted
    exact List.mem_filter.mpr ⟨List.mem_zipIdx_iff_getElem?.mpr hAt, by simp [hCommitted]⟩

end Loop

end FarmBackend.Projects
