import FarmBackend.ProjectReserve

/-!
# What is paid out of a project against what was invested in it

Three things are paid out of a project's custody: the fee, the milestones, and on cancellation the
held parts of the investors' money. The share of a refund is computed from a row that is read
once. It stays right as long as no milestone is paid after the cancellation, which the transaction
of a release does not check.
-/

namespace FarmBackend.Projects
open Decimal Wallets Fees Interleaving Rows

set_option autoImplicit false

def Project.refundedHeld (p : Project) : ℤ := (p.refunds.map (·.heldPart)).sum

def Project.paidTotal (p : Project) : ℤ := p.releasedAmount + p.refundedHeld + p.consolidationFee

def InvestmentStatus.isRefunded : InvestmentStatus → Bool
  | .refunded | .partiallyRefunded => true
  | _ => false

def Investment.refundedAmount (inv : Investment) : ℤ := if inv.status.isRefunded then inv.amount else 0

/-- What the investors had invested who have been refunded. -/
def Project.refundedRows (p : Project) : ℤ := (p.investments.map Investment.refundedAmount).sum

/-- The held parts are within the share that the columns give to the refunded rows. -/
structure Project.Solvent (p : Project) : Prop where
  sum : p.raisedAmount = (p.investments.map (·.amount)).sum
  amounts : ∀ inv ∈ p.investments, 0 ≤ inv.amount
  fee : p.consolidationFee ≤ p.raisedAmount
  prompt : p.status = .funded → p.consolidationFeeAt ≠ none
  nothing : p.status ≠ .cancelled → p.refundedHeld = 0
  held : toNumber p.refundedHeld ≤ (refundShares p).held * toNumber p.refundedRows

section Shares
variable {p p' : Project}

theorem floor2_le (x : ℚ) : floor2 x ≤ x := by
  unfold floor2
  rw [div_le_iff₀ (by norm_num)]
  exact Int.floor_le _

theorem toNumber_floor2 (x : ℚ) : toNumber (Wallets.toUnits (floor2 x)) = floor2 x := by
  have hUnits : floor2 x = toNumber (⌊x * 100⌋ * 10 ^ 6) := by
    simp only [floor2, toNumber, value]
    push_cast
    ring
  rw [hUnits, toUnits_toNumber]

theorem heldFunds_nonneg (p : Project) : 0 ≤ heldFunds p := le_max_left _ _

theorem share_nonneg (h : 0 ≤ p.raisedAmount) : 0 ≤ (refundShares p).held := by
  have hRaised : 0 ≤ toNumber p.raisedAmount := value_nonneg.mpr h
  simp only [refundShares]
  split
  · exact le_min zero_le_one (div_nonneg (heldFunds_nonneg p) hRaised)
  · exact zero_le_one

/-- The share of all that was raised is no more than what is held. -/
theorem share_mul_raised (h : 0 < p.raisedAmount) :
    (refundShares p).held * toNumber p.raisedAmount ≤ heldFunds p := by
  have hRaised : 0 < toNumber p.raisedAmount := value_pos.mpr h
  simp only [refundShares, if_pos h]
  calc min 1 (heldFunds p / toNumber p.raisedAmount) * toNumber p.raisedAmount
      ≤ heldFunds p / toNumber p.raisedAmount * toNumber p.raisedAmount :=
        mul_le_mul_of_nonneg_right (min_le_right _ _) hRaised.le
    _ = heldFunds p := div_mul_cancel₀ _ hRaised.ne'

theorem share_congr (hRaised : p'.raisedAmount = p.raisedAmount)
    (hReleased : p'.releasedAmount = p.releasedAmount)
    (hFee : p'.consolidationFee = p.consolidationFee) :
    (refundShares p').held = (refundShares p).held := by
  simp only [refundShares, heldFunds, hRaised, hReleased, hFee]

theorem refundedRows_nonneg (h : ∀ inv ∈ p.investments, 0 ≤ inv.amount) : 0 ≤ p.refundedRows := by
  refine List.sum_nonneg ?_
  intro n hMem
  obtain ⟨inv, hIn, rfl⟩ := List.mem_map.mp hMem
  unfold Investment.refundedAmount
  split
  · exact h inv hIn
  · exact le_refl 0

theorem Project.Solvent.rows_le (h : p.Solvent) : p.refundedRows ≤ p.raisedAmount := by
  rw [h.sum]
  refine List.sum_le_sum ?_
  intro inv hMem
  unfold Investment.refundedAmount
  split
  · exact le_refl _
  · exact h.amounts inv hMem

/-- What the claim is about, read off the columns. -/
theorem Project.Solvent.paidTotal_le (h : p.Solvent) (hCoherent : p.Coherent) :
    p.paidTotal ≤ p.raisedAmount := by
  have hFee := h.fee
  have hWithin := hCoherent.within
  have hRows := h.rows_le
  rw [max_eq_right (by omega)] at hWithin
  have hHeld := h.held
  unfold Project.paidTotal
  rcases hCoherent.raised.lt_or_eq with hPos | hZero
  · have hShare : toNumber p.refundedHeld ≤ heldFunds p :=
      calc toNumber p.refundedHeld
          ≤ (refundShares p).held * toNumber p.refundedRows := hHeld
        _ ≤ (refundShares p).held * toNumber p.raisedAmount :=
          mul_le_mul_of_nonneg_left (value_le_value.mpr hRows) (share_nonneg hCoherent.raised)
        _ ≤ heldFunds p := share_mul_raised hPos
    have hFunds : heldFunds p =
        toNumber (p.raisedAmount - p.consolidationFee - p.releasedAmount) := by
      simp only [heldFunds, value_sub]
      exact max_eq_right (value_nonneg.mpr (by omega))
    rw [hFunds, value_le_value] at hShare
    omega
  · -- nothing was raised, so nothing was refunded either
    have hRowsZero : p.refundedRows = 0 := le_antisymm (by omega) (refundedRows_nonneg h.amounts)
    rw [hRowsZero, toNumber_zero, mul_zero, ← toNumber_zero, value_le_value] at hHeld
    omega

/-- Nothing has been refunded, so the share does not matter. -/
theorem held_of_nothing (hRaised : 0 ≤ p.raisedAmount)
    (hAmounts : ∀ inv ∈ p.investments, 0 ≤ inv.amount) (hNothing : p.refundedHeld = 0) :
    toNumber p.refundedHeld ≤ (refundShares p).held * toNumber p.refundedRows := by
  rw [hNothing, toNumber_zero]
  exact mul_nonneg (share_nonneg hRaised) (value_nonneg.mpr (refundedRows_nonneg hAmounts))

/-- A write on columns that the refunds do not depend on. -/
theorem Project.Solvent.of_eq (h : p.Solvent) (hStatus : p'.status = p.status)
    (hRaised : p'.raisedAmount = p.raisedAmount) (hReleased : p'.releasedAmount = p.releasedAmount)
    (hAt : p'.consolidationFeeAt = p.consolidationFeeAt)
    (hFee : p'.consolidationFee = p.consolidationFee) (hRows : p'.investments = p.investments)
    (hHeld : p'.refundedHeld = p.refundedHeld) : p'.Solvent where
  sum := by rw [hRaised, hRows]; exact h.sum
  amounts := by rw [hRows]; exact h.amounts
  fee := by rw [hFee, hRaised]; exact h.fee
  prompt := by rw [hStatus, hAt]; exact h.prompt
  nothing := by rw [hStatus, hHeld]; exact h.nothing
  held := by
    have hSame : p'.refundedRows = p.refundedRows := by
      unfold Project.refundedRows
      rw [hRows]
    rw [hHeld, share_congr hRaised hReleased hFee, hSame]
    exact h.held

end Shares

/-- What a call relies on that is about to close a round or to refund an investor. -/
def Refunding (s : Custody) : Call → Prop
  | .closeRead _ => s.project.status = .closed
  | .closeTx _ _ => s.project.status = .closed
  | .refundRows x => x.held = (refundShares s.project).held
  | .refundEach x rows => x.held = (refundShares s.project).held ∧ ∀ r ∈ rows,
      r.1.status.isRefunded = false ∧
        ∃ row, s.project.investments[r.2]? = some row ∧ row.amount = r.1.amount
  | _ => True

/-- Other steps keep the share of a cancelled project and the amounts of its investments. -/
structure Project.Steady (p p' : Project) : Prop where
  share : p.status = .cancelled → (refundShares p').held = (refundShares p).held
  amounts : ∀ (id : InvestmentId) (row : Investment), p.investments[id]? = some row →
    ∃ row', p'.investments[id]? = some row' ∧ row'.amount = row.amount

theorem Refunding.steady {s s' : Custody} {c : Call} (h : Refunding s c) (hPending : Pending s c)
    (hLater : s.project.Later s'.project) (hSteady : s.project.Steady s'.project) :
    Refunding s' c := by
  cases c with
  | closeRead resume => exact hLater.closed h
  | closeTx fee resume => exact hLater.closed h
  | refundRows x => exact h.trans (hSteady.share hPending).symm
  | refundEach x rows =>
    refine ⟨h.1.trans (hSteady.share hPending).symm, ?_⟩
    intro r hMem
    obtain ⟨hOpen, row, hRow, hAmount⟩ := h.2 r hMem
    obtain ⟨row', hRow', hAmount'⟩ := hSteady.amounts r.2 row hRow
    exact ⟨hOpen, row', hRow', hAmount'.trans hAmount⟩
  | _ => trivial

/-- The listing fee of a round that ends with this step is at most what was raised. -/
def feeWithin (o : Outcome) (s : Custody) : Call → Bool
  | .investTx r =>
    let raised := Wallets.toUnits (toNumber s.project.raisedAmount + r.amount)
    decide (Custody.listingFee o.listing raised ≤ toNumber raised)
  | .closeTx fee _ => decide (fee ≤ toNumber s.project.raisedAmount)
  | _ => true

def notCancelled (s : Custody) : Call → Bool
  | .releaseTx _ => decide (s.project.status ≠ .cancelled)
  | _ => true

abbrev Orderly : Guard Custody Call Outcome := fun o s c =>
  feeWithin o s c = true ∧ notCancelled s c = true

section Steps
variable {o : Outcome} {s s' : Custody} {c c' : Call}

theorem Project.Steady.refl (p : Project) : p.Steady p :=
  ⟨fun _ => rfl, fun _ row hRow => ⟨row, hRow, rfl⟩⟩

/-- A write that touches neither the three columns nor the investments. -/
theorem Project.Steady.of_eq {p p' : Project} (hRaised : p'.raisedAmount = p.raisedAmount)
    (hReleased : p'.releasedAmount = p.releasedAmount)
    (hFee : p'.consolidationFee = p.consolidationFee) (hRows : p'.investments = p.investments) :
    p.Steady p' :=
  ⟨fun _ => share_congr hRaised hReleased hFee, by rw [hRows]; exact (Project.Steady.refl p).amounts⟩

theorem refundedHeld_repaid (new : List Refund) (n : ℤ) (p : Project) :
    (p.repaid new n).refundedHeld = p.refundedHeld + (new.map (·.heldPart)).sum := by
  simp [Project.refundedHeld, Project.repaid]

theorem solvent_loss (h : s.project.Solvent) {new : List Refund} (hZero : ∀ r ∈ new, r.heldPart = 0)
    (hRepays : Repays new s s') :
    s'.project.Solvent ∧ s.project.Steady s'.project := by
  obtain ⟨n, _, _, hProject, _⟩ := hRepays
  have hSum : (new.map (·.heldPart)).sum = 0 := by
    refine List.sum_eq_zero ?_
    intro part hMem
    obtain ⟨r, hIn, rfl⟩ := List.mem_map.mp hMem
    exact hZero r hIn
  have hHeld : (s.project.repaid new n).refundedHeld = s.project.refundedHeld := by
    rw [refundedHeld_repaid, hSum, add_zero]
  rw [hProject]
  exact ⟨h.of_eq rfl rfl rfl rfl rfl rfl hHeld, .of_eq rfl rfl rfl rfl⟩

theorem solvent_charge {fee : ℚ} (hCharge : s.chargeClaim o fee = some s') (hFee : 0 ≤ fee)
    (hWithin : fee ≤ toNumber s.project.raisedAmount) (hSum : s.project.raisedAmount =
      (s.project.investments.map (·.amount)).sum)
    (hAmounts : ∀ inv ∈ s.project.investments, 0 ≤ inv.amount)
    (hOld : s.project.consolidationFee ≤ s.project.raisedAmount)
    (hRaised : 0 ≤ s.project.raisedAmount) (hNothing : s.project.refundedHeld = 0) :
    s'.project.Solvent ∧ s'.project.investments = s.project.investments := by
  have hNone := held_of_nothing hRaised hAmounts hNothing
  rcases chargeClaim_cases hFee hCharge with ⟨hSet, rfl⟩ | ⟨_, hProject, _⟩
  · exact ⟨⟨hSum, hAmounts, hOld, fun _ => hSet, fun _ => hNothing, hNone⟩, rfl⟩
  · have hUnits : Wallets.toUnits fee ≤ s.project.raisedAmount := by
      have hMono : Wallets.toUnits fee ≤ Wallets.toUnits (toNumber s.project.raisedAmount) :=
        column_mono hWithin
      rwa [toUnits_toNumber] at hMono
    rw [hProject]
    refine ⟨⟨hSum, hAmounts, hUnits, fun _ => Option.some_ne_none _, fun _ => hNothing, ?_⟩, rfl⟩
    exact held_of_nothing hRaised hAmounts hNothing

theorem amounts_append {rows : List Investment} {new : Investment}
    (h : ∀ inv ∈ rows, 0 ≤ inv.amount) (hNew : 0 ≤ new.amount) :
    ∀ inv ∈ rows ++ [new], 0 ≤ inv.amount := by
  intro inv hMem
  rcases List.mem_append.mp hMem with hOld | hLast
  · exact h inv hOld
  · rw [List.mem_singleton.mp hLast]
    exact hNew

theorem solvent_invest (hCoherent : s.project.Coherent) (h : s.project.Solvent) {r : Invest}
    {s₁ : Custody} (hPos : 0 < r.amount) (hOk : feeWithin o s (.investTx r) = true)
    (hRow : s.investRow o r.userId r.amount = some s₁) (hRound : s₁.fundIfReached o = some s') :
    s'.project.Solvent ∧ s.project.Steady s'.project := by
  obtain ⟨hStatus, _, hProject, _⟩ := investRow_spec hRow
  have hOpen : s.project.status ≠ .cancelled := by
    intro hCancelled
    rw [hCancelled] at hStatus
    exact absurd hStatus (by decide)
  have hUnits : 0 ≤ Wallets.toUnits r.amount := column_nonneg hPos.le
  have hRaised : s₁.project.raisedAmount = s.project.raisedAmount + Wallets.toUnits r.amount := by
    rw [hProject]
    exact toUnits_add hCoherent.raised hPos.le
  have hFeeOld : s₁.project.consolidationFee ≤ s₁.project.raisedAmount := by
    have hOld := h.fee
    rw [hRaised, hProject]
    simp only [Project.invested]
    omega
  have hRaised₁ : 0 ≤ s₁.project.raisedAmount := by
    have hOld := hCoherent.raised
    omega
  have hSum : s₁.project.raisedAmount = (s₁.project.investments.map (·.amount)).sum := by
    rw [hRaised, h.sum, hProject]
    simp [Project.invested]
  have hAmounts : ∀ inv ∈ s₁.project.investments, 0 ≤ inv.amount := by
    rw [hProject]
    exact amounts_append h.amounts hUnits
  have hNothing : s₁.project.refundedHeld = 0 := by
    rw [hProject]
    exact h.nothing hOpen
  have hGrows : ∀ (id : InvestmentId) (row : Investment), s.project.investments[id]? = some row →
      s₁.project.investments[id]? = some row := by
    intro id row hAt
    rw [hProject]
    exact getElem?_append_of_some hAt
  rcases fundIfReached_cases hRound with rfl | hCharge
  · refine ⟨⟨hSum, hAmounts, hFeeOld, ?_, fun _ => hNothing,
      held_of_nothing hRaised₁ hAmounts hNothing⟩, fun hCancelled => absurd hCancelled hOpen, ?_⟩
    · rw [hProject]
      exact h.prompt
    · intro id row hAt
      exact ⟨row, hGrows id row hAt, rfl⟩
  · have hWithin : Custody.listingFee o.listing s₁.project.raisedAmount ≤
        toNumber s₁.project.raisedAmount := by
      rw [hProject]
      exact of_decide_eq_true hOk
    obtain ⟨hSolvent, hRows⟩ := solvent_charge hCharge (listingFee_nonneg _ _) hWithin hSum hAmounts
      hFeeOld hRaised₁ hNothing
    refine ⟨hSolvent, fun hCancelled => absurd hCancelled hOpen, ?_⟩
    intro id row hAt
    exact ⟨row, by rw [hRows]; exact hGrows id row hAt, rfl⟩

theorem refundedStatus_isRefunded (x : Shares) : (Custody.refundedStatus x).isRefunded = true := by
  unfold Custody.refundedStatus
  split <;> rfl

/-- One investor's refund stays within the share of what that investor had invested. -/
theorem solvent_refund (hCoherent : s.project.Coherent) (h : s.project.Solvent) {x : Shares}
    {inv : Investment} {id : InvestmentId} {rows : List (Investment × InvestmentId)}
    (hCancelled : s.project.status = .cancelled)
    (hRefunding : Refunding s (.refundEach x ((inv, id) :: rows)))
    (hRefund : s.refundTx o x inv id = some s') :
    s'.project.Solvent ∧ s.project.Steady s'.project := by
  obtain ⟨hShare, hRows⟩ := hRefunding
  obtain ⟨hOpen, row, hRow, hAmount⟩ := hRows (inv, id) List.mem_cons_self
  dsimp only at hOpen hRow hAmount
  rcases refundTx_cases hCoherent.reserve hRefund with rfl | ⟨found, new, hFound, hStatus, hNew, hRepays⟩
  · exact ⟨h, .refl _⟩
  obtain rfl : row = found := by simpa [hRow] using hFound
  have hNonneg : 0 ≤ row.amount := h.amounts row (List.mem_of_getElem? hRow)
  obtain ⟨n, _, _, hProject, _⟩ := hRepays
  let p₁ : Project := { s.project with
    investments := s.project.investments.modify id (Investment.claimed x) }
  have hSum : (p₁.investments.map (·.amount)).sum = (s.project.investments.map (·.amount)).sum := by
    rw [sum_map_modify (·.amount) (Investment.claimed x) hRow]
    simp [Investment.claimed]
  have hRefunded : p₁.refundedRows = s.project.refundedRows + row.amount := by
    have hWas : row.refundedAmount = 0 := by simp [Investment.refundedAmount, hStatus, hOpen]
    have hIs : (row.claimed x).refundedAmount = row.amount := by
      simp [Investment.refundedAmount, Investment.claimed, refundedStatus_isRefunded]
    unfold Project.refundedRows
    rw [sum_map_modify Investment.refundedAmount (Investment.claimed x) hRow, hWas, hIs, sub_zero]
  have hPart : toNumber ((new.map (·.heldPart)).sum) ≤
      (refundShares s.project).held * toNumber row.amount := by
    have hProduct : 0 ≤ (refundShares s.project).held * toNumber row.amount :=
      mul_nonneg (share_nonneg hCoherent.raised) (value_nonneg.mpr hNonneg)
    rcases hNew with rfl | rfl
    · rw [List.map_nil, List.sum_nil, toNumber_zero]
      exact hProduct
    · rw [List.map_singleton, List.sum_singleton]
      simp only [Shares.refund, Shares.heldPart, toNumber_floor2]
      calc floor2 (toNumber inv.amount * x.held)
          ≤ toNumber inv.amount * x.held := floor2_le _
        _ = (refundShares s.project).held * toNumber row.amount := by rw [hShare, hAmount, mul_comm]
  have hAll : s'.project = p₁.repaid new n := hProject
  have hHeld := refundedHeld_repaid new n p₁
  rw [hAll]
  refine ⟨⟨?_, ?_, h.fee, ?_, fun hNot => absurd hCancelled hNot, ?_⟩,
    fun _ => share_congr rfl rfl rfl, ?_⟩
  · exact h.sum.trans hSum.symm
  · intro inv' hMem
    obtain ⟨i, hAt⟩ := List.mem_iff_getElem?.mp hMem
    rcases getElem?_modify_cases hAt with ⟨_, old, hOld, rfl⟩ | ⟨_, hOld⟩
    · exact h.amounts old (List.mem_of_getElem? hOld)
    · exact h.amounts inv' (List.mem_of_getElem? hOld)
  · exact h.prompt
  · have hSame : (refundShares (p₁.repaid new n)).held = (refundShares s.project).held :=
      share_congr rfl rfl rfl
    have hRowsAll : (p₁.repaid new n).refundedRows = s.project.refundedRows + row.amount := hRefunded
    have hOld : p₁.refundedHeld = s.project.refundedHeld := rfl
    rw [hSame, hHeld, hOld, hRowsAll, toNumber_add, toNumber_add, mul_add]
    exact add_le_add h.held hPart
  · intro i old hAt
    have hMove : Related (fun a b : Investment => b.amount = a.amount) s.project.investments
        p₁.investments := related_modify (fun _ => rfl) (fun _ _ => rfl)
    exact hMove.forward hAt

theorem activate_refundedAmount (inv : Investment) :
    inv.activate.refundedAmount = inv.refundedAmount ∧ inv.activate.amount = inv.amount := by
  unfold Investment.activate
  split
  · rename_i hCommitted
    exact ⟨by simp [Investment.refundedAmount, hCommitted, InvestmentStatus.isRefunded], rfl⟩
  · exact ⟨rfl, rfl⟩

theorem solvent_release (hCoherent : s.project.Coherent) (h : s.project.Solvent)
    {plan : ReleasePlan} (hNot : s.project.status ≠ .cancelled)
    (hRelease : s.releaseTx plan = some s') :
    s'.project.Solvent ∧ s.project.Steady s'.project := by
  obtain ⟨_, _, hProject, _⟩ := releaseTx_spec hRelease
  have hNothing : (s.project.released plan).refundedHeld = 0 := h.nothing hNot
  have hAmounts : ∀ inv ∈ (s.project.released plan).investments, 0 ≤ inv.amount := by
    intro inv hMem
    obtain ⟨old, hOld, rfl⟩ := List.mem_map.mp hMem
    rw [(activate_refundedAmount old).2]
    exact h.amounts old hOld
  rw [hProject]
  refine ⟨⟨?_, hAmounts, h.fee, h.prompt, fun _ => hNothing,
    held_of_nothing hCoherent.raised hAmounts hNothing⟩,
    fun hCancelled => absurd hCancelled hNot, ?_⟩
  · refine h.sum.trans (congrArg List.sum ?_)
    simp only [Project.released, List.map_map]
    exact (List.map_congr_left fun inv _ => (activate_refundedAmount inv).2).symm
  · intro id row hRow
    have hMove : Related (fun a b : Investment => b.amount = a.amount) s.project.investments
        (s.project.released plan).investments :=
      related_map (fun inv => (activate_refundedAmount inv).2) _
    exact hMove.forward hRow

theorem solvent_of_wrote (hCoherent : s.project.Coherent) (h : s.project.Solvent)
    (hPending : Pending s c) (hRefunding : Refunding s c) (hOk : Orderly o s c)
    (hWrote : Wrote o s c s') : s'.project.Solvent ∧ s.project.Steady s'.project := by
  cases hWrote with
  | still => exact ⟨h, .refl _⟩
  | invest hRow hRound => exact solvent_invest hCoherent h hPending hOk.1 hRow hRound
  | transition t =>
    obtain ⟨_, _, hNot, hFunded⟩ := transition_ended hPending
    have hNothing := h.nothing hNot
    refine ⟨?_, .of_eq rfl rfl rfl rfl⟩
    exact { h with
      prompt := fun hStatus => absurd hStatus hFunded
      nothing := fun _ => hNothing
      held := h.held }
  | charge hCharge =>
    -- the round is closed, so nobody has been refunded
    have hClosed : s.project.status = .closed := hRefunding
    have hNot : s.project.status ≠ .cancelled := by simp [hClosed]
    obtain ⟨hSolvent, hRows⟩ := solvent_charge hCharge hPending.2.1 (of_decide_eq_true hOk.1) h.sum
      h.amounts h.fee hCoherent.raised (h.nothing hNot)
    refine ⟨hSolvent, fun hCancelled => absurd hCancelled hNot, ?_⟩
    intro id row hAt
    exact ⟨row, by rw [hRows]; exact hAt, rfl⟩
  | refund hRefund => exact solvent_refund hCoherent h hPending hRefunding hRefund
  | release hPos hRelease =>
    exact solvent_release hCoherent h (of_decide_eq_true hOk.2) hRelease
  | request hRow hOpen => exact ⟨h.of_eq rfl rfl rfl rfl rfl rfl rfl, .of_eq rfl rfl rfl rfl⟩
  | returned hRow hRequested => exact ⟨h.of_eq rfl rfl rfl rfl rfl rfl rfl, .of_eq rfl rfl rfl rfl⟩
  | loss hLoss =>
    obtain ⟨new, hZero, hRepays⟩ := lossTx_repays hCoherent.reserve hLoss
    exact solvent_loss h hZero hRepays
  | reserve hReserve =>
    rcases releaseReserve_cases hReserve with rfl | ⟨_, hProject, _⟩
    · exact ⟨h, .refl _⟩
    · rw [hProject]
      exact ⟨h.of_eq rfl rfl rfl rfl rfl rfl rfl, .of_eq rfl rfl rfl rfl⟩

theorem refundable_spec {p : Project} {r : Investment × InvestmentId} (h : r ∈ refundable p) :
    r.1.status.isRefunded = false ∧ p.investments[r.2]? = some r.1 := by
  obtain ⟨hMem, hStatus⟩ := List.mem_filter.mp h
  refine ⟨?_, ?_⟩
  · simp only [Bool.or_eq_true, beq_iff_eq] at hStatus
    rcases hStatus with hStatus | hStatus <;> simp [hStatus, InvestmentStatus.isRefunded]
  · have hAt := List.mem_zipIdx_iff_getElem?.mp hMem
    exact hAt

theorem refunding_of_step (h : s.project.Solvent) (hPending : Pending s c)
    (hRefunding : Refunding s c) (hStep : step o s c = some (s', c'))
    (hLater : s.project.Later s'.project) (hSteady : s.project.Steady s'.project) :
    Refunding s' c' := by
  cases c with
  | transitionTx t status =>
    simp only [step, Custody.transitionTx, Option.bind_eq_bind, Option.bind_eq_some_iff,
      Option.ite_none_right_eq_some, Option.pure_def, Option.some.injEq, Prod.mk.injEq] at hStep
    obtain ⟨_, ⟨_, rfl⟩, rfl, rfl⟩ := hStep
    obtain ⟨action, notesGiven⟩ := t
    cases action <;> trivial
  | closeRead resume =>
    simp only [step] at hStep
    split at hStep
    · simp only [Option.some.injEq, Prod.mk.injEq] at hStep
      obtain ⟨_, rfl⟩ := hStep
      cases resume <;> trivial
    · simp only [Option.some.injEq, Prod.mk.injEq] at hStep
      obtain ⟨rfl, rfl⟩ := hStep
      exact hRefunding
  | closeTx fee resume =>
    simp only [step, Option.bind_eq_bind, Option.bind_eq_some_iff, Option.pure_def,
      Option.some.injEq, Prod.mk.injEq] at hStep
    obtain ⟨_, _, _, rfl⟩ := hStep
    cases resume <;> trivial
  | refundRead =>
    simp only [step, Option.some.injEq, Prod.mk.injEq] at hStep
    obtain ⟨rfl, rfl⟩ := hStep
    rfl
  | refundRows x =>
    simp only [step, Option.some.injEq, Prod.mk.injEq] at hStep
    obtain ⟨rfl, rfl⟩ := hStep
    refine ⟨hRefunding, ?_⟩
    intro r hMem
    obtain ⟨hOpen, hRow⟩ := refundable_spec hMem
    exact ⟨hOpen, r.1, hRow, rfl⟩
  | refundEach x rows =>
    cases rows with
    | nil =>
      simp only [step, Option.some.injEq, Prod.mk.injEq] at hStep
      obtain ⟨_, rfl⟩ := hStep
      trivial
    | cons row rows =>
      have hKept := hRefunding.steady hPending hLater hSteady
      simp only [step, Option.bind_eq_bind, Option.bind_eq_some_iff, Option.pure_def,
        Option.some.injEq, Prod.mk.injEq] at hStep
      obtain ⟨_, _, rfl, rfl⟩ := hStep
      exact ⟨hKept.1, fun r hMem => hKept.2 r (List.mem_cons_of_mem _ hMem)⟩
  | release id =>
    simp only [step, Option.bind_eq_bind, Option.bind_eq_some_iff] at hStep
    obtain ⟨plan, hPlan, hStep⟩ := hStep
    obtain ⟨hStatus, _⟩ := releasePlan_spec hPlan
    split at hStep
    · simp only [Option.some.injEq, Prod.mk.injEq] at hStep
      obtain ⟨_, rfl⟩ := hStep
      trivial
    · -- a funded round has its fee, so only a closed one comes here
      rename_i hAt
      simp only [Option.some.injEq, Prod.mk.injEq] at hStep
      obtain ⟨rfl, rfl⟩ := hStep
      simp only [RELEASABLE, List.mem_cons, List.not_mem_nil, or_false] at hStatus
      rcases hStatus with hFunded | hClosed
      · exact absurd hAt (h.prompt hFunded)
      · exact hClosed
  | feeRead plan =>
    simp only [step, Option.some.injEq, Prod.mk.injEq] at hStep
    obtain ⟨_, rfl⟩ := hStep
    trivial
  | done => cases hStep
  | _ =>
    simp only [step, Option.ite_none_right_eq_some, Option.bind_eq_bind, Option.bind_eq_some_iff,
      Option.pure_def, Option.some.injEq, Prod.mk.injEq] at hStep
    first
      | (obtain ⟨_, rfl⟩ := hStep; trivial)
      | (obtain ⟨_, _, rfl⟩ := hStep; trivial)
      | (obtain ⟨_, _, _, rfl⟩ := hStep; trivial)
      | (obtain ⟨_, _, _, _, rfl⟩ := hStep; trivial)

end Steps

/-- Before the first investment of a round that this code will run. -/
structure Project.Opened (p : Project) : Prop extends p.Fresh where
  status : p.status ∉ ENDED
  empty : p.raisedAmount = 0
  investments : p.investments = []
  refunds : p.refunds = []

theorem Project.Opened.solvent {p : Project} (h : p.Opened) : p.Solvent where
  sum := by rw [h.empty, h.investments]; rfl
  amounts := by simp [h.investments]
  fee := by rw [h.fee, h.empty]
  prompt hFunded := absurd (hFunded ▸ ended_funded) h.status
  nothing _ := by simp [Project.refundedHeld, h.refunds]
  held := by
    refine held_of_nothing h.raised (by simp [h.investments]) ?_
    simp [Project.refundedHeld, h.refunds]

/-- The runs of the claim: only the fee is bounded. -/
abbrev FeeWithin : Guard Custody Call Outcome := fun o s c => feeWithin o s c = true

theorem sixtyForty_opened : sixtyForty.project.Opened :=
  ⟨⟨rfl, rfl, rfl, rfl, rfl, le_refl 0⟩, by decide, rfl, rfl, rfl⟩

/-- The target is reached and the first milestone is requested; its release has been read. -/
def releaseRead : List (Move Request Outcome) :=
  [.enter (.invest ⟨5, 100⟩), .run 0 (granted 1), .run 0 (granted 1), .run 0 (granted 1),
    .enter (.request 0 true), .run 1 (granted 2), .run 1 (granted 2),
    .enter (.release 0), .run 2 (granted 3)]

/-- A cancellation with the refund of its only investor. -/
def cancelled : List (Move Request Outcome) :=
  [.enter (.transition ⟨.cancel, false⟩), .run 3 (granted 4), .run 3 (granted 4), .run 3 (granted 4),
    .run 3 (granted 4), .run 3 (granted 4)]

end FarmBackend.Projects
