import FarmBackend.ProjectCalls
import FarmBackend.Rows

/-!
# What a step does to a project

`Wrote` says which transaction a step commits. `Coherent` is what the columns of a project always
satisfy, `Later` how a project compares with itself after any step, and `Pending` what a running
call may rely on although others write the row between its reads and its own write.
-/

namespace FarmBackend.Projects
open Decimal Wallets Fees Interleaving Rows

set_option autoImplicit false

/-- The round is over: no admin action leads back to an investable status. -/
def ENDED : List ProjectStatus := [.funded, .closed, .cancelled]

theorem ended_funded : ProjectStatus.funded ∈ ENDED := by decide

theorem ended_closed : ProjectStatus.closed ∈ ENDED := by decide

theorem ended_cancelled : ProjectStatus.cancelled ∈ ENDED := by decide

def Project.remaining (p : Project) : ℤ :=
  p.consolidationFee - p.consolidationRefunded - p.consolidationReleased

/-- What the ledger holds in the consolidation fund. -/
def Custody.fund (s : Custody) : ℤ := categoryBalance .consolidationFund s.ledger

@[simp] theorem Custody.update_project (f : Project → Project) (s : Custody) :
    (s.update f).project = f s.project := rfl

@[simp] theorem Custody.update_fund (f : Project → Project) (s : Custody) :
    (s.update f).fund = s.fund := rfl

@[simp] theorem Custody.ledgerCreate_project (e : FundEntry) (s : Custody) :
    (s.ledgerCreate e).project = s.project := rfl

theorem categoryBalance_append (c : Category) (l : List FundEntry) (e : FundEntry) :
    categoryBalance c (l ++ [e]) = categoryBalance c l + categoryBalance c [e] := by
  simp [categoryBalance]

theorem Custody.ledgerCreate_fund (e : FundEntry) (s : Custody) :
    (s.ledgerCreate e).fund = s.fund + categoryBalance .consolidationFund [e] :=
  categoryBalance_append _ _ _

@[simp] theorem Custody.ledgerCreate_other {t : EntryType} {n : ℤ} {c : Category}
    (h : c ≠ .consolidationFund) (s : Custody) : (s.ledgerCreate ⟨t, n, c⟩).fund = s.fund := by
  simp [Custody.ledgerCreate_fund, categoryBalance, h]

@[simp] theorem Custody.ledgerCreate_credit (n : ℤ) (s : Custody) :
    (s.ledgerCreate ⟨.credit, n, .consolidationFund⟩).fund = s.fund + n := by
  simp [Custody.ledgerCreate_fund, categoryBalance]

@[simp] theorem Custody.ledgerCreate_debit (n : ℤ) (s : Custody) :
    (s.ledgerCreate ⟨.debit, n, .consolidationFund⟩).fund = s.fund - n := by
  simp [Custody.ledgerCreate_fund, categoryBalance, sub_eq_add_neg]

theorem toNumber_zero : toNumber 0 = 0 := value_zero 8

theorem toNumber_add (a b : ℤ) : toNumber (a + b) = toNumber a + toNumber b := (value_add 8 a b).symm

theorem toUnits_add {n : ℤ} {x : ℚ} (hn : 0 ≤ n) (hx : 0 ≤ x) :
    Wallets.toUnits (toNumber n + x) = n + Wallets.toUnits x := column_value_add hn hx

theorem toUnits_le {n m : ℤ} {x : ℚ} (hn : 0 ≤ n) (hx : 0 ≤ x)
    (h : toNumber n + x ≤ toNumber m) : n + Wallets.toUnits x ≤ m := by
  have hMono : Wallets.toUnits (toNumber n + x) ≤ Wallets.toUnits (toNumber m) := column_mono h
  rwa [toUnits_add hn hx, toUnits_toNumber] at hMono

/-! The transactions, one by one. -/

section Transactions
variable {o : Outcome} {s s' : Custody}

/-- The row as `chargeClaim` leaves it when the fee was open. -/
def Project.charged (now : Time) (fee : ℚ) (p : Project) : Project :=
  { p with consolidationFee := Wallets.toUnits fee, consolidationFeeAt := some now }

theorem chargeClaim_cases {fee : ℚ} (hFee : 0 ≤ fee) (h : s.chargeClaim o fee = some s') :
    (s.project.consolidationFeeAt ≠ none ∧ s' = s) ∨
      (s.project.consolidationFeeAt = none ∧ s'.project = s.project.charged o.now fee ∧
        s'.fund = s.fund + Wallets.toUnits fee) := by
  unfold Custody.chargeClaim at h
  split at h
  · rename_i at' hAt
    simp only [Option.some.injEq] at h
    exact .inl ⟨by simp [hAt], h.symm⟩
  · rename_i hAt
    refine .inr ⟨hAt, ?_⟩
    by_cases hPos : 0 < fee
    · simp only [hPos, if_true, Option.ite_none_right_eq_some, Option.some.injEq] at h
      obtain ⟨_, rfl⟩ := h
      exact ⟨rfl, by simp⟩
    · simp only [hPos, if_false, Option.some.injEq] at h
      subst h
      obtain rfl : fee = 0 := le_antisymm (not_lt.mp hPos) hFee
      refine ⟨rfl, ?_⟩
      have hZero : Wallets.toUnits 0 = 0 := by rw [← toNumber_zero, toUnits_toNumber]
      simp [hZero]

theorem listingFee_nonneg (rule : FeeRule) (raised : ℤ) : 0 ≤ Custody.listingFee rule raised := by
  unfold Custody.listingFee
  split
  · exact computeFee_nonneg _ _ _
  · exact le_refl 0

theorem chargeConsolidation_eq :
    s.chargeConsolidation o = s.chargeClaim o (Custody.listingFee o.listing s.project.raisedAmount) := by
  unfold Custody.chargeConsolidation Custody.chargeClaim
  split <;> simp_all

def Project.invested (userId : UserId) (amount : ℚ) (p : Project) : Project :=
  { p with
    raisedAmount := Wallets.toUnits (toNumber p.raisedAmount + amount)
    investments := p.investments ++ [⟨userId, Wallets.toUnits amount, .committed⟩] }

theorem investRow_spec {userId : UserId} {amount : ℚ}
    (h : s.investRow o userId amount = some s') :
    s.project.status ∈ INVESTABLE ∧
      toNumber s.project.raisedAmount + amount ≤ toNumber s.project.targetAmount ∧
      s'.project = s.project.invested userId amount ∧ s'.fund = s.fund := by
  simp only [Custody.investRow, Option.ite_none_right_eq_some] at h
  obtain ⟨⟨hStatus, hRoom, _, _⟩, h⟩ := h
  refine ⟨hStatus, hRoom, ?_⟩
  split at h
  · simp only [Option.ite_none_right_eq_some, Option.some.injEq] at h
    obtain ⟨_, rfl⟩ := h
    exact ⟨rfl, by simp⟩
  · simp only [Option.some.injEq] at h
    subst h
    exact ⟨rfl, by simp⟩

theorem fundIfReached_cases (h : s.fundIfReached o = some s') :
    s' = s ∨ (s.update fun p => { p with status := .funded }).chargeClaim o
      (Custody.listingFee o.listing s.project.raisedAmount) = some s' := by
  unfold Custody.fundIfReached at h
  split at h
  · rw [chargeConsolidation_eq] at h
    exact .inr h
  · simp only [Option.some.injEq] at h
    exact .inl h.symm

def Project.paidBack (amount : ℚ) (p : Project) : Project :=
  { p with consolidationRefunded := Wallets.toUnits (toNumber p.consolidationRefunded + amount) }

def Project.reclassified (amount : ℚ) (p : Project) : Project :=
  { p with consolidationReleased := Wallets.toUnits (toNumber p.consolidationReleased + amount) }

/-- The amount is within what the columns leave of the fee. -/
def Project.covers (p : Project) (amount : ℚ) : Prop :=
  0 < amount ∧ toNumber p.consolidationRefunded + toNumber p.consolidationReleased + amount ≤
    toNumber p.consolidationFee

theorem payFromReserve_cases {amount : ℚ} (h : s.payFromReserve o amount = some s') :
    s' = s ∨ (s.project.covers amount ∧ s'.project = s.project.paidBack amount ∧
      s'.fund = s.fund - Wallets.toUnits amount) := by
  unfold Custody.payFromReserve at h
  split at h
  · rename_i hPos
    simp only [Option.ite_none_right_eq_some, Option.some.injEq] at h
    obtain ⟨⟨hFits, _⟩, rfl⟩ := h
    exact .inr ⟨⟨hPos, hFits⟩, rfl, by simp⟩
  · simp only [Option.some.injEq] at h
    exact .inl h.symm

theorem releaseReserve_cases {amount : ℚ} (h : s.releaseReserve o amount = some s') :
    s' = s ∨ (s.project.covers amount ∧ s'.project = s.project.reclassified amount ∧
      s'.fund = s.fund - Wallets.toUnits amount) := by
  unfold Custody.releaseReserve at h
  split at h
  · rename_i hPos
    simp only [Option.ite_none_right_eq_some, Option.some.injEq] at h
    obtain ⟨⟨hFits, _⟩, rfl⟩ := h
    exact .inr ⟨⟨hPos, hFits⟩, rfl, by simp⟩
  · simp only [Option.some.injEq] at h
    exact .inl h.symm

theorem creditInvestor_spec {userId : UserId} {refund : Refund} {amount : ℚ}
    (h : s.creditInvestor o userId refund amount = some s') :
    s'.project = { s.project with refunds := s.project.refunds ++ [refund] } ∧
      s'.fund = s.fund := by
  simp only [Custody.creditInvestor, Option.ite_none_right_eq_some, Option.some.injEq] at h
  obtain ⟨_, rfl⟩ := h
  exact ⟨rfl, by simp⟩

def Milestone.pay (plan : ReleasePlan) (m : Milestone) : Milestone :=
  { m with status := .released, releasedAmount := some (Wallets.toUnits plan.amount) }

def Project.released (plan : ReleasePlan) (p : Project) : Project :=
  { p with
    milestones := p.milestones.modify plan.milestoneId (Milestone.pay plan)
    releasedAmount := Wallets.toUnits (toNumber p.releasedAmount + plan.amount)
    investments := p.investments.map Investment.activate }

theorem releaseTx_spec {plan : ReleasePlan} (h : s.releaseTx plan = some s') :
    (∃ m, s.project.milestones[plan.milestoneId]? = some m ∧ m.status = .requested) ∧
      toNumber s.project.releasedAmount + plan.amount ≤
        toNumber s.project.raisedAmount - toNumber s.project.consolidationFee ∧
      s'.project = s.project.released plan ∧ s'.fund = s.fund := by
  simp only [Custody.releaseTx, Option.bind_eq_bind, Option.bind_eq_some_iff,
    Option.ite_none_right_eq_some, Option.some.injEq] at h
  obtain ⟨m, hRow, ⟨hRequested, hFits⟩, rfl⟩ := h
  refine ⟨⟨m, hRow, hRequested⟩, hFits, rfl, ?_⟩
  rw [Custody.ledgerCreate_other (by decide)]
  rfl

/-! Repayments: what a refund does to the reserve and to the list of refunds. -/

structure Project.Reserve (p : Project) : Prop where
  refunded : 0 ≤ p.consolidationRefunded
  released : 0 ≤ p.consolidationReleased
  left : p.consolidationRefunded + p.consolidationReleased ≤ p.consolidationFee

def Project.repaid (new : List Refund) (n : ℤ) (p : Project) : Project :=
  { p with
    refunds := p.refunds ++ new
    consolidationRefunded := p.consolidationRefunded + n }

/-- `s'` has paid the refunds `new`, with some units out of the reserve. -/
def Repays (new : List Refund) (s s' : Custody) : Prop :=
  ∃ n, 0 ≤ n ∧ n ≤ s.project.remaining ∧ s'.project = s.project.repaid new n ∧
    s'.fund = s.fund - n

theorem Project.Reserve.remaining_nonneg {p : Project} (h : p.Reserve) : 0 ≤ p.remaining := by
  have hLeft := h.left
  unfold Project.remaining
  omega

theorem Project.Reserve.covers {p : Project} {amount : ℚ} (h : p.Reserve) (hCovers : p.covers amount) :
    0 ≤ Wallets.toUnits amount ∧ Wallets.toUnits amount ≤ p.remaining ∧
      p.paidBack amount = p.repaid [] (Wallets.toUnits amount) ∧
      p.reclassified amount =
        { p with consolidationReleased := p.consolidationReleased + Wallets.toUnits amount } := by
  obtain ⟨hPos, hFits⟩ := hCovers
  have hSum : 0 ≤ p.consolidationRefunded + p.consolidationReleased := add_nonneg h.refunded h.released
  rw [value_add] at hFits
  have hUnits := toUnits_le hSum hPos.le hFits
  refine ⟨column_nonneg hPos.le, ?_, ?_, ?_⟩
  · unfold Project.remaining
    omega
  · unfold Project.paidBack Project.repaid
    rw [toUnits_add h.refunded hPos.le, List.append_nil]
  · unfold Project.reclassified
    rw [toUnits_add h.released hPos.le]

theorem Repays.refl (hReserve : s.project.Reserve) : Repays [] s s := by
  refine ⟨0, le_refl 0, hReserve.remaining_nonneg, ?_, (sub_zero _).symm⟩
  simp [Project.repaid]

theorem Repays.reserve {new : List Refund} (h : Repays new s s') (hReserve : s.project.Reserve) :
    s'.project.Reserve := by
  obtain ⟨n, hn, hLeft, hProject, _⟩ := h
  have hRefunded := hReserve.refunded
  unfold Project.remaining at hLeft
  rw [hProject]
  exact ⟨by simp only [Project.repaid]; omega, hReserve.released,
    by simp only [Project.repaid]; omega⟩

theorem Repays.trans {s₁ : Custody} {a b : List Refund} (h : Repays a s s₁) (h' : Repays b s₁ s') :
    Repays (a ++ b) s s' := by
  obtain ⟨n, hn, _, hProject, hFund⟩ := h
  obtain ⟨n', hn', hLeft, hProject', hFund'⟩ := h'
  refine ⟨n + n', by omega, ?_, ?_, by omega⟩
  · rw [hProject] at hLeft
    simp only [Project.remaining, Project.repaid] at hLeft ⊢
    omega
  · rw [hProject', hProject]
    simp [Project.repaid, add_assoc]

theorem payFromReserve_repays {amount : ℚ} (hReserve : s.project.Reserve)
    (h : s.payFromReserve o amount = some s') : Repays [] s s' := by
  rcases payFromReserve_cases h with rfl | ⟨hCovers, hProject, hFund⟩
  · exact .refl hReserve
  · obtain ⟨hn, hLeft, hPaid, _⟩ := hReserve.covers hCovers
    exact ⟨_, hn, hLeft, hProject.trans hPaid, hFund⟩

/-- A credit to an investor followed by a payment out of the reserve. -/
theorem repays_credit {s₁ : Custody} {userId : UserId} {refund : Refund} {amount part : ℚ}
    (hReserve : s.project.Reserve) (hCredit : s.creditInvestor o userId refund amount = some s₁)
    (hPay : s₁.payFromReserve o part = some s') : Repays [refund] s s' := by
  obtain ⟨hProject, hFund⟩ := creditInvestor_spec hCredit
  have hCredited : Repays [refund] s s₁ :=
    ⟨0, le_refl 0, hReserve.remaining_nonneg, by rw [hProject]; simp [Project.repaid], by omega⟩
  exact hCredited.trans (payFromReserve_repays (hCredited.reserve hReserve) hPay)

theorem lossTx_repays {parts : List (Investment × InvestmentId × ℚ)} (hReserve : s.project.Reserve)
    (h : s.lossTx o parts = some s') :
    ∃ new, (∀ r ∈ new, r.heldPart = 0) ∧ Repays new s s' := by
  unfold Custody.lossTx at h
  induction parts generalizing s with
  | nil =>
    simp only [List.foldlM_nil, Option.pure_def, Option.some.injEq] at h
    subst h
    exact ⟨[], by simp, .refl hReserve⟩
  | cons part parts ih =>
    simp only [List.foldlM_cons, Option.bind_eq_bind, Option.bind_eq_some_iff,
      Custody.lossPart] at h
    obtain ⟨s₂, ⟨s₁, hCredit, hPay⟩, hRest⟩ := h
    have hFirst := repays_credit hReserve hCredit hPay
    obtain ⟨new, hHeld, hNew⟩ := ih (hFirst.reserve hReserve) hRest
    refine ⟨_, ?_, hFirst.trans hNew⟩
    intro r hMem
    rcases List.mem_cons.mp hMem with rfl | hMem
    · rfl
    · exact hHeld r hMem

def Investment.claimed (x : Shares) (inv : Investment) : Investment :=
  { inv with status := Custody.refundedStatus x }

def Shares.refund (x : Shares) (id : InvestmentId) (inv : Investment) : Refund :=
  ⟨id, Wallets.toUnits (x.heldPart inv), Wallets.toUnits (x.reservePart inv)⟩

/-- One turn of `refundAll`: the row was changed by another, or it is claimed and repaid. -/
theorem refundTx_cases {x : Shares} {inv : Investment} {id : InvestmentId}
    (hReserve : s.project.Reserve) (h : s.refundTx o x inv id = some s') :
    s' = s ∨ ∃ row new, s.project.investments[id]? = some row ∧ row.status = inv.status ∧
      (new = [] ∨ new = [x.refund id inv]) ∧
      Repays new (s.investmentsUpdate id (Investment.claimed x)) s' := by
  unfold Custody.refundTx at h
  split at h
  · simp only [Option.some.injEq] at h
    exact .inl h.symm
  · rename_i row hRow
    split at h
    · rename_i hStatus
      have hClaimed : (s.investmentsUpdate id (Investment.claimed x)).project.Reserve :=
        ⟨hReserve.refunded, hReserve.released, hReserve.left⟩
      refine .inr ⟨row, ?_⟩
      unfold Custody.refundMoney at h
      dsimp only at h
      split at h
      · simp only [Option.bind_eq_bind, Option.bind_eq_some_iff] at h
        obtain ⟨s₁, hCredit, hPay⟩ := h
        exact ⟨_, hRow, hStatus, .inr rfl, repays_credit hClaimed hCredit hPay⟩
      · simp only [Option.some.injEq] at h
        subst h
        exact ⟨[], hRow, hStatus, .inl rfl, .refl hClaimed⟩
    · simp only [Option.some.injEq] at h
      exact .inl h.symm

end Transactions

/-! One step. -/

/-- The transaction that a step of a call commits, if it commits one. -/
inductive Wrote (o : Outcome) (s : Custody) : Call → Custody → Prop where
  | still (c : Call) : Wrote o s c s
  | invest {r : Invest} {s₁ s' : Custody} (hRow : s.investRow o r.userId r.amount = some s₁)
      (hRound : s₁.fundIfReached o = some s') : Wrote o s (.investTx r) s'
  | transition (t : Transition) :
      Wrote o s (.transitionTx t s.project.status)
        (s.update fun p => { p with status := (ADMIN_TRANSITIONS t.action).target })
  | charge {fee : ℚ} {resume : Option ReleasePlan} {s' : Custody}
      (hCharge : s.chargeClaim o fee = some s') : Wrote o s (.closeTx fee resume) s'
  | refund {x : Shares} {inv : Investment} {id : InvestmentId}
      {rows : List (Investment × InvestmentId)} {s' : Custody}
      (hRefund : s.refundTx o x inv id = some s') : Wrote o s (.refundEach x ((inv, id) :: rows)) s'
  | release {plan : ReleasePlan} {s' : Custody} (hPos : 0 < plan.amount)
      (hRelease : s.releaseTx plan = some s') : Wrote o s (.releaseTx plan) s'
  | request {id : MilestoneId} {m : Milestone} (hRow : s.project.milestones[id]? = some m)
      (hOpen : m.status = .planned ∨ m.status = .returned) :
      Wrote o s (.requestTx id) (s.milestonesUpdate id fun m => { m with status := .requested })
  | returned {id : MilestoneId} {notesGiven : Bool} {m : Milestone}
      (hRow : s.project.milestones[id]? = some m) (hRequested : m.status = .requested) :
      Wrote o s (.returnTx id notesGiven)
        (s.milestonesUpdate id fun m => { m with status := .returned })
  | loss {parts : List (Investment × InvestmentId × ℚ)} {s' : Custody}
      (hLoss : s.lossTx o parts = some s') : Wrote o s (.lossTx parts) s'
  | reserve {amount : ℚ} {s' : Custody} (hReserve : s.releaseReserve o amount = some s') :
      Wrote o s (.reserveTx amount) s'

theorem wrote_of_step {o : Outcome} {s s' : Custody} {c c' : Call}
    (h : step o s c = some (s', c')) : Wrote o s c s' := by
  cases c with
  | invest r =>
    simp only [step, Option.ite_none_right_eq_some, Option.some.injEq, Prod.mk.injEq] at h
    obtain ⟨_, rfl, _⟩ := h
    exact .still _
  | investPrior r maximum =>
    simp only [step, Option.ite_none_right_eq_some, Option.some.injEq, Prod.mk.injEq] at h
    obtain ⟨_, rfl, _⟩ := h
    exact .still _
  | investTx r =>
    simp only [step, Custody.investTx, Option.bind_eq_bind, Option.bind_eq_some_iff,
      Option.pure_def, Option.some.injEq, Prod.mk.injEq] at h
    obtain ⟨_, ⟨s₁, hRow, hRound⟩, rfl, _⟩ := h
    exact .invest hRow hRound
  | transition t =>
    simp only [step, Option.ite_none_right_eq_some, Option.some.injEq, Prod.mk.injEq] at h
    obtain ⟨_, rfl, _⟩ := h
    exact .still _
  | transitionTx t status =>
    simp only [step, Custody.transitionTx, Option.bind_eq_bind, Option.bind_eq_some_iff,
      Option.ite_none_right_eq_some, Option.pure_def, Option.some.injEq, Prod.mk.injEq] at h
    obtain ⟨_, ⟨rfl, rfl⟩, rfl, _⟩ := h
    exact .transition t
  | closeRead resume =>
    simp only [step] at h
    split at h
    all_goals
      simp only [Option.some.injEq, Prod.mk.injEq] at h
      obtain ⟨rfl, _⟩ := h
      exact .still _
  | closeTx fee resume =>
    simp only [step, Option.bind_eq_bind, Option.bind_eq_some_iff, Option.pure_def,
      Option.some.injEq, Prod.mk.injEq] at h
    obtain ⟨_, hCharge, rfl, _⟩ := h
    exact .charge hCharge
  | refundRead =>
    simp only [step, Option.some.injEq, Prod.mk.injEq] at h
    obtain ⟨rfl, _⟩ := h
    exact .still _
  | refundRows x =>
    simp only [step, Option.some.injEq, Prod.mk.injEq] at h
    obtain ⟨rfl, _⟩ := h
    exact .still _
  | refundEach x rows =>
    cases rows with
    | nil =>
      simp only [step, Option.some.injEq, Prod.mk.injEq] at h
      obtain ⟨rfl, _⟩ := h
      exact .still _
    | cons row rows =>
      simp only [step, Option.bind_eq_bind, Option.bind_eq_some_iff, Option.pure_def,
        Option.some.injEq, Prod.mk.injEq] at h
      obtain ⟨_, hRefund, rfl, _⟩ := h
      exact .refund hRefund
  | release id =>
    simp only [step, Option.bind_eq_bind, Option.bind_eq_some_iff] at h
    obtain ⟨plan, _, h⟩ := h
    split at h
    all_goals
      simp only [Option.some.injEq, Prod.mk.injEq] at h
      obtain ⟨rfl, _⟩ := h
      exact .still _
  | feeRead plan =>
    simp only [step, Option.some.injEq, Prod.mk.injEq] at h
    obtain ⟨rfl, _⟩ := h
    exact .still _
  | releaseTx plan =>
    simp only [step, Option.ite_none_right_eq_some, Option.bind_eq_bind, Option.bind_eq_some_iff,
      Option.pure_def, Option.some.injEq, Prod.mk.injEq] at h
    obtain ⟨⟨hPos, _⟩, _, hRelease, rfl, _⟩ := h
    exact .release hPos hRelease
  | request id evidenceOk =>
    simp only [step, Option.bind_eq_bind, Option.bind_eq_some_iff, Option.ite_none_right_eq_some,
      Option.some.injEq, Prod.mk.injEq] at h
    obtain ⟨_, _, _, rfl, _⟩ := h
    exact .still _
  | requestTx id =>
    simp only [step, Custody.requestTx, Option.bind_eq_bind, Option.bind_eq_some_iff,
      Option.ite_none_right_eq_some, Option.pure_def, Option.some.injEq, Prod.mk.injEq] at h
    obtain ⟨_, ⟨m, hRow, hOpen, rfl⟩, rfl, _⟩ := h
    exact .request hRow hOpen
  | returnTx id notesGiven =>
    simp only [step, Custody.returnTx, Option.bind_eq_bind, Option.bind_eq_some_iff,
      Option.ite_none_right_eq_some, Option.pure_def, Option.some.injEq, Prod.mk.injEq] at h
    obtain ⟨_, _, ⟨m, hRow, hRequested, rfl⟩, rfl, _⟩ := h
    exact .returned hRow hRequested
  | loss notesGiven =>
    simp only [step, Option.ite_none_right_eq_some, Option.some.injEq, Prod.mk.injEq] at h
    obtain ⟨_, rfl, _⟩ := h
    exact .still _
  | lossRows reserve raised =>
    simp only [step, Option.some.injEq, Prod.mk.injEq] at h
    obtain ⟨rfl, _⟩ := h
    exact .still _
  | lossTx parts =>
    simp only [step, Option.bind_eq_bind, Option.bind_eq_some_iff, Option.pure_def,
      Option.some.injEq, Prod.mk.injEq] at h
    obtain ⟨_, hLoss, rfl, _⟩ := h
    exact .loss hLoss
  | reserve notesGiven =>
    simp only [step, Option.ite_none_right_eq_some, Option.some.injEq, Prod.mk.injEq] at h
    obtain ⟨_, rfl, _⟩ := h
    exact .still _
  | reserveTx amount =>
    simp only [step, Option.bind_eq_bind, Option.bind_eq_some_iff, Option.pure_def,
      Option.some.injEq, Prod.mk.injEq] at h
    obtain ⟨_, hReserve, rfl, _⟩ := h
    exact .reserve hReserve
  | done => cases h

end FarmBackend.Projects
