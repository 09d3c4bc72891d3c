import FarmBackend.ProjectSteps

/-!
# The round of a project

A round ends once: by reaching its target, by an admin's close or by a cancellation. From then on
the amount raised is fixed, and the fee is taken at most once. `Coherent` is what the columns satisfy
in every state, `Later` compares a project with itself after other steps, and `Pending` is what a
running call may still rely on when its next statement runs.
-/

namespace FarmBackend.Projects
open Decimal Wallets Fees Interleaving Rows

set_option autoImplicit false

structure Project.Columns (p : Project) : Prop where
  unset : p.consolidationFeeAt = none → p.consolidationFee = 0 ∧ p.releasedAmount = 0
  reserve : p.Reserve
  raised : 0 ≤ p.raisedAmount
  releasedAmount : 0 ≤ p.releasedAmount
  within : p.releasedAmount ≤ max 0 (p.raisedAmount - p.consolidationFee)

structure Project.Coherent (p : Project) : Prop extends p.Columns where
  ended : p.consolidationFeeAt ≠ none → p.status ∈ ENDED

/-- A milestone keeps its amount, and a released one keeps everything. -/
def Milestone.Moves (m m' : Milestone) : Prop :=
  m'.amount = m.amount ∧ (m.status = .released → m' = m)

structure Project.Later (p p' : Project) : Prop where
  ended : p.status ∈ ENDED → p'.status ∈ ENDED
  closed : p.status = .closed → p'.status = .closed
  cancelled : p.status = .cancelled → p'.status = .cancelled
  raised : p.status ∈ ENDED → p'.raisedAmount = p.raisedAmount
  fee : p.consolidationFeeAt ≠ none →
    p'.consolidationFeeAt = p.consolidationFeeAt ∧ p'.consolidationFee = p.consolidationFee
  target : p'.targetAmount = p.targetAmount
  milestones : Related Milestone.Moves p.milestones p'.milestones
  length : p'.milestones.length = p.milestones.length

theorem Milestone.Moves.refl (m : Milestone) : m.Moves m := ⟨rfl, fun _ => rfl⟩

theorem Milestone.Moves.trans (a b d : Milestone) (h : a.Moves b) (h' : b.Moves d) : a.Moves d := by
  refine ⟨h'.1.trans h.1, ?_⟩
  intro hReleased
  have hSame := h.2 hReleased
  exact (h'.2 (by rwa [hSame])).trans hSame

namespace Project.Later
variable {p p' p'' : Project}

theorem refl (p : Project) : p.Later p where
  ended h := h
  closed h := h
  cancelled h := h
  raised _ := rfl
  fee _ := ⟨rfl, rfl⟩
  target := rfl
  milestones := .refl Milestone.Moves.refl _
  length := rfl

theorem trans (h : p.Later p') (h' : p'.Later p'') : p.Later p'' where
  ended hEnded := h'.ended (h.ended hEnded)
  closed hClosed := h'.closed (h.closed hClosed)
  cancelled hCancelled := h'.cancelled (h.cancelled hCancelled)
  raised hEnded := (h'.raised (h.ended hEnded)).trans (h.raised hEnded)
  fee hAt := by
    obtain ⟨hSame, hFee⟩ := h.fee hAt
    obtain ⟨hSame', hFee'⟩ := h'.fee (by rwa [hSame])
    exact ⟨hSame'.trans hSame, hFee'.trans hFee⟩
  target := h'.target.trans h.target
  milestones := h.milestones.trans Milestone.Moves.trans h'.milestones
  length := h'.length.trans h.length

theorem earlierReleased {id : MilestoneId} (h : p.Later p') (hEarlier : p.earlierReleased id) :
    p'.earlierReleased id := by
  intro m' hMem
  obtain ⟨i, hAt⟩ := List.mem_iff_getElem?.mp hMem
  rw [List.getElem?_take] at hAt
  split at hAt
  · rename_i hLt
    obtain ⟨m, hOld, hMove⟩ := h.milestones.backward hAt
    have hIn : m ∈ p.milestones.take id :=
      List.mem_iff_getElem?.mpr ⟨i, by rw [List.getElem?_take, if_pos hLt, hOld]⟩
    rw [hMove.2 (hEarlier m hIn)]
    exact hEarlier m hIn
  · cases hAt

theorem of_eq (hStatus : p'.status = p.status) (hRaised : p'.raisedAmount = p.raisedAmount)
    (hAt : p'.consolidationFeeAt = p.consolidationFeeAt)
    (hFee : p'.consolidationFee = p.consolidationFee) (hTarget : p'.targetAmount = p.targetAmount)
    (hMilestones : p'.milestones = p.milestones) : p.Later p' where
  ended h := by rwa [hStatus]
  closed h := by rwa [hStatus]
  cancelled h := by rwa [hStatus]
  raised _ := hRaised
  fee _ := ⟨hAt, hFee⟩
  target := hTarget
  milestones := by rw [hMilestones]; exact .refl Milestone.Moves.refl _
  length := by rw [hMilestones]

theorem of_modify {id : MilestoneId} {f : Milestone → Milestone} {m : Milestone}
    (hRow : p.milestones[id]? = some m) (hOpen : m.status ≠ .released)
    (hAmount : ∀ m, (f m).amount = m.amount) :
    p.Later { p with milestones := p.milestones.modify id f } := by
  refine { Later.refl p with milestones := ?_, length := List.length_modify .. }
  refine related_modify Milestone.Moves.refl ?_
  intro row hAt
  obtain rfl : row = m := by simpa [hRow] using hAt.symm
  exact ⟨hAmount row, fun hReleased => absurd hReleased hOpen⟩

end Project.Later

/-- What stays true of a plan from the reading of the rows to the transaction. -/
structure ReleasePlan.Read (plan : ReleasePlan) (p : Project) : Prop where
  ended : plan.project.status ∈ ENDED
  later : plan.project.Later p
  earlier : plan.project.earlierReleased plan.milestoneId

def Pending (s : Custody) : Call → Prop
  | .investPrior r _ => 0 < r.amount
  | .investTx r => 0 < r.amount
  | .transitionTx t status => status ∈ (ADMIN_TRANSITIONS t.action).source
  | .closeRead resume => s.project.status ∈ ENDED ∧ ∀ plan ∈ resume, plan.Read s.project
  | .closeTx fee resume =>
    s.project.status ∈ ENDED ∧ 0 ≤ fee ∧ ∀ plan ∈ resume, plan.Read s.project
  | .refundRead => s.project.status = .cancelled
  | .refundRows _ => s.project.status = .cancelled
  | .refundEach _ _ => s.project.status = .cancelled
  | .feeRead plan => s.project.consolidationFeeAt ≠ none ∧ plan.Read s.project
  | .releaseTx plan => s.project.consolidationFeeAt ≠ none ∧
      plan.fee = s.project.consolidationFee ∧ plan.Read s.project
  | _ => True

theorem ReleasePlan.Read.still {plan : ReleasePlan} {p p' : Project} (h : plan.Read p)
    (hLater : p.Later p') : plan.Read p' := ⟨h.ended, h.later.trans hLater, h.earlier⟩

theorem Pending.later {s s' : Custody} {c : Call} (h : Pending s c)
    (hLater : s.project.Later s'.project) : Pending s' c := by
  have hAt : s.project.consolidationFeeAt ≠ none → s'.project.consolidationFeeAt ≠ none := by
    intro hAt
    rwa [(hLater.fee hAt).1]
  cases c with
  | closeRead resume => exact ⟨hLater.ended h.1, fun plan hMem => (h.2 plan hMem).still hLater⟩
  | closeTx fee resume =>
    exact ⟨hLater.ended h.1, h.2.1, fun plan hMem => (h.2.2 plan hMem).still hLater⟩
  | refundRead => exact hLater.cancelled h
  | refundRows x => exact hLater.cancelled h
  | refundEach x rows => exact hLater.cancelled h
  | feeRead plan => exact ⟨hAt h.1, h.2.still hLater⟩
  | releaseTx plan => exact ⟨hAt h.1, h.2.1.trans (hLater.fee h.1).2.symm, h.2.2.still hLater⟩
  | _ => exact h

/-! What each transaction does. `fund_eq` compares the ledger with the columns. -/

structure Kept (s s' : Custody) : Prop where
  coherent : s'.project.Coherent
  later : s.project.Later s'.project
  fund_eq : s'.fund - s.fund = s'.project.remaining - s.project.remaining

theorem transition_ended {a : AdminAction} {status : ProjectStatus}
    (h : status ∈ (ADMIN_TRANSITIONS a).source) :
    (status ∈ ENDED → (ADMIN_TRANSITIONS a).target ∈ ENDED) ∧ status ≠ .closed ∧
      status ≠ .cancelled ∧ (ADMIN_TRANSITIONS a).target ≠ .funded := by
  cases a <;> revert h <;> cases status <;> decide

theorem not_ended_of_investable {status : ProjectStatus} (h : status ∈ INVESTABLE) :
    status ∉ ENDED := by
  revert h
  cases status <;> decide

section Writes
variable {o : Outcome} {s s' : Custody}

theorem Kept.refl (h : s.project.Coherent) : Kept s s := ⟨h, .refl _, by omega⟩

theorem Kept.trans {s₁ : Custody} (h : Kept s s₁) (h' : Kept s₁ s') : Kept s s' :=
  ⟨h'.coherent, h.later.trans h'.later, by have := h.fund_eq; have := h'.fund_eq; omega⟩

/-- An update of columns that the round does not depend on. -/
theorem Project.Coherent.of_eq {p p' : Project} (h : p.Coherent) (hReserve : p'.Reserve)
    (hStatus : p'.status = p.status) (hAt : p'.consolidationFeeAt = p.consolidationFeeAt)
    (hFee : p'.consolidationFee = p.consolidationFee) (hRaised : p'.raisedAmount = p.raisedAmount)
    (hReleased : p'.releasedAmount = p.releasedAmount) : p'.Coherent where
  unset := by rw [hAt, hFee, hReleased]; exact h.unset
  reserve := hReserve
  raised := by rw [hRaised]; exact h.raised
  releasedAmount := by rw [hReleased]; exact h.releasedAmount
  within := by rw [hReleased, hRaised, hFee]; exact h.within
  ended := by rw [hAt, hStatus]; exact h.ended

theorem kept_transition (h : s.project.Coherent) {t : Transition}
    (hSource : s.project.status ∈ (ADMIN_TRANSITIONS t.action).source) :
    Kept s (s.update fun p => { p with status := (ADMIN_TRANSITIONS t.action).target }) := by
  obtain ⟨hEnded, hClosed, hCancelled, _⟩ := transition_ended hSource
  refine ⟨?_, ?_, by simp [Project.remaining]⟩
  · exact { h with
      reserve := ⟨h.reserve.refunded, h.reserve.released, h.reserve.left⟩
      ended := fun hAt => hEnded (h.ended hAt) }
  · exact { Project.Later.refl s.project with
      ended := hEnded
      closed := fun hStatus => absurd hStatus hClosed
      cancelled := fun hStatus => absurd hStatus hCancelled }

theorem kept_charge (h : s.project.Columns) {fee : ℚ} (hFee : 0 ≤ fee)
    (hEnded : s.project.status ∈ ENDED) (hCharge : s.chargeClaim o fee = some s') : Kept s s' := by
  rcases chargeClaim_cases hFee hCharge with ⟨_, rfl⟩ | ⟨hAt, hProject, hFund⟩
  · exact ⟨{ h with ended := fun _ => hEnded }, .refl _, by omega⟩
  · obtain ⟨hZero, hNone⟩ := h.unset hAt
    obtain ⟨hRefunded, hReleased, hLeft⟩ := h.reserve
    have hUnits : 0 ≤ Wallets.toUnits fee := column_nonneg hFee
    refine ⟨?_, ?_, ?_⟩
    · rw [hProject]
      constructor
      · constructor
        · exact fun hNever => absurd hNever (Option.some_ne_none _)
        · exact ⟨hRefunded, hReleased, by simp only [Project.charged]; omega⟩
        · exact h.raised
        · exact h.releasedAmount
        · simp [Project.charged, hNone]
      · exact fun _ => hEnded
    · rw [hProject]
      exact { Project.Later.refl s.project with fee := fun hSet => absurd hAt hSet }
    · rw [hProject, hFund]
      simp only [Project.remaining, Project.charged]
      omega

theorem Project.Coherent.unset_of_investable {p : Project} (h : p.Coherent)
    (hStatus : p.status ∈ INVESTABLE) : p.consolidationFeeAt = none :=
  not_not.mp fun hAt => not_ended_of_investable hStatus (h.ended hAt)

theorem kept_invest (h : s.project.Coherent) {r : Invest} {s₁ : Custody} (hPos : 0 < r.amount)
    (hRow : s.investRow o r.userId r.amount = some s₁) (hRound : s₁.fundIfReached o = some s') :
    Kept s s' := by
  obtain ⟨hStatus, _, hProject, hFund⟩ := investRow_spec hRow
  have hAt := h.unset_of_investable hStatus
  obtain ⟨hZero, hNone⟩ := h.unset hAt
  have hUnits : 0 ≤ Wallets.toUnits r.amount := column_nonneg hPos.le
  have hRaised : s₁.project.raisedAmount = s.project.raisedAmount + Wallets.toUnits r.amount := by
    rw [hProject]
    exact toUnits_add h.raised hPos.le
  have hColumns : s₁.project.Columns := by
    constructor
    · rw [hProject]
      exact h.unset
    · rw [hProject]
      exact ⟨h.reserve.refunded, h.reserve.released, h.reserve.left⟩
    · have hOld := h.raised
      omega
    · rw [hProject]
      exact h.releasedAmount
    · rw [hProject]
      simp [Project.invested, hNone]
  have hOpen : s.project.status ∉ ENDED := not_ended_of_investable hStatus
  have hLater : s.project.Later s₁.project := by
    rw [hProject]
    exact { Project.Later.refl s.project with raised := fun hEnded => absurd hEnded hOpen }
  have hFirst : Kept s s₁ := by
    refine ⟨{ hColumns with ended := ?_ }, hLater, ?_⟩
    · rw [hProject]
      exact h.ended
    · rw [hProject, hFund]
      simp [Project.remaining, Project.invested]
  rcases fundIfReached_cases hRound with rfl | hCharge
  · exact hFirst
  · -- the round ends and its fee is taken in the same transaction
    have hFunded : Kept (s₁.update fun p => { p with status := .funded }) s' := by
      refine kept_charge ?_ (listingFee_nonneg _ _) ended_funded hCharge
      exact { hColumns with
        reserve := ⟨hColumns.reserve.refunded, hColumns.reserve.released, hColumns.reserve.left⟩ }
    have hMarked : s₁.project.Later (s₁.update fun p => { p with status := .funded }).project := by
      have hStatus₁ : s₁.project.status ∉ ENDED := by rw [hProject]; exact hOpen
      exact { Project.Later.refl s₁.project with
        ended := fun hEnded => absurd hEnded hStatus₁
        closed := fun hClosed => absurd (hClosed ▸ ended_closed) hStatus₁
        cancelled := fun hCancelled => absurd (hCancelled ▸ ended_cancelled) hStatus₁ }
    refine ⟨hFunded.coherent, hLater.trans (hMarked.trans hFunded.later), ?_⟩
    have hFirstFund := hFirst.fund_eq
    have hFundedFund := hFunded.fund_eq
    simp only [Custody.update_project, Custody.update_fund, Project.remaining] at hFirstFund hFundedFund ⊢
    omega

theorem Repays.kept {new : List Refund} (h : s.project.Coherent) (hRepays : Repays new s s') :
    Kept s s' := by
  have hReserve := hRepays.reserve h.reserve
  obtain ⟨n, _, _, hProject, hFund⟩ := hRepays
  rw [hProject] at hReserve
  refine ⟨?_, ?_, ?_⟩
  · rw [hProject]
    exact h.of_eq hReserve rfl rfl rfl rfl rfl
  · rw [hProject]
    exact .of_eq rfl rfl rfl rfl rfl rfl
  · rw [hProject, hFund]
    simp only [Project.remaining, Project.repaid]
    omega

theorem kept_refund (h : s.project.Coherent) {x : Shares} {inv : Investment} {id : InvestmentId}
    (hRefund : s.refundTx o x inv id = some s') : Kept s s' := by
  rcases refundTx_cases h.reserve hRefund with rfl | ⟨row, new, _, _, _, hRepays⟩
  · exact .refl h
  · have hReserve : (s.investmentsUpdate id (Investment.claimed x)).project.Reserve :=
      ⟨h.reserve.refunded, h.reserve.released, h.reserve.left⟩
    have hClaimed : Kept s (s.investmentsUpdate id (Investment.claimed x)) :=
      ⟨h.of_eq hReserve rfl rfl rfl rfl rfl, .of_eq rfl rfl rfl rfl rfl rfl,
        by simp [Custody.investmentsUpdate, Project.remaining]⟩
    exact hClaimed.trans (hRepays.kept hClaimed.coherent)

theorem kept_reserve (h : s.project.Coherent) {amount : ℚ}
    (hRelease : s.releaseReserve o amount = some s') : Kept s s' := by
  rcases releaseReserve_cases hRelease with rfl | ⟨hCovers, hProject, hFund⟩
  · exact .refl h
  · obtain ⟨hn, hLeft, _, hReclassified⟩ := h.reserve.covers hCovers
    rw [hReclassified] at hProject
    obtain ⟨hRefunded, hReleased, _⟩ := h.reserve
    refine ⟨?_, ?_, ?_⟩
    · rw [hProject]
      refine h.of_eq ⟨hRefunded, ?_, ?_⟩ rfl rfl rfl rfl rfl
      · dsimp only
        omega
      · simp only [Project.remaining] at hLeft
        dsimp only
        omega
    · rw [hProject]
      exact .of_eq rfl rfl rfl rfl rfl rfl
    · rw [hProject, hFund]
      simp only [Project.remaining]
      omega

theorem release_fits {plan : ReleasePlan} (h : s.project.Coherent) (hPos : 0 < plan.amount)
    (hFits : toNumber s.project.releasedAmount + plan.amount ≤
      toNumber s.project.raisedAmount - toNumber s.project.consolidationFee) :
    (s.project.released plan).releasedAmount =
        s.project.releasedAmount + Wallets.toUnits plan.amount ∧
      s.project.releasedAmount + Wallets.toUnits plan.amount ≤
        s.project.raisedAmount - s.project.consolidationFee := by
  rw [value_sub] at hFits
  exact ⟨toUnits_add h.releasedAmount hPos.le, toUnits_le h.releasedAmount hPos.le hFits⟩

theorem kept_release (h : s.project.Coherent) {plan : ReleasePlan} (hPos : 0 < plan.amount)
    (hAt : s.project.consolidationFeeAt ≠ none) (hRelease : s.releaseTx plan = some s') :
    Kept s s' := by
  obtain ⟨⟨m, hRow, hRequested⟩, hFits, hProject, hFund⟩ := releaseTx_spec hRelease
  obtain ⟨hSum, hLe⟩ := release_fits h hPos hFits
  have hUnits : 0 ≤ Wallets.toUnits plan.amount := column_nonneg hPos.le
  have hOld := h.releasedAmount
  refine ⟨?_, ?_, ?_⟩
  · rw [hProject]
    constructor
    · constructor
      · exact fun hNever => absurd hNever hAt
      · exact ⟨h.reserve.refunded, h.reserve.released, h.reserve.left⟩
      · exact h.raised
      · omega
      · rw [hSum]
        exact le_max_of_le_right hLe
    · exact h.ended
  · rw [hProject]
    have hOpen : m.status ≠ .released := by simp [hRequested]
    have hMoved : s.project.Later { s.project with
        milestones := s.project.milestones.modify plan.milestoneId (Milestone.pay plan) } :=
      .of_modify hRow hOpen fun _ => rfl
    exact hMoved.trans (.of_eq rfl rfl rfl rfl rfl rfl)
  · rw [hProject, hFund]
    simp [Project.remaining, Project.released]

theorem kept_milestone (h : s.project.Coherent) {id : MilestoneId} {f : Milestone → Milestone}
    {m : Milestone} (hRow : s.project.milestones[id]? = some m) (hOpen : m.status ≠ .released)
    (hAmount : ∀ m, (f m).amount = m.amount) : Kept s (s.milestonesUpdate id f) :=
  ⟨h.of_eq ⟨h.reserve.refunded, h.reserve.released, h.reserve.left⟩ rfl rfl rfl rfl rfl,
    .of_modify hRow hOpen hAmount, by simp [Custody.milestonesUpdate, Project.remaining]⟩

theorem kept_of_wrote (h : s.project.Coherent) {c : Call} (hPending : Pending s c)
    (hWrote : Wrote o s c s') : Kept s s' := by
  cases hWrote with
  | still => exact .refl h
  | invest hRow hRound => exact kept_invest h hPending hRow hRound
  | transition t => exact kept_transition h hPending
  | charge hCharge =>
    obtain ⟨hEnded, hFee, _⟩ := hPending
    exact kept_charge h.toColumns hFee hEnded hCharge
  | refund hRefund => exact kept_refund h hRefund
  | release hPos hRelease => exact kept_release h hPos hPending.1 hRelease
  | request hRow hOpen =>
    refine kept_milestone h hRow ?_ fun _ => rfl
    rcases hOpen with hOpen | hOpen <;> simp [hOpen]
  | returned hRow hRequested => exact kept_milestone h hRow (by simp [hRequested]) fun _ => rfl
  | loss hLoss =>
    obtain ⟨new, _, hRepays⟩ := lossTx_repays h.reserve hLoss
    exact hRepays.kept h
  | reserve hReserve => exact kept_reserve h hReserve

theorem Transition.next_pending {t : Transition}
    (hStatus : s.project.status = (ADMIN_TRANSITIONS t.action).target) : Pending s t.next := by
  obtain ⟨action, notesGiven⟩ := t
  cases action with
  | close => exact ⟨hStatus ▸ ended_closed, by simp⟩
  | cancel => exact hStatus
  | _ => trivial

theorem resumed_pending {resume : Option ReleasePlan} (hAt : s.project.consolidationFeeAt ≠ none)
    (hRead : ∀ plan ∈ resume, plan.Read s.project) : Pending s (resumed resume) := by
  cases resume with
  | none => trivial
  | some plan => exact ⟨hAt, hRead plan rfl⟩

theorem releasePlan_spec {p : Project} {kyb : Bool} {id : MilestoneId} {plan : ReleasePlan}
    (h : releasePlan kyb id p = some plan) :
    p.status ∈ RELEASABLE ∧ p.earlierReleased id ∧
      ∃ m, p.milestones[id]? = some m ∧ m.status = .requested ∧
        plan = ⟨p, id, m, p.consolidationFee⟩ := by
  simp only [releasePlan, Option.bind_eq_bind, Option.bind_eq_some_iff,
    Option.ite_none_right_eq_some, Option.some.injEq] at h
  obtain ⟨m, hRow, ⟨hStatus, _, hRequested, hEarlier⟩, rfl⟩ := h
  exact ⟨hStatus, hEarlier, m, hRow, hRequested, rfl⟩

theorem ended_of_releasable {status : ProjectStatus} (h : status ∈ RELEASABLE) :
    status ∈ ENDED := by
  revert h
  cases status <;> decide

theorem pending_of_step {c c' : Call} (hPending : Pending s c)
    (hStep : step o s c = some (s', c')) (hKept : Kept s s') : Pending s' c' := by
  cases c with
  | invest r =>
    simp only [step, Option.ite_none_right_eq_some, Option.some.injEq, Prod.mk.injEq] at hStep
    obtain ⟨hAllowed, _, rfl⟩ := hStep
    exact hAllowed.1
  | investPrior r maximum =>
    simp only [step, Option.ite_none_right_eq_some, Option.some.injEq, Prod.mk.injEq] at hStep
    obtain ⟨_, _, rfl⟩ := hStep
    exact hPending
  | transition t =>
    simp only [step, Option.ite_none_right_eq_some, Option.some.injEq, Prod.mk.injEq] at hStep
    obtain ⟨hAllowed, rfl, rfl⟩ := hStep
    exact hAllowed.2.1
  | transitionTx t status =>
    simp only [step, Custody.transitionTx, Option.bind_eq_bind, Option.bind_eq_some_iff,
      Option.ite_none_right_eq_some, Option.pure_def, Option.some.injEq, Prod.mk.injEq] at hStep
    obtain ⟨_, ⟨_, rfl⟩, rfl, rfl⟩ := hStep
    exact Transition.next_pending rfl
  | closeRead resume =>
    obtain ⟨hEnded, hRead⟩ := hPending
    simp only [step] at hStep
    split at hStep
    · rename_i hAt
      simp only [Option.some.injEq, Prod.mk.injEq] at hStep
      obtain ⟨rfl, rfl⟩ := hStep
      exact resumed_pending (by simp [hAt]) hRead
    · simp only [Option.some.injEq, Prod.mk.injEq] at hStep
      obtain ⟨rfl, rfl⟩ := hStep
      exact ⟨hEnded, listingFee_nonneg _ _, hRead⟩
  | closeTx fee resume =>
    obtain ⟨_, hFee, hRead⟩ := hPending
    simp only [step, Option.bind_eq_bind, Option.bind_eq_some_iff, Option.pure_def,
      Option.some.injEq, Prod.mk.injEq] at hStep
    obtain ⟨_, hCharge, rfl, rfl⟩ := hStep
    refine resumed_pending ?_ fun plan hMem => (hRead plan hMem).still hKept.later
    rcases chargeClaim_cases hFee hCharge with ⟨hAt, rfl⟩ | ⟨_, hProject, _⟩
    · exact hAt
    · rw [hProject]
      exact Option.some_ne_none _
  | refundRead =>
    simp only [step, Option.some.injEq, Prod.mk.injEq] at hStep
    obtain ⟨rfl, rfl⟩ := hStep
    exact hPending
  | refundRows x =>
    simp only [step, Option.some.injEq, Prod.mk.injEq] at hStep
    obtain ⟨rfl, rfl⟩ := hStep
    exact hPending
  | refundEach x rows =>
    cases rows with
    | nil =>
      simp only [step, Option.some.injEq, Prod.mk.injEq] at hStep
      obtain ⟨_, rfl⟩ := hStep
      trivial
    | cons row rows =>
      simp only [step, Option.bind_eq_bind, Option.bind_eq_some_iff, Option.pure_def,
        Option.some.injEq, Prod.mk.injEq] at hStep
      obtain ⟨_, _, rfl, rfl⟩ := hStep
      exact hKept.later.cancelled hPending
  | release id =>
    simp only [step, Option.bind_eq_bind, Option.bind_eq_some_iff] at hStep
    obtain ⟨plan, hPlan, hStep⟩ := hStep
    obtain ⟨hStatus, hEarlier, m, _, _, rfl⟩ := releasePlan_spec hPlan
    have hRead : (ReleasePlan.mk s.project id m s.project.consolidationFee).Read s.project :=
      ⟨ended_of_releasable hStatus, .refl _, hEarlier⟩
    split at hStep
    · rename_i hAt
      simp only [Option.some.injEq, Prod.mk.injEq] at hStep
      obtain ⟨rfl, rfl⟩ := hStep
      exact ⟨by simp [hAt], rfl, hRead⟩
    · simp only [Option.some.injEq, Prod.mk.injEq] at hStep
      obtain ⟨rfl, rfl⟩ := hStep
      refine ⟨ended_of_releasable hStatus, ?_⟩
      intro plan hMem
      cases hMem
      exact hRead
  | feeRead plan =>
    simp only [step, Option.some.injEq, Prod.mk.injEq] at hStep
    obtain ⟨rfl, rfl⟩ := hStep
    obtain ⟨hAt, hRead⟩ := hPending
    exact ⟨hAt, rfl, ⟨hRead.ended, hRead.later, hRead.earlier⟩⟩
  | request id evidenceOk =>
    simp only [step, Option.bind_eq_bind, Option.bind_eq_some_iff, Option.ite_none_right_eq_some,
      Option.some.injEq, Prod.mk.injEq] at hStep
    obtain ⟨_, _, _, _, rfl⟩ := hStep
    trivial
  | loss notesGiven =>
    simp only [step, Option.ite_none_right_eq_some, Option.some.injEq, Prod.mk.injEq] at hStep
    obtain ⟨_, _, rfl⟩ := hStep
    trivial
  | lossRows reserve raised =>
    simp only [step, Option.some.injEq, Prod.mk.injEq] at hStep
    obtain ⟨_, rfl⟩ := hStep
    trivial
  | reserve notesGiven =>
    simp only [step, Option.ite_none_right_eq_some, Option.some.injEq, Prod.mk.injEq] at hStep
    obtain ⟨_, _, rfl⟩ := hStep
    trivial
  | investTx _ | releaseTx _ | requestTx _ | returnTx _ _ | lossTx _ | reserveTx _ =>
    simp only [step, Option.ite_none_right_eq_some, Option.bind_eq_bind, Option.bind_eq_some_iff,
      Option.pure_def, Option.some.injEq, Prod.mk.injEq] at hStep
    obtain ⟨_, _, hStep⟩ := hStep
    first
      | (obtain ⟨_, rfl⟩ := hStep; trivial)
      | (obtain ⟨_, _, rfl⟩ := hStep; trivial)
  | done => cases hStep

end Writes

theorem enter_pending (r : Request) (s : Custody) : Pending s (enter r) := by
  cases r <;> trivial

/-- The columns agree in every state that is reached, and every running call may rely on what it
has read. -/
theorem coherent_reaches {ok : Guard Custody Call Outcome} {start : Custody}
    (hStart : start.project.Coherent) {c : Config Custody Call}
    (h : program.Reaches ok (Program.idle start) c) :
    c.store.project.Coherent ∧ ∀ call ∈ c.calls, Pending c.store call := by
  refine h.assertions (fun s => s.project.Coherent) Pending ⟨hStart, ?_⟩ ?_ ?_ ?_
  · intro call hMem
    cases hMem
  · intro request store _
    exact enter_pending request store
  · intro outcome store store' call call' hCoherent hPending _ hStep
    have hKept := kept_of_wrote hCoherent hPending (wrote_of_step hStep)
    exact ⟨hKept.coherent, pending_of_step hPending hStep hKept⟩
  · intro outcome store store' call call' other hCoherent hPending hOther _ hStep
    exact hOther.later (kept_of_wrote hCoherent hPending (wrote_of_step hStep)).later

end FarmBackend.Projects
