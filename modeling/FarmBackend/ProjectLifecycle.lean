import FarmBackend.DraftReview
import FarmBackend.ProjectRefunds
import FarmBackend.Serial

/-!
# From every state investors get their money back or deployed

Requests of businesses, admins and investors, one after the other. A committed investment leaves its
status by a cancellation, which refunds it, or by the first milestone that is paid. Three actions
can put an end to both: a rejection after a listing was taken back, a closing after which the first
milestone has nothing to pay, and a cancellation that stops at an investor without a wallet.
-/

namespace FarmBackend.Drafts
open Decimal Wallets Fees Interleaving Projects Rows

set_option autoImplicit false

/-- Whether a release of the first milestone would pay anything under this fee. -/
def firstPays (p : Project) (fee : ℤ) : Bool :=
  match p.milestones[0]? with
  | none => false
  | some m => decide (0 < (ReleasePlan.mk p 0 m fee).amount)

def feeAfter (o : Outcome) (p : Project) : ℤ :=
  match p.consolidationFeeAt with
  | some _ => p.consolidationFee
  | none => Wallets.toUnits (Custody.listingFee o.listing p.raisedAmount)

/-- Only projects without committed investments are rejected, a closing leaves the first milestone
something to pay, and a cancellation finds the wallets it needs. -/
def careful (o : Outcome) (s : Draft) : Call → Bool
  | .custody (.transitionTx t _) => decide (t.action = .reject → ¬s.project.hasCommitted)
  | .custody (.closeRead _) =>
    decide (s.project.hasCommitted → firstPays s.project (feeAfter o s.project) = true)
  | .custody (.refundEach x ((inv, _) :: _)) =>
    decide (s.project.hasCommitted → walletsFound o x inv = true)
  | _ => true

abbrev Careful : Guard Draft Call Outcome := fun o s c => careful o s c = true

structure Base (p : Project) : Prop extends p.Coherent where
  sum : p.raisedAmount = (p.investments.map (·.amount)).sum
  amounts : ∀ inv ∈ p.investments, 0 ≤ inv.amount
  begun : ∀ m ∈ p.milestones, m.status = .released → p.consolidationFeeAt ≠ none
  unpaid : p.hasCommitted → ∀ m ∈ p.milestones, m.status ≠ .released

/-- The first milestone can be paid, at least under some rule while the fee is open. -/
def Payable (p : Project) : Prop := ∃ o : Outcome, firstPays p (feeAfter o p) = true

def Cancellable (p : Project) : Prop := p.status ∈ (ADMIN_TRANSITIONS .cancel).source

def Secured (p : Project) : Prop := Cancellable p ∨ (p.status = .closed ∧ Payable p)

/-- What holds between the calls. -/
structure Safe (p : Project) : Prop where
  base : Base p
  secured : p.hasCommitted → Secured p

section Payable
variable {p p' : Project}

theorem firstPays_congr (hAmounts : p'.milestones.map (·.amount) = p.milestones.map (·.amount))
    (hTarget : p'.targetAmount = p.targetAmount) (hRaised : p'.raisedAmount = p.raisedAmount)
    (hReleased : p'.releasedAmount = p.releasedAmount) (fee : ℤ) :
    firstPays p' fee = firstPays p fee := by
  have hLength : p'.milestones.length = p.milestones.length := by
    simpa using congrArg List.length hAmounts
  have hFirst : p'.milestones[0]?.map (·.amount) = p.milestones[0]?.map (·.amount) := by
    rw [← List.getElem?_map, ← List.getElem?_map, hAmounts]
  unfold firstPays
  cases hm : p.milestones[0]? with
  | none =>
    rw [hm, Option.map_none, Option.map_eq_none_iff] at hFirst
    rw [hFirst]
  | some m =>
    rw [hm, Option.map_some, Option.map_eq_some_iff] at hFirst
    obtain ⟨m', hm', hAmount⟩ := hFirst
    have hSame : (ReleasePlan.mk p' 0 m' fee).amount = (ReleasePlan.mk p 0 m fee).amount := by
      simp only [ReleasePlan.amount, heldFunds, hAmount, hTarget, hRaised, hReleased, hLength]
    rw [hm']
    dsimp only
    rw [hSame]

theorem Secured.of_eq (h : Secured p) (hStatus : p'.status = p.status)
    (hAmounts : p'.milestones.map (·.amount) = p.milestones.map (·.amount))
    (hTarget : p'.targetAmount = p.targetAmount) (hRaised : p'.raisedAmount = p.raisedAmount)
    (hReleased : p'.releasedAmount = p.releasedAmount)
    (hAt : p'.consolidationFeeAt = p.consolidationFeeAt)
    (hFee : p'.consolidationFee = p.consolidationFee) : Secured p' := by
  rcases h with hCancel | ⟨hClosed, o, hPays⟩
  · left
    unfold Cancellable
    rwa [hStatus]
  · right
    refine ⟨hStatus.trans hClosed, o, ?_⟩
    have hAfter : feeAfter o p' = feeAfter o p := by simp only [feeAfter, hAt, hFee, hRaised]
    rwa [hAfter, firstPays_congr hAmounts hTarget hRaised hReleased]

theorem not_secured_of_editable (hStatus : p.status ∈ EDITABLE) : ¬Secured p := by
  have hFacts : p.status ∉ (ADMIN_TRANSITIONS .cancel).source ∧ p.status ≠ .closed := by
    revert hStatus
    cases p.status <;> decide
  rintro (hCancel | ⟨hClosed, _⟩)
  · exact hFacts.1 hCancel
  · exact hFacts.2 hClosed

end Payable

/-! What the custody's transactions leave of the investments and the milestones. -/

section Base
variable {o : Outcome} {s s' : Custody} {p p' : Project}

theorem hasCommitted_iff (hRows : p'.investments = p.investments) :
    p'.hasCommitted ↔ p.hasCommitted := by
  unfold Project.hasCommitted
  rw [hRows]

theorem Base.of_eq (h : Base p) (hCoherent : p'.Coherent) (hRaised : p'.raisedAmount = p.raisedAmount)
    (hRows : p'.investments = p.investments) (hMilestones : p'.milestones = p.milestones)
    (hAt : p.consolidationFeeAt ≠ none → p'.consolidationFeeAt ≠ none) : Base p' where
  toCoherent := hCoherent
  sum := by rw [hRaised, hRows]; exact h.sum
  amounts := by rw [hRows]; exact h.amounts
  begun := by
    rw [hMilestones]
    intro m hMem hReleased
    exact hAt (h.begun m hMem hReleased)
  unpaid := by
    rw [hasCommitted_iff hRows, hMilestones]
    exact h.unpaid

theorem not_committed_activate (rows : List Investment) :
    ∀ inv ∈ rows.map Investment.activate, inv.status ≠ .committed := by
  intro inv hMem
  obtain ⟨old, _, rfl⟩ := List.mem_map.mp hMem
  unfold Investment.activate
  split
  · simp
  · assumption

theorem not_committed_released (plan : ReleasePlan) (p : Project) :
    ¬(p.released plan).hasCommitted := by
  rintro ⟨inv, hMem, hCommitted⟩
  exact not_committed_activate _ inv hMem hCommitted

theorem Base.of_milestone (h : Base p) (hCoherent : p'.Coherent) {id : MilestoneId}
    {f : Milestone → Milestone} (hf : ∀ m, (f m).status ≠ .released)
    (hProject : p' = { p with milestones := p.milestones.modify id f }) : Base p' := by
  subst hProject
  have hOld : ∀ m ∈ p.milestones.modify id f, m.status = .released → m ∈ p.milestones := by
    intro m hMem hReleased
    obtain ⟨i, hAt⟩ := List.mem_iff_getElem?.mp hMem
    rcases getElem?_modify_cases hAt with ⟨_, old, _, rfl⟩ | ⟨_, hSame⟩
    · exact absurd hReleased (hf old)
    · exact List.mem_of_getElem? hSame
  refine ⟨hCoherent, h.sum, h.amounts, ?_, ?_⟩
  · intro m hMem hReleased
    exact h.begun m (hOld m hMem hReleased) hReleased
  · intro hCommitted m hMem hReleased
    exact h.unpaid hCommitted m (hOld m hMem hReleased) hReleased

theorem base_repays (h : Base s.project) {new : List Refund} (hCoherent : s'.project.Coherent)
    (hRepays : Repays new s s') : Base s'.project := by
  obtain ⟨n, _, _, hProject, _⟩ := hRepays
  refine h.of_eq hCoherent ?_ ?_ ?_ ?_ <;> rw [hProject]
  · rfl
  · rfl
  · rfl
  · exact id

theorem base_claimed (h : Base p) (x : Shares) (id : InvestmentId)
    (hCoherent : ({ p with investments := p.investments.modify id (Investment.claimed x) }
      : Project).Coherent) :
    Base { p with investments := p.investments.modify id (Investment.claimed x) } := by
  have hOld : ∀ inv ∈ p.investments.modify id (Investment.claimed x),
      inv ∈ p.investments ∨ ∃ old ∈ p.investments, inv = old.claimed x := by
    intro inv hMem
    obtain ⟨i, hAt⟩ := List.mem_iff_getElem?.mp hMem
    rcases getElem?_modify_cases hAt with ⟨_, old, hOld, rfl⟩ | ⟨_, hSame⟩
    · exact .inr ⟨old, List.mem_of_getElem? hOld, rfl⟩
    · exact .inl (List.mem_of_getElem? hSame)
  refine ⟨hCoherent, ?_, ?_, h.begun, ?_⟩
  · refine h.sum.trans (congrArg List.sum ?_)
    apply List.ext_getElem?
    intro i
    rw [List.getElem?_map, List.getElem?_map, List.getElem?_modify]
    cases p.investments[i]? with
    | none => rfl
    | some inv =>
      simp only [Option.map_eq_map, Option.map_some]
      split <;> rfl
  · intro inv hMem
    rcases hOld inv hMem with hIn | ⟨old, hIn, rfl⟩
    · exact h.amounts inv hIn
    · exact h.amounts old hIn
  · rintro ⟨inv, hMem, hCommitted⟩
    rcases hOld inv hMem with hIn | ⟨old, _, rfl⟩
    · exact h.unpaid ⟨inv, hIn, hCommitted⟩
    · have hRefunded := refundedStatus_isRefunded x
      have hStatus : Custody.refundedStatus x = .committed := hCommitted
      rw [hStatus] at hRefunded
      cases hRefunded

theorem base_invest (h : Base s.project) {r : Invest} {s₁ : Custody} (hPos : 0 < r.amount)
    (hCoherent : s'.project.Coherent) (hRow : s.investRow o r.userId r.amount = some s₁)
    (hRound : s₁.fundIfReached o = some s') : Base s'.project := by
  obtain ⟨hOpen, _, hProject, _⟩ := investRow_spec hRow
  have hAt := h.unset_of_investable hOpen
  have hUnpaid : ∀ m ∈ s.project.milestones, m.status ≠ .released :=
    fun m hMem hReleased => h.begun m hMem hReleased hAt
  have hUnits : 0 ≤ Wallets.toUnits r.amount := column_nonneg hPos.le
  have hRaised : (s.project.invested r.userId r.amount).raisedAmount =
      s.project.raisedAmount + Wallets.toUnits r.amount := toUnits_add h.raised hPos.le
  have hSame : s'.project.raisedAmount = (s.project.invested r.userId r.amount).raisedAmount ∧
      s'.project.investments = (s.project.invested r.userId r.amount).investments ∧
      s'.project.milestones = s.project.milestones := by
    rcases fundIfReached_cases hRound with rfl | hCharge
    · rw [hProject]
      exact ⟨rfl, rfl, rfl⟩
    · rcases chargeClaim_cases (listingFee_nonneg _ _) hCharge with ⟨_, rfl⟩ | ⟨_, hCharged, _⟩
      · rw [Custody.update_project, hProject]
        exact ⟨rfl, rfl, rfl⟩
      · rw [hCharged, Custody.update_project, hProject]
        exact ⟨rfl, rfl, rfl⟩
  obtain ⟨hRaised', hRows', hMilestones'⟩ := hSame
  refine ⟨hCoherent, ?_, ?_, ?_, ?_⟩
  · rw [hRaised', hRows', hRaised, h.sum]
    simp [Project.invested]
  · rw [hRows']
    exact amounts_append h.amounts hUnits
  · rw [hMilestones']
    intro m hMem hReleased
    exact absurd hReleased (hUnpaid m hMem)
  · rw [hMilestones']
    exact fun _ => hUnpaid

theorem base_release (h : Base s.project) {plan : ReleasePlan} (hCoherent : s'.project.Coherent)
    (hAt : s.project.consolidationFeeAt ≠ none) (hRelease : s.releaseTx plan = some s') :
    Base s'.project := by
  obtain ⟨_, _, hProject, _⟩ := releaseTx_spec hRelease
  rw [hProject] at hCoherent ⊢
  refine ⟨hCoherent, ?_, ?_, fun _ _ _ => hAt, ?_⟩
  · refine h.sum.trans (congrArg List.sum ?_)
    simp only [Project.released, List.map_map]
    exact (List.map_congr_left fun inv _ => (activate_refundedAmount inv).2).symm
  · intro inv hMem
    obtain ⟨old, hOld, rfl⟩ := List.mem_map.mp hMem
    rw [(activate_refundedAmount old).2]
    exact h.amounts old hOld
  · exact fun hCommitted => absurd hCommitted (not_committed_released plan s.project)

theorem base_charge (h : Base s.project) {fee : ℚ} (hFee : 0 ≤ fee)
    (hCoherent : s'.project.Coherent) (hCharge : s.chargeClaim o fee = some s') :
    Base s'.project := by
  rcases chargeClaim_cases hFee hCharge with ⟨_, rfl⟩ | ⟨_, hProject, _⟩
  · exact h
  · rw [hProject] at hCoherent ⊢
    exact h.of_eq hCoherent rfl rfl rfl fun _ => Option.some_ne_none _

theorem base_of_wrote (h : Base s.project) {c : Projects.Call} (hPending : Pending s c)
    (hWrote : Wrote o s c s') : Base s'.project := by
  have hCoherent := (kept_of_wrote h.toCoherent hPending hWrote).coherent
  cases hWrote with
  | still => exact h
  | invest hRow hRound => exact base_invest h hPending hCoherent hRow hRound
  | transition t => exact h.of_eq hCoherent rfl rfl rfl id
  | charge hCharge => exact base_charge h hPending.2.1 hCoherent hCharge
  | @refund x inv id rows _ hRefund =>
    rcases refundTx_cases h.reserve hRefund with rfl | ⟨_, new, _, _, _, hRepays⟩
    · exact h
    · have hClaimed : Base (s.investmentsUpdate id (Investment.claimed x)).project :=
        base_claimed h x id (h.toCoherent.of_eq
          ⟨h.reserve.refunded, h.reserve.released, h.reserve.left⟩ rfl rfl rfl rfl rfl)
      exact base_repays hClaimed hCoherent hRepays
  | release hPos hRelease => exact base_release h hCoherent hPending.1 hRelease
  | request hRow hOpen => exact h.of_milestone hCoherent (fun _ => by simp) rfl
  | returned hRow hRequested => exact h.of_milestone hCoherent (fun _ => by simp) rfl
  | loss hLoss =>
    obtain ⟨_, _, hRepays⟩ := lossTx_repays h.reserve hLoss
    exact base_repays h hCoherent hRepays
  | reserve hReserve =>
    rcases releaseReserve_cases hReserve with rfl | ⟨_, hProject, _⟩
    · exact h
    · rw [hProject] at hCoherent ⊢
      exact h.of_eq hCoherent rfl rfl rfl id

end Base

/-! One call at a time. -/

/-- What holds while a call of the custody runs alone. A closing and a cancellation pass through
states that are not safe. -/
def Turn (s : Custody) : Projects.Call → Prop
  | .transitionTx _ status => Safe s.project ∧ s.project.status = status
  | .closeRead _ => Base s.project ∧
      (s.project.hasCommitted → Cancellable s.project ∨ s.project.status = .closed)
  | .closeTx fee _ => Base s.project ∧ s.project.consolidationFeeAt = none ∧
      (s.project.hasCommitted → Cancellable s.project ∨ (s.project.status = .closed ∧
        ∃ o : Outcome, fee = Custody.listingFee o.listing s.project.raisedAmount ∧
          firstPays s.project (Wallets.toUnits fee) = true))
  | .refundRead => Base s.project
  | .refundRows x => Base s.project ∧ x = refundShares s.project
  | .refundEach x rows => Base s.project ∧ RefundLoop x s.project rows
  | _ => Safe s.project

section Turns
variable {o : Outcome} {s s' : Custody} {c c' : Projects.Call}

theorem Safe.of_none {p : Project} (h : Base p) (hNone : ¬p.hasCommitted) : Safe p :=
  ⟨h, fun hCommitted => absurd hCommitted hNone⟩

theorem safe_invest {r : Invest} {s₁ : Custody} (hBase : Base s'.project)
    (hRow : s.investRow o r.userId r.amount = some s₁) (hRound : s₁.fundIfReached o = some s') :
    Safe s'.project := by
  refine ⟨hBase, fun _ => .inl ?_⟩
  obtain ⟨_, hMoved⟩ := moved_of_wrote (.invest hRow hRound)
  unfold Cancellable
  cases hMoved with
  | same hStatus =>
    rw [hStatus]
    have hOpen := (investRow_spec hRow).1
    revert hOpen
    cases s.project.status <;> decide
  | funded _ hStatus =>
    rw [hStatus]
    decide
  | action t hCall => cases hCall

theorem safe_transition (h : Safe s.project) {t : Transition}
    (hSource : s.project.status ∈ (ADMIN_TRANSITIONS t.action).source)
    (hReject : t.action = .reject → ¬s.project.hasCommitted) (hNotClose : t.action ≠ .close)
    (hNotCancel : t.action ≠ .cancel)
    (hBase : Base { s.project with status := (ADMIN_TRANSITIONS t.action).target }) :
    Safe { s.project with status := (ADMIN_TRANSITIONS t.action).target } := by
  refine ⟨hBase, ?_⟩
  intro hCommitted
  have hOld : s.project.hasCommitted := hCommitted
  have hSecured := h.secured hOld
  have hClosed := (transition_ended hSource).2.1
  obtain ⟨action, notesGiven⟩ := t
  -- only a list and an unlist start from a project that can be cancelled
  have hCancellable : Cancellable s.project := by
    rcases hSecured with hCancel | ⟨hStatus, _⟩
    · exact hCancel
    · exact absurd hStatus hClosed
  unfold Cancellable at hCancellable
  left
  unfold Cancellable
  cases action with
  | reject => exact absurd hOld (hReject rfl)
  | close => exact absurd rfl hNotClose
  | cancel => exact absurd rfl hNotCancel
  | list => exact (by decide : ProjectStatus.listed ∈ (ADMIN_TRANSITIONS .cancel).source)
  | unlist => exact (by decide : ProjectStatus.approved ∈ (ADMIN_TRANSITIONS .cancel).source)
  | startReview | requestInfo | approve =>
    simp only [ADMIN_TRANSITIONS, List.mem_cons, List.not_mem_nil, or_false] at hSource hCancellable
    rw [hSource] at hCancellable
    exact absurd hCancellable (by decide)

theorem Safe.of_same {p p' : Project} (h : Safe p) (hBase : Base p')
    (hRows : p'.investments = p.investments) (hStatus : p'.status = p.status)
    (hAmounts : p'.milestones.map (·.amount) = p.milestones.map (·.amount))
    (hTarget : p'.targetAmount = p.targetAmount) (hRaised : p'.raisedAmount = p.raisedAmount)
    (hReleased : p'.releasedAmount = p.releasedAmount)
    (hAt : p'.consolidationFeeAt = p.consolidationFeeAt)
    (hFee : p'.consolidationFee = p.consolidationFee) : Safe p' := by
  refine ⟨hBase, ?_⟩
  rw [hasCommitted_iff hRows]
  intro hCommitted
  exact (h.secured hCommitted).of_eq hStatus hAmounts hTarget hRaised hReleased hAt hFee

theorem safe_repays (h : Safe s.project) {new : List Refund} (hBase : Base s'.project)
    (hRepays : Repays new s s') : Safe s'.project := by
  obtain ⟨n, _, _, hProject, _⟩ := hRepays
  rw [hProject] at hBase ⊢
  exact h.of_same hBase rfl rfl rfl rfl rfl rfl rfl rfl

theorem safe_charge {fee : ℚ} (hFee : 0 ≤ fee) (hAt : s.project.consolidationFeeAt = none)
    (hBase : Base s'.project) (hCharge : s.chargeClaim o fee = some s')
    (hSecured : s.project.hasCommitted → Cancellable s.project ∨ (s.project.status = .closed ∧
      ∃ o : Outcome, fee = Custody.listingFee o.listing s.project.raisedAmount ∧
        firstPays s.project (Wallets.toUnits fee) = true)) : Safe s'.project := by
  rcases chargeClaim_cases hFee hCharge with ⟨hSet, _⟩ | ⟨_, hProject, _⟩
  · exact absurd hAt hSet
  · rw [hProject] at hBase ⊢
    refine ⟨hBase, ?_⟩
    intro hCommitted
    rcases hSecured hCommitted with hCancel | ⟨hClosed, o', _, hPays⟩
    · exact .inl hCancel
    · refine .inr ⟨hClosed, o', ?_⟩
      have hSame := @firstPays_congr s.project (s.project.charged o.now fee) rfl rfl rfl rfl
        (Wallets.toUnits fee)
      exact hSame.trans hPays

theorem turn_resumed {resume : Option ReleasePlan} (h : Safe s.project) : Turn s (resumed resume) := by
  cases resume <;> exact h

theorem turn_of_step {d : Draft} (hd : d.custody = s) (hPending : Pending s c) (hTurn : Turn s c)
    (hOk : Careful o d (.custody c)) (hStep : Projects.step o s c = some (s', c')) : Turn s' c' := by
  have hWrote := wrote_of_step hStep
  have hCommitted : d.project.hasCommitted ↔ s.project.hasCommitted := by
    unfold Draft.project
    rw [hd]
  cases c with
  | investTx r =>
    have hBase := base_of_wrote hTurn.base hPending hWrote
    simp only [Projects.step, Custody.investTx, Option.bind_eq_bind, Option.bind_eq_some_iff,
      Option.pure_def, Option.some.injEq, Prod.mk.injEq] at hStep
    obtain ⟨_, ⟨s₁, hRow, hRound⟩, rfl, rfl⟩ := hStep
    exact safe_invest hBase hRow hRound
  | transition t =>
    simp only [Projects.step, Option.ite_none_right_eq_some, Option.some.injEq,
      Prod.mk.injEq] at hStep
    obtain ⟨_, rfl, rfl⟩ := hStep
    exact ⟨hTurn, rfl⟩
  | transitionTx t status =>
    obtain ⟨hSafe, rfl⟩ := hTurn
    have hBase := base_of_wrote hSafe.base hPending hWrote
    have hReject : t.action = .reject → ¬s.project.hasCommitted := by
      have hGuard := of_decide_eq_true hOk
      rwa [hCommitted] at hGuard
    simp only [Projects.step, Custody.transitionTx, Option.bind_eq_bind, Option.bind_eq_some_iff,
      Option.ite_none_right_eq_some, Option.pure_def, Option.some.injEq, Prod.mk.injEq] at hStep
    obtain ⟨_, ⟨_, rfl⟩, rfl, rfl⟩ := hStep
    by_cases hClose : t.action = .close
    · obtain ⟨action, notesGiven⟩ := t
      dsimp only at hClose
      subst hClose
      exact ⟨hBase, fun _ => .inr rfl⟩
    by_cases hCancel : t.action = .cancel
    · obtain ⟨action, notesGiven⟩ := t
      dsimp only at hCancel
      subst hCancel
      exact hBase
    · have hNext : t.next = .done := by
        obtain ⟨action, notesGiven⟩ := t
        cases action <;> first | rfl | exact absurd rfl hClose | exact absurd rfl hCancel
      rw [hNext]
      exact safe_transition hSafe hPending hReject hClose hCancel hBase
  | closeRead resume =>
    obtain ⟨hBase, hStatus⟩ := hTurn
    have hPays : s.project.hasCommitted → firstPays s.project (feeAfter o s.project) = true := by
      have hGuard := of_decide_eq_true hOk
      unfold Draft.project at hGuard
      rwa [hd] at hGuard
    simp only [Projects.step] at hStep
    split at hStep
    · simp only [Option.some.injEq, Prod.mk.injEq] at hStep
      obtain ⟨rfl, rfl⟩ := hStep
      refine turn_resumed ⟨hBase, ?_⟩
      intro hSome
      rcases hStatus hSome with hCancel | hClosed
      · exact .inl hCancel
      · exact .inr ⟨hClosed, o, hPays hSome⟩
    · rename_i hAt
      simp only [Option.some.injEq, Prod.mk.injEq] at hStep
      obtain ⟨rfl, rfl⟩ := hStep
      refine ⟨hBase, hAt, ?_⟩
      intro hSome
      rcases hStatus hSome with hCancel | hClosed
      · exact .inl hCancel
      · have hFirst := hPays hSome
        simp only [feeAfter, hAt] at hFirst
        exact .inr ⟨hClosed, o, rfl, hFirst⟩
  | closeTx fee resume =>
    obtain ⟨hOld, hAt, hSecured⟩ := hTurn
    have hBase := base_of_wrote hOld hPending hWrote
    simp only [Projects.step, Option.bind_eq_bind, Option.bind_eq_some_iff, Option.pure_def,
      Option.some.injEq, Prod.mk.injEq] at hStep
    obtain ⟨_, hCharge, rfl, rfl⟩ := hStep
    exact turn_resumed (safe_charge hPending.2.1 hAt hBase hCharge hSecured)
  | refundRead =>
    simp only [Projects.step, Option.some.injEq, Prod.mk.injEq] at hStep
    obtain ⟨rfl, rfl⟩ := hStep
    exact ⟨hTurn, rfl⟩
  | refundRows x =>
    obtain ⟨hBase, rfl⟩ := hTurn
    simp only [Projects.step, Option.some.injEq, Prod.mk.injEq] at hStep
    obtain ⟨rfl, rfl⟩ := hStep
    exact ⟨hBase, refundLoop_start hBase.reserve hBase.raised hBase.sum hBase.amounts⟩
  | refundEach x rows =>
    obtain ⟨hOld, hLoop⟩ := hTurn
    cases rows with
    | nil =>
      simp only [Projects.step, Option.some.injEq, Prod.mk.injEq] at hStep
      obtain ⟨rfl, rfl⟩ := hStep
      exact .of_none hOld hLoop.done
    | cons row rows =>
      obtain ⟨inv, id⟩ := row
      have hBase := base_of_wrote hOld hPending hWrote
      obtain ⟨hRow, hAmount, _⟩ := hLoop.head hOld.amounts
      simp only [Projects.step, Option.bind_eq_bind, Option.bind_eq_some_iff, Option.pure_def,
        Option.some.injEq, Prod.mk.injEq] at hStep
      obtain ⟨_, hRefund, rfl, rfl⟩ := hStep
      obtain ⟨n, hn, hProject⟩ := refundTx_form hOld.reserve hLoop.share hAmount hRow hRefund
      exact ⟨hBase, hLoop.tail hn hProject⟩
  | release id =>
    simp only [Projects.step, Option.bind_eq_bind, Option.bind_eq_some_iff] at hStep
    obtain ⟨plan, _, hStep⟩ := hStep
    split at hStep
    · simp only [Option.some.injEq, Prod.mk.injEq] at hStep
      obtain ⟨rfl, rfl⟩ := hStep
      exact hTurn
    · simp only [Option.some.injEq, Prod.mk.injEq] at hStep
      obtain ⟨rfl, rfl⟩ := hStep
      exact ⟨hTurn.base, fun hSome => (hTurn.secured hSome).imp_right And.left⟩
  | releaseTx plan =>
    have hBase := base_of_wrote hTurn.base hPending hWrote
    simp only [Projects.step, Option.ite_none_right_eq_some, Option.bind_eq_bind,
      Option.bind_eq_some_iff, Option.pure_def, Option.some.injEq, Prod.mk.injEq] at hStep
    obtain ⟨_, _, hRelease, rfl, rfl⟩ := hStep
    obtain ⟨_, _, hProject, _⟩ := releaseTx_spec hRelease
    refine .of_none hBase ?_
    rw [hProject]
    exact not_committed_released plan s.project
  | requestTx id =>
    have hBase := base_of_wrote hTurn.base hPending hWrote
    simp only [Projects.step, Custody.requestTx, Option.bind_eq_bind, Option.bind_eq_some_iff,
      Option.ite_none_right_eq_some, Option.pure_def, Option.some.injEq, Prod.mk.injEq] at hStep
    obtain ⟨_, ⟨m, _, _, rfl⟩, rfl, rfl⟩ := hStep
    exact hTurn.of_same hBase rfl rfl (contentOf_modify s.project _ fun _ => rfl) rfl rfl rfl rfl rfl
  | returnTx id notesGiven =>
    have hBase := base_of_wrote hTurn.base hPending hWrote
    simp only [Projects.step, Custody.returnTx, Option.bind_eq_bind, Option.bind_eq_some_iff,
      Option.ite_none_right_eq_some, Option.pure_def, Option.some.injEq, Prod.mk.injEq] at hStep
    obtain ⟨_, _, ⟨m, _, _, rfl⟩, rfl, rfl⟩ := hStep
    exact hTurn.of_same hBase rfl rfl (contentOf_modify s.project _ fun _ => rfl) rfl rfl rfl rfl rfl
  | lossTx parts =>
    have hBase := base_of_wrote hTurn.base hPending hWrote
    simp only [Projects.step, Option.bind_eq_bind, Option.bind_eq_some_iff, Option.pure_def,
      Option.some.injEq, Prod.mk.injEq] at hStep
    obtain ⟨_, hLoss, rfl, rfl⟩ := hStep
    obtain ⟨_, _, hRepays⟩ := lossTx_repays hTurn.base.reserve hLoss
    exact safe_repays hTurn hBase hRepays
  | reserveTx amount =>
    have hBase := base_of_wrote hTurn.base hPending hWrote
    simp only [Projects.step, Option.bind_eq_bind, Option.bind_eq_some_iff, Option.pure_def,
      Option.some.injEq, Prod.mk.injEq] at hStep
    obtain ⟨_, hReserve, rfl, rfl⟩ := hStep
    rcases releaseReserve_cases hReserve with rfl | ⟨_, hProject, _⟩
    · exact hTurn
    · rw [hProject] at hBase
      have hSafe := hTurn.of_same hBase rfl rfl rfl rfl rfl rfl rfl rfl
      rw [← hProject] at hSafe
      exact hSafe
  | done => cases hStep
  | invest _ | investPrior _ _ | feeRead _ | request _ _ | loss _ | lossRows _ _ | reserve _ =>
    simp only [Projects.step, Option.ite_none_right_eq_some, Option.bind_eq_bind,
      Option.bind_eq_some_iff, Option.some.injEq, Prod.mk.injEq] at hStep
    first
      | (obtain ⟨rfl, rfl⟩ := hStep; exact hTurn)
      | (obtain ⟨_, rfl, rfl⟩ := hStep; exact hTurn)
      | (obtain ⟨_, _, _, rfl, rfl⟩ := hStep; exact hTurn)

/-- A call that throws has left a safe state. -/
theorem safe_of_end {d : Draft} (hd : d.custody = s) (hPending : Pending s c) (hTurn : Turn s c)
    (hOk : Careful o d (.custody c)) (hStep : Projects.step o s c = none) : Safe s.project := by
  cases c with
  | transitionTx t status => exact hTurn.1
  | closeRead resume =>
    simp only [Projects.step] at hStep
    split at hStep <;> cases hStep
  | closeTx fee resume =>
    obtain ⟨hBase, hAt, hSecured⟩ := hTurn
    refine ⟨hBase, ?_⟩
    intro hSome
    rcases hSecured hSome with hCancel | ⟨hClosed, o', rfl, hPays⟩
    · exact .inl hCancel
    · refine .inr ⟨hClosed, o', ?_⟩
      simp only [feeAfter, hAt]
      exact hPays
  | refundRead => cases hStep
  | refundRows x => cases hStep
  | refundEach x rows =>
    obtain ⟨hBase, hLoop⟩ := hTurn
    cases rows with
    | nil => cases hStep
    | cons row rows =>
      obtain ⟨inv, id⟩ := row
      refine .of_none hBase ?_
      intro hSome
      have hGuard := of_decide_eq_true hOk
      unfold Draft.project at hGuard
      rw [hd] at hGuard
      obtain ⟨hRow, _, hFits⟩ := hLoop.head hBase.amounts
      obtain ⟨s', hRefund⟩ := refundTx_succeeds hRow hFits (hGuard hSome)
      simp only [Projects.step, hRefund, Option.bind_eq_bind, Option.bind_some] at hStep
      cases hStep
  | _ => exact hTurn

end Turns

/-- A call of the drafts: between its reads and its write the project is still editable. -/
def Holds (s : Draft) : Call → Prop
  | .updateTx _ => Safe s.project ∧ s.project.status ∈ EDITABLE
  | .milestonesTx _ => Safe s.project ∧ s.project.status ∈ EDITABLE
  | .submitTx _ => Safe s.project ∧ s.project.status ∈ EDITABLE
  | .custody c => Pending s.custody c ∧ Turn s.custody c
  | _ => Safe s.project

section Drafts
variable {o : Outcome} {s s' : Draft} {c c' : Call}

theorem enter_holds (r : Request) (h : Safe s.project) : Holds s (enter r) := by
  cases r with
  | custody r => exact ⟨enter_pending r s.custody, by cases r <;> exact h⟩
  | _ => exact h

/-- An edit while the project is editable: nothing is committed and no fee has been taken. -/
theorem safe_edit {p p' : Project} (h : Safe p) (hStatus : p.status ∈ EDITABLE)
    (hCoherent : p'.Coherent) (hRaised : p'.raisedAmount = p.raisedAmount)
    (hRows : p'.investments = p.investments)
    (hBegun : ∀ m ∈ p'.milestones, m.status = .released → p'.consolidationFeeAt ≠ none) :
    Safe p' := by
  have hNone : ¬p'.hasCommitted := by
    rw [hasCommitted_iff hRows]
    exact fun hCommitted => not_secured_of_editable hStatus (h.secured hCommitted)
  refine .of_none ⟨hCoherent, ?_, ?_, hBegun, fun hCommitted => absurd hCommitted hNone⟩ hNone
  · rw [hRaised, hRows]
    exact h.base.sum
  · rw [hRows]
    exact h.base.amounts

theorem holds_of_step (hHolds : Holds s c) (hOk : Careful o s c)
    (hStep : step o s c = some (s', c')) : Holds s' c' := by
  cases c with
  | update dto =>
    simp only [step, Option.ite_none_right_eq_some, Option.bind_eq_bind, Option.bind_eq_some_iff,
      Option.pure_def, Option.some.injEq, Prod.mk.injEq] at hStep
    obtain ⟨hStatus, d, _, rfl, rfl⟩ := hStep
    exact ⟨hHolds, hStatus⟩
  | updateTx d =>
    obtain ⟨hSafe, hStatus⟩ := hHolds
    simp only [step, Option.some.injEq, Prod.mk.injEq] at hStep
    obtain ⟨rfl, rfl⟩ := hStep
    have hReserve := hSafe.base.reserve
    have hCoherent : (s.patch d).project.Coherent := hSafe.base.toCoherent.of_eq
      ⟨hReserve.refunded, hReserve.released, hReserve.left⟩ rfl rfl rfl rfl rfl
    exact safe_edit hSafe hStatus hCoherent rfl rfl hSafe.base.begun
  | setMilestones items =>
    simp only [step, Option.ite_none_right_eq_some, Option.some.injEq, Prod.mk.injEq] at hStep
    obtain ⟨⟨hStatus, _⟩, rfl, rfl⟩ := hStep
    exact ⟨hHolds, hStatus⟩
  | milestonesTx items =>
    obtain ⟨hSafe, hStatus⟩ := hHolds
    simp only [step, Option.some.injEq, Prod.mk.injEq] at hStep
    obtain ⟨rfl, rfl⟩ := hStep
    have hReserve := hSafe.base.reserve
    have hCoherent : (s.replaceMilestones items).project.Coherent := hSafe.base.toCoherent.of_eq
      ⟨hReserve.refunded, hReserve.released, hReserve.left⟩ rfl rfl rfl rfl rfl
    refine safe_edit hSafe hStatus hCoherent rfl rfl ?_
    intro m hMem hReleased
    obtain ⟨item, _, rfl⟩ := List.mem_map.mp hMem
    cases hReleased
  | submit =>
    simp only [step, Option.ite_none_right_eq_some, Option.some.injEq, Prod.mk.injEq] at hStep
    obtain ⟨⟨hStatus, _⟩, rfl, rfl⟩ := hStep
    exact ⟨hHolds, hStatus⟩
  | submitTx content =>
    obtain ⟨hSafe, hStatus⟩ := hHolds
    simp only [step, Option.ite_none_right_eq_some, Option.some.injEq, Prod.mk.injEq] at hStep
    obtain ⟨_, rfl, rfl⟩ := hStep
    have hReserve := hSafe.base.reserve
    have hNotEnded : s.project.status ∉ ENDED := by
      revert hStatus
      cases s.project.status <;> decide
    refine safe_edit hSafe hStatus ?_ rfl rfl hSafe.base.begun
    exact { hSafe.base.toCoherent with
      reserve := ⟨hReserve.refunded, hReserve.released, hReserve.left⟩
      ended := fun hAt => absurd (hSafe.base.ended hAt) hNotEnded }
  | custody c =>
    obtain ⟨hPending, hTurn⟩ := hHolds
    simp only [step, Option.bind_eq_bind, Option.bind_eq_some_iff, Option.pure_def,
      Option.some.injEq, Prod.mk.injEq] at hStep
    obtain ⟨⟨next, call'⟩, hNext, rfl, rfl⟩ := hStep
    have hTurn' := turn_of_step rfl hPending hTurn hOk hNext
    have hCoherent : s.custody.project.Coherent := by
      cases c with
      | transitionTx t status => exact hTurn.1.base.toCoherent
      | closeRead resume => exact hTurn.1.toCoherent
      | closeTx fee resume => exact hTurn.1.toCoherent
      | refundRead => exact hTurn.toCoherent
      | refundRows x => exact hTurn.1.toCoherent
      | refundEach x rows => exact hTurn.1.toCoherent
      | _ => exact hTurn.base.toCoherent
    have hKept := kept_of_wrote hCoherent hPending (wrote_of_step hNext)
    exact ⟨pending_of_step hPending hNext hKept, hTurn'⟩
  | done => cases hStep

theorem holds_end (hHolds : Holds s c) (hOk : Careful o s c) (hStep : step o s c = none) :
    Safe s.project := by
  cases c with
  | updateTx d => exact hHolds.1
  | milestonesTx items => exact hHolds.1
  | submitTx content => exact hHolds.1
  | custody c =>
    obtain ⟨hPending, hTurn⟩ := hHolds
    refine safe_of_end rfl hPending hTurn hOk ?_
    simpa only [step, Option.bind_eq_bind, Option.pure_def, Option.bind_eq_none_iff, reduceCtorEq,
      imp_false, ← Option.eq_none_iff_forall_ne_some] using hStep
  | _ => exact hHolds

/-- Every serial run whose steps are careful ends in a safe state. -/
theorem safe_serial (h : program.Serial Careful s s') (hSafe : Safe s.project) : Safe s'.project :=
  h.invariant (fun request store hI => @enter_holds store request hI)
    (fun _ _ _ _ _ hHolds hOk hStep => holds_of_step hHolds hOk hStep)
    (fun _ _ _ hHolds hOk hStep => holds_end hHolds hOk hStep) hSafe

end Drafts

end FarmBackend.Drafts
