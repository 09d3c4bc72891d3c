import FarmBackend.ProjectLifecycle

/-!
# The ways out for committed money

A project that can be cancelled refunds its investors in one request; a closed one deploys the money
with a request for its first milestone and the release of it. A rejected project has neither.
-/

namespace FarmBackend.Drafts
open Decimal Wallets Fees Interleaving Projects Rows

set_option autoImplicit false

section Ways
variable {s final : Draft}

theorem alone_done (s : Draft) : program.Alone anyStep s (.custody .done) s := by
  have hNone : step (granted 0) s (.custody .done) = none := rfl
  exact .ends trivial hNone

theorem alone_custody {o : Outcome} {c c' : Projects.Call} {next : Custody}
    (hStep : Projects.step o s.custody c = some (next, c'))
    (hRest : program.Alone anyStep { s with custody := next } (.custody c') final) :
    program.Alone anyStep s (.custody c) final := by
  have hNext : step o s (.custody c) = some ({ s with custody := next }, .custody c') := by
    simp only [step, hStep, Option.bind_eq_bind, Option.bind_some, Option.pure_def]
  exact .next trivial hNext hRest

theorem granted_wallets (x : Shares) (inv : Investment) : walletsFound (granted 0) x inv = true :=
  decide_eq_true fun _ => ⟨rfl, fun _ => rfl⟩

/-- The loop of a cancellation runs to its end when every wallet exists. -/
theorem refund_all {x : Shares} {rows : List (Investment × InvestmentId)}
    (hBase : Base s.project) (hCancelled : s.project.status = .cancelled)
    (hLoop : RefundLoop x s.project rows) :
    ∃ final, program.Alone anyStep s (.custody (.refundEach x rows)) final ∧
      ¬final.project.hasCommitted := by
  induction rows generalizing s with
  | nil =>
    exact ⟨s, alone_custody (o := granted 0) rfl (alone_done s), hLoop.done⟩
  | cons row rows ih =>
    obtain ⟨inv, id⟩ := row
    obtain ⟨hRow, hAmount, hFits⟩ := hLoop.head hBase.amounts
    obtain ⟨next, hRefund⟩ := refundTx_succeeds (s := s.custody) hRow hFits (granted_wallets x inv)
    obtain ⟨n, hn, hProject⟩ :=
      refundTx_form hBase.reserve hLoop.share hAmount hRow hRefund
    have hStep : Projects.step (granted 0) s.custody (.refundEach x ((inv, id) :: rows)) =
        some (next, .refundEach x rows) := by
      simp only [Projects.step, hRefund, Option.bind_eq_bind, Option.bind_some, Option.pure_def]
    have hWrote := wrote_of_step hStep
    have hPending : Pending s.custody (.refundEach x ((inv, id) :: rows)) := hCancelled
    have hKept := kept_of_wrote hBase.toCoherent hPending hWrote
    have hNext := base_of_wrote hBase hPending hWrote
    obtain ⟨final, hRest, hNone⟩ := ih (s := { s with custody := next }) hNext
      (hKept.later.cancelled hCancelled) (hLoop.tail hn hProject)
    exact ⟨final, alone_custody hStep hRest, hNone⟩

theorem leave_by_cancel (hBase : Base s.project) (hCancel : Cancellable s.project) :
    ∃ final, program.Serial anyStep s final ∧ ¬final.project.hasCommitted := by
  let t : Transition := ⟨.cancel, false⟩
  let next : Custody := s.custody.update fun p => { p with status := .cancelled }
  have hRead : Projects.step (granted 0) s.custody (.transition t) =
      some (s.custody, .transitionTx t s.project.status) := by
    refine if_pos ⟨?_, hCancel, ?_⟩ <;> simp [t]
  have hClaim : Projects.step (granted 0) s.custody (.transitionTx t s.project.status) =
      some (next, .refundRead) := by
    simp only [Projects.step, Custody.transitionTx, Draft.project, if_true, Option.bind_eq_bind,
      Option.bind_some, Option.pure_def]
    rfl
  have hPending : Pending s.custody (.transitionTx t s.project.status) := hCancel
  have hNext : Base next.project := base_of_wrote hBase hPending (wrote_of_step hClaim)
  obtain ⟨final, hLoop, hNone⟩ := refund_all (s := { s with custody := next }) hNext rfl
    (refundLoop_start hNext.reserve hNext.raised hNext.sum hNext.amounts)
  refine ⟨final, .single (.custody (.transition t)) ?_, hNone⟩
  refine alone_custody hRead (alone_custody hClaim ?_)
  exact alone_custody (o := granted 0) rfl (alone_custody (o := granted 0) rfl hLoop)

theorem releaseTx_succeeds {c : Custody} {plan : ReleasePlan} {m : Milestone}
    (hRow : c.project.milestones[plan.milestoneId]? = some m) (hRequested : m.status = .requested)
    (hFee : plan.fee = c.project.consolidationFee)
    (hRaised : plan.project.raisedAmount = c.project.raisedAmount)
    (hReleased : plan.project.releasedAmount = c.project.releasedAmount)
    (hPos : 0 < plan.amount) : ∃ c', c.releaseTx plan = some c' := by
  have hHeld : plan.amount ≤ heldFunds { plan.project with consolidationFee := plan.fee } :=
    min_le_right _ _
  have hFits : toNumber c.project.releasedAmount + plan.amount ≤
      toNumber c.project.raisedAmount - toNumber c.project.consolidationFee := by
    simp only [heldFunds, hFee, hRaised, hReleased] at hHeld
    rcases max_choice (0 : ℚ) (toNumber c.project.raisedAmount - toNumber c.project.consolidationFee
      - toNumber c.project.releasedAmount) with hZero | hSome
    · rw [hZero] at hHeld
      exact absurd hPos (not_lt.mpr hHeld)
    · rw [hSome] at hHeld
      linarith
  simp only [Custody.releaseTx, hRow, Option.bind_eq_bind, Option.bind_some,
    if_pos (And.intro hRequested hFits)]
  exact ⟨_, rfl⟩

/-- The end of a release: the plan is carried out, and nothing is committed any more. -/
theorem release_ends {o : Outcome} {plan : ReleasePlan} {m : Milestone}
    (hRow : s.project.milestones[plan.milestoneId]? = some m) (hRequested : m.status = .requested)
    (hFee : plan.fee = s.project.consolidationFee)
    (hRaised : plan.project.raisedAmount = s.project.raisedAmount)
    (hReleased : plan.project.releasedAmount = s.project.releasedAmount)
    (hPos : 0 < plan.amount) (hWallet : o.activeWallet plan.project.ownerUserId = true) :
    ∃ final, program.Alone anyStep s (.custody (.releaseTx plan)) final ∧
      ¬final.project.hasCommitted := by
  obtain ⟨next, hRelease⟩ := releaseTx_succeeds (c := s.custody) hRow hRequested hFee hRaised
    hReleased hPos
  have hStep : Projects.step o s.custody (.releaseTx plan) = some (next, .done) := by
    simp only [Projects.step, if_pos (And.intro hPos hWallet), hRelease, Option.bind_eq_bind,
      Option.bind_some, Option.pure_def]
  refine ⟨{ s with custody := next }, alone_custody hStep (alone_done _), ?_⟩
  obtain ⟨_, _, hProject, _⟩ := releaseTx_spec hRelease
  show ¬next.project.hasCommitted
  rw [hProject]
  exact not_committed_released plan s.project

theorem firstPays_iff {p : Project} {fee : ℤ} :
    firstPays p fee = true ↔
      ∃ m, p.milestones[0]? = some m ∧ 0 < (ReleasePlan.mk p 0 m fee).amount := by
  unfold firstPays
  split <;> simp_all

theorem releasable_of_closed {p : Project} (h : p.status = .closed) : p.status ∈ RELEASABLE := by
  rw [h]
  decide

theorem earlierReleased_zero (p : Project) : p.earlierReleased 0 := by
  intro m hMem
  cases hMem

/-- The first milestone of a closed round can be requested unless it is requested already. -/
theorem request_first (hBase : Base s.project) (hClosed : s.project.status = .closed)
    (hPayable : Payable s.project) (hCommitted : s.project.hasCommitted) :
    ∃ next m, program.Serial anyStep s next ∧ next.project.milestones[0]? = some m ∧
      m.status = .requested ∧ next.project.status = .closed ∧ Payable next.project := by
  obtain ⟨o, hPays⟩ := hPayable
  obtain ⟨m, hRow, _⟩ := firstPays_iff.mp hPays
  have hUnpaid := hBase.unpaid hCommitted m (List.mem_of_getElem? hRow)
  by_cases hRequested : m.status = .requested
  · exact ⟨s, m, .refl s, hRow, hRequested, hClosed, o, hPays⟩
  · have hOpen : m.status = .planned ∨ m.status = .returned := by
      revert hUnpaid hRequested
      cases m.status <;> decide
    let next : Custody := s.custody.milestonesUpdate 0 fun m => { m with status := .requested }
    have hAt : s.custody.project.milestones[0]? = some m := hRow
    have hRead : Projects.step (granted 0) s.custody (.request 0 true) =
        some (s.custody, .requestTx 0) := by
      simp only [Projects.step, hAt, Option.bind_eq_bind, Option.bind_some]
      exact if_pos ⟨releasable_of_closed hClosed, earlierReleased_zero _, trivial⟩
    have hClaim : Projects.step (granted 0) s.custody (.requestTx 0) = some (next, .done) := by
      simp only [Projects.step, Custody.requestTx, hAt, Option.bind_eq_bind, Option.bind_some,
        if_pos hOpen, Option.pure_def]
      rfl
    refine ⟨{ s with custody := next }, _, .single (.custody (.request 0 true)) ?_,
      getElem?_modify_self _ hAt, rfl, hClosed, o, ?_⟩
    · exact alone_custody hRead (alone_custody hClaim (alone_done _))
    · have hSame := @firstPays_congr s.custody.project next.project
        (contentOf_modify s.custody.project 0 fun _ => rfl) rfl rfl rfl
        (feeAfter o s.custody.project)
      exact hSame.trans hPays

theorem release_first {m : Milestone} (hRow : s.project.milestones[0]? = some m)
    (hRequested : m.status = .requested) (hClosed : s.project.status = .closed)
    (hPayable : Payable s.project) :
    ∃ final, program.Serial anyStep s final ∧ ¬final.project.hasCommitted := by
  obtain ⟨o, hPays⟩ := hPayable
  obtain ⟨m', hRow', hPos⟩ := firstPays_iff.mp hPays
  obtain rfl : m = m' := by simpa [hRow] using hRow'
  let o' : Outcome := { granted 0 with listing := o.listing }
  let plan : ReleasePlan := ⟨s.custody.project, 0, m, s.custody.project.consolidationFee⟩
  have hAt : s.custody.project.milestones[0]? = some m := hRow
  have hPlan : releasePlan true 0 s.custody.project = some plan := by
    simp only [releasePlan, hAt, Option.bind_eq_bind, Option.bind_some]
    exact if_pos ⟨releasable_of_closed hClosed, trivial, hRequested, earlierReleased_zero _⟩
  cases hFeeAt : s.custody.project.consolidationFeeAt with
  | some at' =>
    have hFee : feeAfter o s.project = s.custody.project.consolidationFee := by
      simp only [feeAfter, Draft.project, hFeeAt]
    rw [hFee] at hPos
    have hRead : Projects.step o' s.custody (.release 0) = some (s.custody, .releaseTx plan) := by
      have hKyb : o'.kyb = true := rfl
      simp only [Projects.step, hKyb, hPlan, hFeeAt, Option.bind_eq_bind, Option.bind_some]
    have hEnds := @release_ends s o' plan m hRow hRequested rfl rfl rfl hPos rfl
    obtain ⟨final, hEnd, hNone⟩ := hEnds
    exact ⟨final, .single (.custody (.release 0)) (alone_custody hRead hEnd), hNone⟩
  | none =>
    let fee : ℚ := Custody.listingFee o.listing s.custody.project.raisedAmount
    have hFee : feeAfter o s.project = Wallets.toUnits fee := by
      simp only [feeAfter, Draft.project, hFeeAt, fee]
    rw [hFee] at hPos
    have hRead : Projects.step o' s.custody (.release 0) =
        some (s.custody, .closeRead (some plan)) := by
      have hKyb : o'.kyb = true := rfl
      simp only [Projects.step, hKyb, hPlan, hFeeAt, Option.bind_eq_bind, Option.bind_some]
    have hClose : Projects.step o' s.custody (.closeRead (some plan)) =
        some (s.custody, .closeTx fee (some plan)) := by
      simp only [Projects.step, hFeeAt]
      rfl
    obtain ⟨next, hCharge⟩ : ∃ next, s.custody.chargeClaim o' fee = some next := by
      unfold Custody.chargeClaim
      rw [hFeeAt]
      dsimp only
      split
      · exact ⟨_, if_pos rfl⟩
      · exact ⟨_, rfl⟩
    have hNext : next.project = s.custody.project.charged o'.now fee := by
      rcases chargeClaim_cases (listingFee_nonneg _ _) hCharge with ⟨hSet, _⟩ | ⟨_, hProject, _⟩
      · exact absurd hFeeAt hSet
      · exact hProject
    have hTaken : Projects.step o' s.custody (.closeTx fee (some plan)) =
        some (next, .feeRead plan) := by
      simp only [Projects.step, hCharge, Option.bind_eq_bind, Option.bind_some, Option.pure_def]
      rfl
    have hFeeNow : next.project.consolidationFee = Wallets.toUnits fee := by
      rw [hNext]
      rfl
    let plan' : ReleasePlan := { plan with fee := next.project.consolidationFee }
    have hPos' : 0 < plan'.amount := by
      simp only [plan', hFeeNow]
      exact hPos
    have hEnds := @release_ends { s with custody := next } o' plan' m (by
        show next.project.milestones[0]? = some m
        rw [hNext]
        exact hRow) hRequested rfl (by
        show s.custody.project.raisedAmount = next.project.raisedAmount
        rw [hNext]
        rfl) (by
        show s.custody.project.releasedAmount = next.project.releasedAmount
        rw [hNext]
        rfl) hPos' rfl
    obtain ⟨final, hEnd, hNone⟩ := hEnds
    refine ⟨final, .single (.custody (.release 0)) ?_, hNone⟩
    refine alone_custody hRead (alone_custody hClose (alone_custody hTaken ?_))
    exact alone_custody (o := o') rfl hEnd

end Ways

/-- Before the first investment, with no milestone paid. -/
structure Draft.New (s : Draft) : Prop where
  opened : s.project.Opened
  unpaid : ∀ m ∈ s.project.milestones, m.status ≠ .released

theorem Draft.New.safe {s : Draft} (h : s.New) : Safe s.project := by
  have hNone : ¬s.project.hasCommitted := by
    rintro ⟨inv, hMem, _⟩
    rw [h.opened.investments] at hMem
    cases hMem
  refine .of_none ⟨h.opened.toFresh.coherent, h.opened.solvent.sum, h.opened.solvent.amounts, ?_,
    fun hCommitted => absurd hCommitted hNone⟩ hNone
  intro m hMem hReleased
  exact absurd hReleased (h.unpaid m hMem)

/-- No request changes a rejected project whose fee was never taken, but for a milestone. -/
structure Dead (p : Project) : Prop where
  rejected : p.status = .rejected
  open_ : p.consolidationFeeAt = none
  committed : p.hasCommitted

def opening : Call → Bool
  | .update _ | .setMilestones _ | .submit | .done => true
  | .custody (.invest _) | .custody (.transition _) | .custody (.release _) => true
  | .custody (.request _ _) | .custody (.returnTx _ _) | .custody (.loss _) => true
  | .custody (.reserve _) | .custody .done => true
  | _ => false

theorem dead_step {o : Outcome} {s s' : Draft} {c c' : Call} (h : Dead s.project)
    (hOpening : opening c = true) (hStep : step o s c = some (s', c')) :
    Dead s'.project ∧ opening c' = true := by
  obtain ⟨hRejected, hAt, hCommitted⟩ := h
  have hStatus : s.custody.project.status = .rejected := hRejected
  have hFee : s.custody.project.consolidationFeeAt = none := hAt
  cases c with
  | update dto => simp [step, hRejected, EDITABLE] at hStep
  | setMilestones items => simp [step, hRejected, EDITABLE] at hStep
  | submit => simp [step, hRejected, EDITABLE] at hStep
  | custody c =>
    simp only [step, Option.bind_eq_bind, Option.bind_eq_some_iff, Option.pure_def,
      Option.some.injEq, Prod.mk.injEq] at hStep
    obtain ⟨⟨next, call'⟩, hNext, rfl, rfl⟩ := hStep
    cases c with
    | invest r => simp [Projects.step, Invest.allowed, hStatus, INVESTABLE] at hNext
    | transition t =>
      obtain ⟨action, notesGiven⟩ := t
      cases action <;>
        simp [Projects.step, Transition.allowed, hStatus, ADMIN_TRANSITIONS] at hNext
    | release id => simp [Projects.step, releasePlan, hStatus, RELEASABLE] at hNext
    | request id evidenceOk => simp [Projects.step, hStatus, RELEASABLE] at hNext
    | returnTx id notesGiven =>
      simp only [Projects.step, Custody.returnTx, Option.bind_eq_bind, Option.bind_eq_some_iff,
        Option.ite_none_right_eq_some, Option.pure_def, Option.some.injEq, Prod.mk.injEq] at hNext
      obtain ⟨_, _, ⟨m, _, _, rfl⟩, rfl, rfl⟩ := hNext
      exact ⟨⟨hRejected, hAt, hCommitted⟩, rfl⟩
    | loss notesGiven => simp [Projects.step, Project.lossAllowed, hFee] at hNext
    | reserve notesGiven => simp [Projects.step, Project.completed, hFee] at hNext
    | done => cases hNext
    | _ => cases hOpening
  | done => cases hStep
  | _ => cases hOpening

theorem dead_forever {s final : Draft} (h : program.Serial anyStep s final)
    (hDead : Dead s.project) : final.project.hasCommitted := by
  have hEnd : Dead final.project := by
    refine h.invariant (I := fun s => Dead s.project)
      (A := fun s c => Dead s.project ∧ opening c = true) ?_ ?_ ?_ hDead
    · intro request store hI
      refine ⟨hI, ?_⟩
      cases request with
      | custody r => cases r <;> rfl
      | _ => rfl
    · intro outcome store store' call call' hA _ hStep
      exact dead_step hA.1 hA.2 hStep
    · intro outcome store call hA _ _
      exact hA.1
  exact hEnd.committed

def listAndInvest : List (Request × Outcome) :=
  [(.submit, granted 1), (.custody (.transition ⟨.approve, false⟩), granted 2),
    (.custody (.transition ⟨.list, false⟩), granted 3), (.custody (.invest ⟨5, 10⟩), granted 4)]

def unlistAndReject : List (Request × Outcome) :=
  [(.custody (.transition ⟨.unlist, false⟩), granted 5),
    (.custody (.transition ⟨.reject, true⟩), granted 6)]

theorem readyDraft_new : readyDraft.New :=
  ⟨⟨⟨rfl, rfl, rfl, rfl, rfl, le_refl 0⟩, by decide, rfl, rfl, rfl⟩, by decide⟩

end FarmBackend.Drafts
