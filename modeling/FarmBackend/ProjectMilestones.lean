import FarmBackend.ProjectReserve

/-!
# Milestones are paid in order, each once, and together all of the net amount

A release pays what its plan says, and the plan was made from rows that were read before the
transaction. The claim of the milestone keeps it from being paid twice, and the guard on the project
row keeps the sum within what is held. The last milestone takes what was left when the rows were
read; nothing can have been paid since, because all the others had been paid by then.
-/

namespace FarmBackend.Projects
open Decimal Wallets Fees Interleaving Rows

set_option autoImplicit false

def Milestone.paid (m : Milestone) : ℤ :=
  if m.status = .released then m.releasedAmount.getD 0 else 0

structure Project.Ordered (p : Project) : Prop where
  earlier : ∀ (id : ℕ) (m : Milestone), p.milestones[id]? = some m → m.status = .released →
    p.earlierReleased id
  begun : ∀ m ∈ p.milestones, m.status = .released → p.consolidationFeeAt ≠ none
  sum : p.releasedAmount = (p.milestones.map Milestone.paid).sum
  complete : p.milestones ≠ [] → (∀ m ∈ p.milestones, m.status = .released) →
    p.releasedAmount = p.raisedAmount - p.consolidationFee

def Call.plan? : Call → Option ReleasePlan
  | .closeRead resume => resume
  | .closeTx _ resume => resume
  | .feeRead plan => some plan
  | .releaseTx plan => some plan
  | _ => none

/-- The plan was made from rows that agreed with each other. -/
def Planned (c : Call) : Prop := ∀ plan ∈ c.plan?, plan.project.Ordered

section Facts
variable {p p' : Project} {id : ℕ} {m : Milestone}

theorem Milestone.paid_of_open (h : m.status ≠ .released) : m.paid = 0 := if_neg h

theorem earlierReleased_iff :
    p.earlierReleased id ↔
      ∀ i m, i < id → p.milestones[i]? = some m → m.status = .released := by
  constructor
  · intro h i m hLt hAt
    exact h m (List.mem_iff_getElem?.mpr ⟨i, by rw [List.getElem?_take, if_pos hLt, hAt]⟩)
  · intro h m hMem
    obtain ⟨i, hAt⟩ := List.mem_iff_getElem?.mp hMem
    rw [List.getElem?_take] at hAt
    split at hAt
    · rename_i hLt
      exact h i m hLt hAt
    · cases hAt

/-- Before the last milestone is paid nothing changes once all the others are. -/
theorem paid_eq_of_last (h : p.Later p') (hEarlier : p.earlierReleased id)
    (hLast : id + 1 = p.milestones.length) (hRow : p'.milestones[id]? = some m)
    (hOpen : m.status ≠ .released) :
    p'.milestones.map Milestone.paid = p.milestones.map Milestone.paid := by
  apply List.ext_getElem?
  intro i
  rw [List.getElem?_map, List.getElem?_map]
  rcases lt_trichotomy i id with hLt | rfl | hGt
  · obtain ⟨row, hAt⟩ : ∃ row, p.milestones[i]? = some row :=
      ⟨_, List.getElem?_eq_getElem (by omega)⟩
    obtain ⟨row', hAt', hMoves⟩ := h.milestones.forward hAt
    rw [hMoves.2 (earlierReleased_iff.mp hEarlier i row hLt hAt)] at hAt'
    rw [hAt, hAt']
  · obtain ⟨old, hAt, hMoves⟩ := h.milestones.backward hRow
    have hOldOpen : old.status ≠ .released := by
      intro hReleased
      rw [hMoves.2 hReleased] at hOpen
      exact hOpen hReleased
    rw [hRow, hAt, Option.map_some, Option.map_some, Milestone.paid_of_open hOpen,
      Milestone.paid_of_open hOldOpen]
  · have hLength := h.length
    rw [List.getElem?_eq_none (by omega), List.getElem?_eq_none (by omega)]

theorem Project.Ordered.of_open (h : p.Ordered) {f : Milestone → Milestone}
    (hRow : p.milestones[id]? = some m) (hOpen : m.status ≠ .released)
    (hOpen' : (f m).status ≠ .released) :
    ({ p with milestones := p.milestones.modify id f } : Project).Ordered := by
  have hMoved : (p.milestones.modify id f)[id]? = some (f m) := getElem?_modify_self f hRow
  refine ⟨?_, ?_, ?_, ?_⟩
  · intro i row hAt hReleased
    rw [earlierReleased_iff]
    rcases getElem?_modify_cases hAt with ⟨rfl, old, hOld, rfl⟩ | ⟨_, hOld⟩
    · obtain rfl : m = old := by simpa [hRow] using hOld
      exact absurd hReleased hOpen'
    · intro j other hLt hOther
      have hBefore := earlierReleased_iff.mp (h.earlier i row hOld hReleased) j
      rcases getElem?_modify_cases hOther with ⟨rfl, old, hOld', rfl⟩ | ⟨_, hOld'⟩
      · obtain rfl : m = old := by simpa [hRow] using hOld'
        exact absurd (hBefore m hLt hRow) hOpen
      · exact hBefore other hLt hOld'
  · intro row hMem hReleased
    obtain ⟨i, hAt⟩ := List.mem_iff_getElem?.mp hMem
    rcases getElem?_modify_cases hAt with ⟨rfl, old, hOld, rfl⟩ | ⟨_, hOld⟩
    · obtain rfl : m = old := by simpa [hRow] using hOld
      exact absurd hReleased hOpen'
    · exact h.begun row (List.mem_of_getElem? hOld) hReleased
  · rw [sum_map_modify Milestone.paid f hRow, Milestone.paid_of_open hOpen,
      Milestone.paid_of_open hOpen', ← h.sum]
    simp
  · intro _ hAll
    exact absurd (hAll (f m) (List.mem_of_getElem? hMoved)) hOpen'

theorem Project.Ordered.last (h : p.Ordered) (hRow : p.milestones[id]? = some m)
    (hOpen : m.status ≠ .released) (hOthers : ∀ (i : ℕ) (other : Milestone), i ≠ id →
      p.milestones[i]? = some other → other.status = .released) :
    id + 1 = p.milestones.length := by
  obtain ⟨hLt, _⟩ := List.getElem?_eq_some_iff.mp hRow
  by_contra hNot
  obtain ⟨next, hNext⟩ : ∃ next, p.milestones[id + 1]? = some next :=
    ⟨_, List.getElem?_eq_getElem (by omega)⟩
  have hBefore := h.earlier (id + 1) next hNext (hOthers (id + 1) next (by omega) hNext)
  exact hOpen (earlierReleased_iff.mp hBefore id m (by omega) hRow)

/-- A write on other columns. Once a milestone is paid, the round's columns are fixed. -/
theorem Project.Ordered.of_later (h : p.Ordered) (hCoherent : p.Coherent) (hLater : p.Later p')
    (hMilestones : p'.milestones = p.milestones) (hReleased : p'.releasedAmount = p.releasedAmount) :
    p'.Ordered := by
  refine ⟨?_, ?_, ?_, ?_⟩
  · unfold Project.earlierReleased
    rw [hMilestones]
    exact h.earlier
  · rw [hMilestones]
    intro m hMem hPaid
    rw [(hLater.fee (h.begun m hMem hPaid)).1]
    exact h.begun m hMem hPaid
  · rw [hMilestones, hReleased]
    exact h.sum
  · rw [hMilestones, hReleased]
    intro hSome hAll
    obtain ⟨m, hMem⟩ := List.exists_mem_of_ne_nil _ hSome
    have hAt := h.begun m hMem (hAll m hMem)
    rw [hLater.raised (hCoherent.ended hAt), (hLater.fee hAt).2]
    exact h.complete hSome hAll

end Facts

section Release
variable {s s' : Custody} {plan : ReleasePlan}

/-- What the last milestone takes when nothing has been paid since its plan was made. -/
theorem sweep_amount (hPos : 0 < plan.amount) (hFee : plan.fee = s.project.consolidationFee)
    (hRaised : plan.project.raisedAmount = s.project.raisedAmount)
    (hReleased : plan.project.releasedAmount = s.project.releasedAmount)
    (hLast : plan.milestoneId + 1 = plan.project.milestones.length) :
    Wallets.toUnits plan.amount =
      s.project.raisedAmount - s.project.consolidationFee - s.project.releasedAmount := by
  have hHeld : plan.amount = heldFunds { plan.project with consolidationFee := plan.fee } := by
    simp only [ReleasePlan.amount, if_pos hLast, min_self]
  rw [hHeld] at hPos ⊢
  simp only [heldFunds, hFee, hRaised, hReleased, value_sub] at hPos ⊢
  rcases max_choice (0 : ℚ) (toNumber (s.project.raisedAmount - s.project.consolidationFee -
    s.project.releasedAmount)) with hZero | hSome
  · rw [hZero] at hPos
    exact absurd hPos (lt_irrefl 0)
  · rw [hSome, toUnits_toNumber]

theorem ordered_release (hCoherent : s.project.Coherent) (h : s.project.Ordered)
    (hPlan : plan.project.Ordered) (hAt : s.project.consolidationFeeAt ≠ none)
    (hFee : plan.fee = s.project.consolidationFee) (hRead : plan.Read s.project) (hPos : 0 < plan.amount)
    (hRelease : s.releaseTx plan = some s') : s'.project.Ordered := by
  obtain ⟨⟨m, hRow, hRequested⟩, hFits, hProject, _⟩ := releaseTx_spec hRelease
  obtain ⟨hSum, _⟩ := release_fits hCoherent hPos hFits
  have hOpen : m.status ≠ .released := by simp [hRequested]
  have hEarlier : s.project.earlierReleased plan.milestoneId :=
    hRead.later.earlierReleased hRead.earlier
  rw [hProject]
  refine ⟨?_, ?_, ?_, ?_⟩
  · -- the milestones before a released one: those of the old row, or those of the plan
    intro i row hRow' hReleased
    rw [earlierReleased_iff]
    intro j other hLt hOther
    rcases getElem?_modify_cases hOther with ⟨rfl, old, hOld, rfl⟩ | ⟨hNe, hOld⟩
    · rfl
    · rcases getElem?_modify_cases hRow' with ⟨rfl, _, _, rfl⟩ | ⟨_, hOldRow⟩
      · exact earlierReleased_iff.mp hEarlier j other hLt hOld
      · exact earlierReleased_iff.mp (h.earlier i row hOldRow hReleased) j other hLt hOld
  · intro _ _ _
    exact hAt
  · rw [hSum, h.sum]
    simp only [Project.released, sum_map_modify Milestone.paid _ hRow,
      Milestone.paid_of_open hOpen]
    simp [Milestone.paid, Milestone.pay]
  · intro _ hAll
    rw [hSum]
    have hOthers : ∀ (i : ℕ) (other : Milestone), i ≠ plan.milestoneId →
        s.project.milestones[i]? = some other → other.status = .released := by
      intro i other hNe hAt
      have hStill := (getElem?_modify_ne (Milestone.pay plan) hNe.symm).trans hAt
      exact hAll other (List.mem_of_getElem? hStill)
    have hLast := h.last hRow hOpen hOthers
    rw [hRead.later.length] at hLast
    have hPaid := paid_eq_of_last hRead.later hRead.earlier hLast hRow hOpen
    have hUnits := sweep_amount hPos hFee (hRead.later.raised hRead.ended).symm
      (by rw [hPlan.sum, h.sum, hPaid]) hLast
    simp only [Project.released]
    omega

end Release

section Steps
variable {o : Outcome} {s s' : Custody} {c c' : Call}

theorem Repays.milestones {new : List Refund} (h : Repays new s s') :
    s'.project.milestones = s.project.milestones ∧
      s'.project.releasedAmount = s.project.releasedAmount := by
  obtain ⟨n, _, _, hProject, _⟩ := h
  rw [hProject]
  exact ⟨rfl, rfl⟩

theorem chargeClaim_milestones {fee : ℚ} (hFee : 0 ≤ fee) (h : s.chargeClaim o fee = some s') :
    s'.project.milestones = s.project.milestones ∧
      s'.project.releasedAmount = s.project.releasedAmount := by
  rcases chargeClaim_cases hFee h with ⟨_, rfl⟩ | ⟨_, hProject, _⟩
  · exact ⟨rfl, rfl⟩
  · rw [hProject]
    exact ⟨rfl, rfl⟩

theorem invest_milestones {r : Invest} {s₁ : Custody}
    (hRow : s.investRow o r.userId r.amount = some s₁) (hRound : s₁.fundIfReached o = some s') :
    s'.project.milestones = s.project.milestones ∧
      s'.project.releasedAmount = s.project.releasedAmount := by
  obtain ⟨_, _, hProject, _⟩ := investRow_spec hRow
  rcases fundIfReached_cases hRound with rfl | hCharge
  · rw [hProject]
    exact ⟨rfl, rfl⟩
  · obtain ⟨hMilestones, hReleased⟩ := chargeClaim_milestones (listingFee_nonneg _ _) hCharge
    rw [hMilestones, hReleased, Custody.update_project, hProject]
    exact ⟨rfl, rfl⟩

theorem ordered_of_wrote (hCoherent : s.project.Coherent) (h : s.project.Ordered)
    (hPending : Pending s c) (hPlanned : Planned c) (hWrote : Wrote o s c s') :
    s'.project.Ordered := by
  have hLater := (kept_of_wrote hCoherent hPending hWrote).later
  cases hWrote with
  | still => exact h
  | invest hRow hRound =>
    obtain ⟨hMilestones, hReleased⟩ := invest_milestones hRow hRound
    exact h.of_later hCoherent hLater hMilestones hReleased
  | transition t => exact h.of_later hCoherent hLater rfl rfl
  | charge hCharge =>
    obtain ⟨hMilestones, hReleased⟩ := chargeClaim_milestones hPending.2.1 hCharge
    exact h.of_later hCoherent hLater hMilestones hReleased
  | refund hRefund =>
    rcases refundTx_cases hCoherent.reserve hRefund with rfl | ⟨_, _, _, _, _, hRepays⟩
    · exact h
    · exact h.of_later hCoherent hLater hRepays.milestones.1 hRepays.milestones.2
  | release hPos hRelease =>
    obtain ⟨hAt, hFee, hRead⟩ := hPending
    exact ordered_release hCoherent h (hPlanned _ rfl) hAt hFee hRead hPos hRelease
  | request hRow hOpen =>
    refine h.of_open hRow ?_ (by simp)
    rcases hOpen with hOpen | hOpen <;> simp [hOpen]
  | returned hRow hRequested => exact h.of_open hRow (by simp [hRequested]) (by simp)
  | loss hLoss =>
    obtain ⟨_, _, hRepays⟩ := lossTx_repays hCoherent.reserve hLoss
    exact h.of_later hCoherent hLater hRepays.milestones.1 hRepays.milestones.2
  | reserve hReserve =>
    rcases releaseReserve_cases hReserve with rfl | ⟨_, hProject, _⟩
    · exact h
    · rw [hProject] at hLater ⊢
      exact h.of_later hCoherent hLater rfl rfl

/-- A plan that a call has after a step is the one it had before, but for the fee, or one made from
the row it has just read. -/
theorem plan_of_step (hStep : step o s c = some (s', c')) {plan : ReleasePlan}
    (h : plan ∈ c'.plan?) : plan.project = s.project ∨ ∃ old ∈ c.plan?, plan.project = old.project := by
  cases c with
  | transitionTx t status =>
    simp only [step, Option.bind_eq_bind, Option.bind_eq_some_iff, Option.pure_def,
      Option.some.injEq, Prod.mk.injEq] at hStep
    obtain ⟨_, _, _, rfl⟩ := hStep
    obtain ⟨action, notesGiven⟩ := t
    cases action <;> cases h
  | closeRead resume =>
    simp only [step] at hStep
    split at hStep
    all_goals
      simp only [Option.some.injEq, Prod.mk.injEq] at hStep
      obtain ⟨_, rfl⟩ := hStep
      cases resume <;> cases h
      exact .inr ⟨_, rfl, rfl⟩
  | closeTx fee resume =>
    simp only [step, Option.bind_eq_bind, Option.bind_eq_some_iff, Option.pure_def,
      Option.some.injEq, Prod.mk.injEq] at hStep
    obtain ⟨_, _, _, rfl⟩ := hStep
    cases resume <;> cases h
    exact .inr ⟨_, rfl, rfl⟩
  | refundEach x rows =>
    cases rows with
    | nil =>
      simp only [step, Option.some.injEq, Prod.mk.injEq] at hStep
      obtain ⟨_, rfl⟩ := hStep
      cases h
    | cons row rows =>
      simp only [step, Option.bind_eq_bind, Option.bind_eq_some_iff, Option.pure_def,
        Option.some.injEq, Prod.mk.injEq] at hStep
      obtain ⟨_, _, _, rfl⟩ := hStep
      cases h
  | release id =>
    simp only [step, Option.bind_eq_bind, Option.bind_eq_some_iff] at hStep
    obtain ⟨made, hPlan, hStep⟩ := hStep
    obtain ⟨_, _, m, _, _, rfl⟩ := releasePlan_spec hPlan
    split at hStep
    all_goals
      simp only [Option.some.injEq, Prod.mk.injEq] at hStep
      obtain ⟨_, rfl⟩ := hStep
      cases h
      exact .inl rfl
  | feeRead plan =>
    simp only [step, Option.some.injEq, Prod.mk.injEq] at hStep
    obtain ⟨_, rfl⟩ := hStep
    cases h
    exact .inr ⟨plan, rfl, rfl⟩
  | done => cases hStep
  | _ =>
    simp only [step, Option.ite_none_right_eq_some, Option.bind_eq_bind, Option.bind_eq_some_iff,
      Option.pure_def, Option.some.injEq, Prod.mk.injEq] at hStep
    first
      | (obtain ⟨_, rfl⟩ := hStep; cases h)
      | (obtain ⟨_, _, rfl⟩ := hStep; cases h)
      | (obtain ⟨_, _, _, rfl⟩ := hStep; cases h)
      | (obtain ⟨_, _, _, _, rfl⟩ := hStep; cases h)

end Steps

/-- Before any milestone is paid; the round may be at any point, with any amount raised and any fee. -/
structure Project.Unpaid (p : Project) : Prop extends p.Coherent where
  nothing : p.releasedAmount = 0
  open_ : ∀ m ∈ p.milestones, m.status ≠ .released

theorem Project.Unpaid.ordered {p : Project} (h : p.Unpaid) : p.Ordered := by
  refine ⟨?_, ?_, ?_, ?_⟩
  · intro id m hAt hReleased
    exact absurd hReleased (h.open_ m (List.mem_of_getElem? hAt))
  · intro m hMem hReleased
    exact absurd hReleased (h.open_ m hMem)
  · rw [h.nothing]
    refine (List.sum_eq_zero ?_).symm
    intro n hMem
    obtain ⟨m, hIn, rfl⟩ := List.mem_map.mp hMem
    exact Milestone.paid_of_open (h.open_ m hIn)
  · intro hSome hAll
    obtain ⟨m, hMem⟩ := List.exists_mem_of_ne_nil _ hSome
    exact absurd (hAll m hMem) (h.open_ m hMem)

theorem ordered_reaches {ok : Guard Custody Call Outcome} {c c' : Config Custody Call}
    (h : program.Reaches ok c c')
    (hInit : (c.store.project.Coherent ∧ c.store.project.Ordered) ∧
      ∀ call ∈ c.calls, Pending c.store call ∧ Planned call) :
    ((c'.store.project.Coherent ∧ c'.store.project.Ordered) ∧
      c.store.project.Later c'.store.project) ∧
      ∀ call ∈ c'.calls, Pending c'.store call ∧ Planned call := by
  refine h.assertions
    (fun s => (s.project.Coherent ∧ s.project.Ordered) ∧ c.store.project.Later s.project)
    (fun s call => Pending s call ∧ Planned call) ⟨⟨hInit.1, .refl _⟩, hInit.2⟩ ?_ ?_ ?_
  · intro request store _
    refine ⟨enter_pending request store, ?_⟩
    intro plan hMem
    cases request <;> cases hMem
  · intro outcome store store' call call' hStore hCall _ hStep
    obtain ⟨⟨hCoherent, hOrdered⟩, hLater⟩ := hStore
    obtain ⟨hPending, hPlanned⟩ := hCall
    have hWrote := wrote_of_step hStep
    have hKept := kept_of_wrote hCoherent hPending hWrote
    refine ⟨⟨⟨hKept.coherent, ordered_of_wrote hCoherent hOrdered hPending hPlanned hWrote⟩,
      hLater.trans hKept.later⟩, pending_of_step hPending hStep hKept, ?_⟩
    intro plan hMem
    rcases plan_of_step hStep hMem with hNew | ⟨old, hOld, hSame⟩
    · rwa [hNew]
    · rw [hSame]
      exact hPlanned old hOld
  · intro outcome store store' call call' other hStore hCall hOther _ hStep
    exact ⟨hOther.1.later (kept_of_wrote hStore.1.1 hCall.1 (wrote_of_step hStep)).later, hOther.2⟩

def Project.paidOut (p : Project) : ℤ :=
  ((p.milestones.filter fun m => m.status == .released).map fun m => m.releasedAmount.getD 0).sum

theorem paidOut_eq (p : Project) : p.paidOut = (p.milestones.map Milestone.paid).sum := by
  unfold Project.paidOut
  induction p.milestones with
  | nil => rfl
  | cons m milestones ih =>
    rw [List.map_cons, List.sum_cons, ← ih]
    by_cases hReleased : m.status = .released <;> simp [Milestone.paid, hReleased]

/-- One FARM raised under a rule that takes at least five. -/
def leastFive : List (Move Request Outcome) :=
  let outcome : Outcome := { granted 1 with listing := ⟨15, 0, 5, 0⟩ }
  [.enter (.invest ⟨5, 1⟩), .run 0 outcome, .run 0 outcome, .run 0 outcome]

/-- Half of the target is raised, the round is closed and the first milestone is paid. -/
def payFirst : List (Move Request Outcome) :=
  [.enter (.invest ⟨5, 50⟩), .run 0 (granted 1), .run 0 (granted 1), .run 0 (granted 1),
    .enter (.transition ⟨.close, false⟩), .run 1 (granted 2), .run 1 (granted 2),
    .run 1 (granted 2), .run 1 (granted 2),
    .enter (.request 0 true), .run 2 (granted 3), .run 2 (granted 3),
    .enter (.release 0), .run 3 (granted 4), .run 3 (granted 4)]

/-- The second one is returned once, requested again and paid, with two releases at work. -/
def paySecond : List (Move Request Outcome) :=
  [.enter (.request 1 true), .run 4 (granted 5), .run 4 (granted 5),
    .enter (.returnMilestone 1 true), .run 5 (granted 6),
    .enter (.request 1 true), .run 6 (granted 7), .run 6 (granted 7),
    .enter (.release 1), .enter (.release 1), .run 7 (granted 8), .run 8 (granted 8),
    .run 8 (granted 9)]

end FarmBackend.Projects
