import FarmBackend.Drafts
import FarmBackend.ProjectReserve

/-!
# Reviewed content is frozen

What an admin reviews is what the submission had checked, unless an edit that read the row before
the submission writes it afterwards.
-/

namespace FarmBackend.Drafts
open Decimal Wallets Interleaving Projects

set_option autoImplicit false

/-- The statuses in which the content is no longer the business's to change. -/
def FROZEN : List ProjectStatus := [.submitted, .approved, .listed, .funded, .closed]

/-- What a submission makes sure of. -/
structure Content.Complete (c : Content) : Prop where
  target : 0 < c.targetAmount
  some_ : c.amounts ≠ []
  addsUp : c.addsUp

structure Draft.Reviewed (s : Draft) : Prop where
  frozen : s.project.status ∈ FROZEN →
    s.reviewed = some s.content ∧ s.content.Complete
  business : s.project.status ≠ .legacyOpen

/-- What a call carries to its write. -/
def Carries : Call → Prop
  | .submitTx content => content.Complete
  | .custody (.transitionTx t status) => status ∈ (ADMIN_TRANSITIONS t.action).source
  | _ => True

/-- No edit of the content is written while it is frozen, and a submission finds the content that
it has checked. -/
def undisturbed (s : Draft) : Call → Bool
  | .updateTx d => decide (s.project.status ∈ FROZEN → d.targetAmount = none)
  | .milestonesTx _ => decide (s.project.status ∉ FROZEN)
  | .submitTx content => decide (s.content = content)
  | _ => true

abbrev Undisturbed : Guard Draft Call Outcome := fun _ s c => undisturbed s c = true

theorem complete_of_missing {s : Draft} (h : s.missing = []) : s.content.Complete := by
  simp only [Draft.missing, List.append_eq_nil_iff] at h
  obtain ⟨⟨⟨⟨⟨⟨_, hTarget⟩, _⟩, _⟩, _⟩, hMilestones⟩, _⟩ := h
  have hPos : 0 < s.project.targetAmount := by
    by_contra hNot
    rw [if_pos (not_lt.mp hNot)] at hTarget
    cases hTarget
  by_cases hNone : s.project.milestones = []
  · rw [if_pos hNone] at hMilestones
    cases hMilestones
  · rw [if_neg hNone] at hMilestones
    refine ⟨hPos, by simpa [Draft.content] using hNone, ?_⟩
    by_contra hNot
    rw [if_neg hNot] at hMilestones
    cases hMilestones

/-! What the custody's transactions leave of the content and the status. -/

section Custody
variable {o : Outcome} {s s' : Custody}

def contentOf (p : Project) : Content := ⟨p.targetAmount, p.milestones.map (·.amount)⟩

theorem contentOf_modify (p : Project) (id : MilestoneId) {f : Milestone → Milestone}
    (hf : ∀ m, (f m).amount = m.amount) :
    (p.milestones.modify id f).map (·.amount) = p.milestones.map (·.amount) := by
  apply List.ext_getElem?
  intro i
  rw [List.getElem?_map, List.getElem?_map, List.getElem?_modify]
  cases p.milestones[i]? with
  | none => rfl
  | some m =>
    simp only [Option.map_eq_map, Option.map_some]
    split
    · rw [hf]
    · rfl

/-- Where a custody transaction may leave the status. -/
inductive Moved (c : Projects.Call) (p p' : Project) : Prop where
  | same (hStatus : p'.status = p.status)
  | funded (hOpen : p.status ∈ INVESTABLE) (hStatus : p'.status = .funded)
  | action (t : Transition) (hCall : c = .transitionTx t p.status)
      (hStatus : p'.status = (ADMIN_TRANSITIONS t.action).target)

theorem moved_pay {amount : ℚ} (h : s.payFromReserve o amount = some s') :
    contentOf s'.project = contentOf s.project ∧ s'.project.status = s.project.status := by
  rcases payFromReserve_cases h with rfl | ⟨_, hProject, _⟩
  · exact ⟨rfl, rfl⟩
  · rw [hProject]
    exact ⟨rfl, rfl⟩

theorem moved_credit {userId : UserId} {refund : Refund} {amount part : ℚ} {s₁ : Custody}
    (hCredit : s.creditInvestor o userId refund amount = some s₁)
    (hPay : s₁.payFromReserve o part = some s') :
    contentOf s'.project = contentOf s.project ∧ s'.project.status = s.project.status := by
  obtain ⟨hContent, hStatus⟩ := moved_pay hPay
  obtain ⟨hProject, _⟩ := creditInvestor_spec hCredit
  rw [hProject] at hContent hStatus
  exact ⟨hContent, hStatus⟩

theorem moved_loss {parts : List (Investment × InvestmentId × ℚ)}
    (h : s.lossTx o parts = some s') :
    contentOf s'.project = contentOf s.project ∧ s'.project.status = s.project.status := by
  unfold Custody.lossTx at h
  induction parts generalizing s with
  | nil =>
    simp only [List.foldlM_nil, Option.pure_def, Option.some.injEq] at h
    subst h
    exact ⟨rfl, rfl⟩
  | cons part parts ih =>
    simp only [List.foldlM_cons, Option.bind_eq_bind, Option.bind_eq_some_iff,
      Custody.lossPart] at h
    obtain ⟨s₂, ⟨s₁, hCredit, hPay⟩, hRest⟩ := h
    obtain ⟨hContent, hStatus⟩ := moved_credit hCredit hPay
    obtain ⟨hContent', hStatus'⟩ := ih hRest
    exact ⟨hContent'.trans hContent, hStatus'.trans hStatus⟩

theorem moved_refund {x : Shares} {inv : Investment} {id : InvestmentId}
    (h : s.refundTx o x inv id = some s') :
    contentOf s'.project = contentOf s.project ∧ s'.project.status = s.project.status := by
  unfold Custody.refundTx Custody.refundMoney at h
  split at h
  · simp only [Option.some.injEq] at h
    subst h
    exact ⟨rfl, rfl⟩
  · split at h
    · dsimp only at h
      split at h
      · simp only [Option.bind_eq_bind, Option.bind_eq_some_iff] at h
        obtain ⟨s₁, hCredit, hPay⟩ := h
        have hPaid := moved_credit hCredit hPay
        exact hPaid
      · simp only [Option.some.injEq] at h
        subst h
        exact ⟨rfl, rfl⟩
    · simp only [Option.some.injEq] at h
      subst h
      exact ⟨rfl, rfl⟩

theorem moved_charge {fee : ℚ} (h : s.chargeClaim o fee = some s') :
    contentOf s'.project = contentOf s.project ∧ s'.project.status = s.project.status := by
  unfold Custody.chargeClaim at h
  split at h
  · simp only [Option.some.injEq] at h
    subst h
    exact ⟨rfl, rfl⟩
  · dsimp only at h
    split at h
    · simp only [Option.ite_none_right_eq_some, Option.some.injEq] at h
      obtain ⟨_, rfl⟩ := h
      exact ⟨rfl, rfl⟩
    · simp only [Option.some.injEq] at h
      subst h
      exact ⟨rfl, rfl⟩

theorem moved_of_wrote {c : Projects.Call} (h : Wrote o s c s') :
    contentOf s'.project = contentOf s.project ∧ Moved c s.project s'.project := by
  cases h with
  | still => exact ⟨rfl, .same rfl⟩
  | invest hRow hRound =>
    obtain ⟨hOpen, _, hProject, _⟩ := investRow_spec hRow
    rcases fundIfReached_cases hRound with rfl | hCharge
    · rw [hProject]
      exact ⟨rfl, .same rfl⟩
    · obtain ⟨hContent, hStatus⟩ := moved_charge hCharge
      rw [hContent, Custody.update_project, hProject]
      exact ⟨rfl, .funded hOpen hStatus⟩
  | transition t => exact ⟨rfl, .action t rfl rfl⟩
  | charge hCharge =>
    obtain ⟨hContent, hStatus⟩ := moved_charge hCharge
    exact ⟨hContent, .same hStatus⟩
  | refund hRefund =>
    obtain ⟨hContent, hStatus⟩ := moved_refund hRefund
    exact ⟨hContent, .same hStatus⟩
  | release hPos hRelease =>
    obtain ⟨_, _, hProject, _⟩ := releaseTx_spec hRelease
    rw [hProject]
    refine ⟨?_, .same rfl⟩
    exact congrArg (Content.mk _) (contentOf_modify s.project _ fun _ => rfl)
  | request hRow hOpen =>
    exact ⟨congrArg (Content.mk _) (contentOf_modify s.project _ fun _ => rfl), .same rfl⟩
  | returned hRow hRequested =>
    exact ⟨congrArg (Content.mk _) (contentOf_modify s.project _ fun _ => rfl), .same rfl⟩
  | loss hLoss =>
    obtain ⟨hContent, hStatus⟩ := moved_loss hLoss
    exact ⟨hContent, .same hStatus⟩
  | reserve hReserve =>
    rcases releaseReserve_cases hReserve with rfl | ⟨_, hProject, _⟩
    · exact ⟨rfl, .same rfl⟩
    · rw [hProject]
      exact ⟨rfl, .same rfl⟩

end Custody

/-- An admin action that leads into a frozen status starts from one, or from a project that is no
business's. -/
theorem frozen_source {a : AdminAction} {status : ProjectStatus}
    (h : status ∈ (ADMIN_TRANSITIONS a).source) (hBusiness : status ≠ .legacyOpen) :
    ((ADMIN_TRANSITIONS a).target ∈ FROZEN → status ∈ FROZEN) ∧
      (ADMIN_TRANSITIONS a).target ≠ .legacyOpen := by
  revert hBusiness h
  cases a <;> cases status <;> decide

theorem frozen_of_investable {status : ProjectStatus} (h : status ∈ INVESTABLE)
    (hBusiness : status ≠ .legacyOpen) : status ∈ FROZEN := by
  revert hBusiness h
  cases status <;> decide

theorem not_frozen_of_editable {status : ProjectStatus} (h : status ∈ EDITABLE) :
    status ∉ FROZEN ∧ status ≠ .legacyOpen := by
  revert h
  cases status <;> decide

section Steps
variable {o : Outcome} {s s' : Draft} {c c' : Call}

theorem reviewed_custody {c : Projects.Call} {next : Custody} (h : s.Reviewed)
    (hCarries : Carries (.custody c)) (hWrote : Wrote o s.custody c next) :
    ({ s with custody := next } : Draft).Reviewed := by
  obtain ⟨hContent, hMoved⟩ := moved_of_wrote hWrote
  have hSame : ({ s with custody := next } : Draft).content = s.content := hContent
  have hKeeps : next.project.status ∈ FROZEN → s.project.status ∈ FROZEN := by
    intro hFrozen
    cases hMoved with
    | same hStatus => rwa [hStatus] at hFrozen
    | funded hOpen _ => exact frozen_of_investable hOpen h.business
    | action t hCall hStatus =>
      subst hCall
      rw [hStatus] at hFrozen
      exact (frozen_source hCarries h.business).1 hFrozen
  have hBusiness : next.project.status ≠ .legacyOpen := by
    cases hMoved with
    | same hStatus => rw [hStatus]; exact h.business
    | funded _ hStatus => simp [hStatus]
    | action t hCall hStatus =>
      subst hCall
      rw [hStatus]
      exact (frozen_source hCarries h.business).2
  refine ⟨?_, hBusiness⟩
  intro hFrozen
  rw [hSame]
  exact h.frozen (hKeeps hFrozen)

theorem carries_of_step {s next : Custody} {c : Projects.Call} {t : Transition}
    {status : ProjectStatus} (h : Projects.step o s c = some (next, .transitionTx t status)) :
    status ∈ (ADMIN_TRANSITIONS t.action).source := by
  cases c with
  | transition t =>
    simp only [Projects.step, Option.ite_none_right_eq_some, Option.some.injEq, Prod.mk.injEq,
      Projects.Call.transitionTx.injEq] at h
    obtain ⟨hAllowed, _, rfl, rfl⟩ := h
    exact hAllowed.2.1
  | transitionTx t status =>
    obtain ⟨action, notesGiven⟩ := t
    cases action <;> simp [Projects.step, Transition.next, Option.bind_eq_some_iff] at h
  | closeRead resume =>
    simp only [Projects.step] at h
    split at h <;> cases resume <;> simp [resumed] at h
  | closeTx fee resume =>
    cases resume <;> simp [Projects.step, resumed, Option.bind_eq_some_iff] at h
  | refundEach x rows => cases rows <;> simp [Projects.step, Option.bind_eq_some_iff] at h
  | release id =>
    simp only [Projects.step, Option.bind_eq_bind, Option.bind_eq_some_iff] at h
    obtain ⟨plan, _, h⟩ := h
    split at h <;> simp at h
  | _ => simp [Projects.step, Option.bind_eq_some_iff] at h

theorem step_reviewed (h : s.Reviewed) (hCarries : Carries c) (hOk : Undisturbed o s c)
    (hStep : step o s c = some (s', c')) : s'.Reviewed ∧ Carries c' := by
  cases c with
  | update dto =>
    simp only [step, Option.ite_none_right_eq_some, Option.bind_eq_bind, Option.bind_eq_some_iff,
      Option.pure_def, Option.some.injEq, Prod.mk.injEq] at hStep
    obtain ⟨_, d, _, rfl, rfl⟩ := hStep
    exact ⟨h, trivial⟩
  | updateTx d =>
    simp only [step, Option.some.injEq, Prod.mk.injEq] at hStep
    obtain ⟨rfl, rfl⟩ := hStep
    refine ⟨⟨?_, h.business⟩, trivial⟩
    intro hFrozen
    have hTarget : d.targetAmount = none := of_decide_eq_true hOk hFrozen
    have hSame : (s.patch d).content = s.content := by
      simp [Draft.content, Draft.patch, Draft.project, Draft.modifyProject, hTarget]
    rw [hSame]
    exact h.frozen hFrozen
  | setMilestones items =>
    simp only [step, Option.ite_none_right_eq_some, Option.some.injEq, Prod.mk.injEq] at hStep
    obtain ⟨_, rfl, rfl⟩ := hStep
    exact ⟨h, trivial⟩
  | milestonesTx items =>
    simp only [step, Option.some.injEq, Prod.mk.injEq] at hStep
    obtain ⟨rfl, rfl⟩ := hStep
    have hOpen : s.project.status ∉ FROZEN := of_decide_eq_true hOk
    exact ⟨⟨fun hFrozen => absurd hFrozen hOpen, h.business⟩, trivial⟩
  | submit =>
    simp only [step, Option.ite_none_right_eq_some, Option.some.injEq, Prod.mk.injEq] at hStep
    obtain ⟨⟨_, hMissing⟩, rfl, rfl⟩ := hStep
    exact ⟨h, complete_of_missing hMissing⟩
  | submitTx content =>
    simp only [step, Option.ite_none_right_eq_some, Option.some.injEq, Prod.mk.injEq] at hStep
    obtain ⟨_, rfl, rfl⟩ := hStep
    have hSame : s.content = content := of_decide_eq_true hOk
    refine ⟨⟨?_, ?_⟩, trivial⟩
    · intro _
      subst hSame
      exact ⟨rfl, hCarries⟩
    · simp [Draft.project, Draft.modifyProject]
  | custody c =>
    simp only [step, Option.bind_eq_bind, Option.bind_eq_some_iff, Option.pure_def,
      Option.some.injEq, Prod.mk.injEq] at hStep
    obtain ⟨⟨next, call'⟩, hNext, rfl, rfl⟩ := hStep
    refine ⟨reviewed_custody h hCarries (wrote_of_step hNext), ?_⟩
    cases call' with
    | transitionTx t status => exact carries_of_step hNext
    | _ => trivial
  | done => cases hStep

end Steps

/-- Edits, submissions, admin actions and everything that follows them, interleaved in any way: as
long as no edit is written over frozen content and every submission finds what it has checked, the
content of a project that is submitted, approved, listed, funded or closed is what was checked. -/
theorem reviewed_content_frozen {start : Draft} (hStart : start.project.status ∈ EDITABLE)
    {c : Config Draft Call} (h : program.Reaches Undisturbed (Program.idle start) c)
    (hFrozen : c.store.project.status ∈ FROZEN) :
    c.store.reviewed = some c.store.content ∧ c.store.content.Complete := by
  obtain ⟨hOpen, hBusiness⟩ := not_frozen_of_editable hStart
  have hRun := h.assertions Draft.Reviewed (fun _ call => Carries call)
    ⟨⟨fun hFrozen => absurd hFrozen hOpen, hBusiness⟩, by simp [Program.idle]⟩ ?_ ?_ ?_
  · exact hRun.1.frozen hFrozen
  · intro request store _
    cases request with
    | custody r => cases r <;> trivial
    | _ => trivial
  · intro outcome store store' call call' hReviewed hCarries hOk hStep
    exact step_reviewed hReviewed hCarries hOk hStep
  · intro outcome store store' call call' other _ _ hOther _ _
    exact hOther

/-- A draft over 100 FARM with everything a submission needs. -/
def readyDraft : Draft where
  custody :=
    { project := { listedProject 1 (100 * farm) with
        status := .draft
        minimumInvestment := some farm }
      ledger := [] }
  fields _ := some "x"
  documents := [.businessPlan, .financialStatements]
  reviewed := none

def untouched : ProjectInput where
  fields _ := .undefined
  targetAmount := .undefined
  minimumInvestment := .undefined
  maximumInvestment := .undefined
  endsAt := .undefined

/-- The project is submitted, approved and listed. -/
def submitAndList (first : ℕ) : List (Move Request Outcome) :=
  [.enter .submit, .run first (granted 1), .run first (granted 1),
    .enter (.custody (.transition ⟨.approve, false⟩)), .run (first + 1) (granted 2),
    .run (first + 1) (granted 2),
    .enter (.custody (.transition ⟨.list, false⟩)), .run (first + 2) (granted 3),
    .run (first + 2) (granted 3)]

/-- An edit of the target has read the draft before. -/
def lateEdit : List (Move Request Outcome) :=
  [.enter (.update { untouched with targetAmount := .given 500 }), .run 0 (granted 0)] ++
    submitAndList 1 ++ [.run 0 (granted 4)]

/-- A project is listed with a target of 500 FARM, and its milestones add up to 100 FARM. -/
theorem listed_content_changed : ∃ c, program.Reaches anyStep (Program.idle readyDraft) c ∧
    c.store.project.status = .listed ∧ c.store.reviewed = some ⟨100 * farm, [100 * farm]⟩ ∧
    c.store.content = ⟨500 * farm, [100 * farm]⟩ ∧ ¬c.store.content.addsUp := by
  have hRuns : (program.schedule lateEdit (Program.idle readyDraft)).any (fun c =>
      decide (c.store.project.status = .listed ∧
        c.store.reviewed = some ⟨100 * farm, [100 * farm]⟩ ∧
        c.store.content = ⟨500 * farm, [100 * farm]⟩ ∧ ¬c.store.content.addsUp)) = true := by
    decide +kernel
  obtain ⟨c, hRun, hEnd⟩ := Program.reaches_of_any hRuns
  exact ⟨c, hRun, of_decide_eq_true hEnd⟩

/-- Two milestones instead of one, written before the submission. -/
def earlyEdit : List (Move Request Outcome) :=
  [.enter (.setMilestones [⟨"first", 60⟩, ⟨"second", 40⟩]), .run 0 (granted 0), .run 0 (granted 0)] ++
    submitAndList 1

theorem listed_content_reviewed : ∃ c, program.Reaches Undisturbed (Program.idle readyDraft) c ∧
    c.store.project.status = .listed ∧
    c.store.content = ⟨100 * farm, [60 * farm, 40 * farm]⟩ ∧
    c.store.reviewed = some c.store.content ∧ c.store.content.Complete := by
  have hRuns : ((program.guarded Undisturbed).schedule earlyEdit (Program.idle readyDraft)).any
      (fun c => decide (c.store.project.status = .listed ∧
        c.store.content = ⟨100 * farm, [60 * farm, 40 * farm]⟩)) = true := by
    decide +kernel
  obtain ⟨c, hReach, hEnd⟩ := Program.reaches_of_guarded_any hRuns
  obtain ⟨hListed, hContent⟩ := of_decide_eq_true hEnd
  have hFrozen : c.store.project.status ∈ FROZEN := by
    rw [hListed]
    decide
  exact ⟨c, hReach, hListed, hContent, reviewed_content_frozen (by decide) hReach hFrozen⟩

end FarmBackend.Drafts
