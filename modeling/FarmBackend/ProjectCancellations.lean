import FarmBackend.ProjectLifecycle

/-!
# A cancellation that stops at an investor

Every refund of `refundAll` is a transaction of its own, and the first that throws ends the request. By
then the project is `cancelled`, and no admin action leads out of that status.
-/

namespace FarmBackend.Projects
open Decimal Wallets Fees Interleaving Rows
open Drafts (Base Cancellable)

set_option autoImplicit false

instance (p : Project) : Decidable (Cancellable p) :=
  inferInstanceAs (Decidable (p.status ∈ (ADMIN_TRANSITIONS .cancel).source))

/-- What the refund of each investment meets: the wallets at that time, or a failing database. -/
abbrev Answers := InvestmentId → Option Outcome

/-- Only the transactions of refunds may fail of themselves. -/
def Heard (answers : Answers) : Guard Custody Call (Option Outcome) := fun answer _ call =>
  match call with
  | .refundEach _ ((_, id) :: _) => answer = answers id
  | _ => answer ≠ none

/-- The refund finds its wallets and commits. -/
def commits (answers : Answers) (x : Shares) (r : Investment × InvestmentId) : Bool :=
  (answers r.2).any fun o => walletsFound o x r.1

/-- The refunds before the first that fails. -/
def reached (answers : Answers) (p : Project) : List (Investment × InvestmentId) :=
  (refundable p).takeWhile (commits answers (refundShares p))

/-- A refund of the investment was paid between the two states. -/
def Refunded (s s' : Custody) (id : InvestmentId) : Prop :=
  ∃ refund ∈ s'.project.refunds.drop s.project.refunds.length, refund.investmentId = id

/-- Another request to cancel can end with the investment refunded. -/
def Recoverable (s : Custody) (id : InvestmentId) : Prop :=
  ∃ notesGiven s', program.lossy.Alone anyStep s (.transition ⟨.cancel, notesGiven⟩) s' ∧
    Refunded s s' id

/-- Every investor with a share has it or can still get it by another request to cancel. -/
def Recovers (s s' : Custody) : Prop :=
  ∀ r ∈ refundable s.project, 0 < (refundShares s.project).refundAmount r.1 →
    Refunded s s' r.2 ∨ Recoverable s' r.2

section Cancelled
variable {answers : Answers} {s s' : Custody} {x : Shares} {p : Project}
  {rows : List (Investment × InvestmentId)} {id : InvestmentId} {notesGiven : Bool}

theorem not_allowed_of_cancelled {kyb : Bool} :
    ¬(Transition.mk .cancel notesGiven).allowed kyb .cancelled := by
  rintro ⟨-, hSource, -⟩
  have hTarget : ProjectStatus.cancelled ∉ (ADMIN_TRANSITIONS .cancel).source := by decide
  exact hTarget hSource

/-- The transition table has no second cancellation. -/
theorem not_recoverable (hCancelled : s.project.status = .cancelled) : ¬Recoverable s id := by
  rintro ⟨notesGiven, s', hAlone, refund, hMem, -⟩
  cases hAlone with
  | ends => simp at hMem
  | @next answer _ _ _ _ _ _ hStep _ =>
    cases answer with
    | none => cases hStep
    | some o =>
      simp only [Program.lossy, Option.bind_some, program, step, hCancelled,
        if_neg not_allowed_of_cancelled] at hStep
      cases hStep

theorem refund_step {answer : Option Outcome} {inv : Investment}
    (hCurrent : s.project.investments[id]? = some inv)
    (hFits : Wallets.toUnits (x.reservePart inv) ≤ s.project.remaining) :
    (∃ next, program.lossy.step answer s (.refundEach x ((inv, id) :: rows)) = some next) ↔
      answer.any (fun o => walletsFound o x inv) = true := by
  cases answer with
  | none => simp [Program.lossy]
  | some o =>
    simp only [Program.lossy, Option.bind_some, program, step, Option.bind_eq_bind,
      Option.bind_eq_some_iff, Option.pure_def, Option.some.injEq, Option.any_some]
    constructor
    · rintro ⟨next, s', hRefund, -⟩
      exact walletsFound_of_refundTx hCurrent hRefund
    · intro hWallets
      obtain ⟨s', hRefund⟩ := refundTx_succeeds hCurrent hFits hWallets
      exact ⟨_, s', hRefund, rfl⟩

/-- The loop pays the refunds before the first that fails, and no other. -/
theorem refunds_of_loop (h : program.lossy.Alone (Heard answers) s (.refundEach x rows) s')
    (hBase : Base s.project) (hCancelled : s.project.status = .cancelled)
    (hLoop : RefundLoop x s.project rows) :
    s'.project.status = .cancelled ∧ s'.project.refunds = s.project.refunds ++
      (rows.takeWhile (commits answers x)).flatMap fun r => x.credited r.2 r.1 := by
  induction rows generalizing s with
  | nil =>
    cases h with
    | ends => exact ⟨hCancelled, by simp⟩
    | @next answer _ _ _ _ _ _ hStep hRest =>
      obtain ⟨o, -, hStep⟩ := Option.bind_eq_some_iff.mp hStep
      cases hStep
      cases hRest with
      | ends => exact ⟨hCancelled, by simp⟩
      | @next answer _ _ _ _ _ _ hStep _ =>
        obtain ⟨o, -, hStep⟩ := Option.bind_eq_some_iff.mp hStep
        cases hStep
  | cons row rows ih =>
    obtain ⟨inv, id⟩ := row
    obtain ⟨hRow, hAmount, hFits⟩ := hLoop.head hBase.amounts
    cases h with
    | @ends answer _ _ hOk hNone =>
      have hFails : commits answers x (inv, id) = false := by
        rw [Bool.eq_false_iff]
        intro hCommits
        obtain rfl : answer = answers id := hOk
        obtain ⟨next, hSome⟩ := (refund_step hRow hFits).mpr hCommits
        rw [hNone] at hSome
        cases hSome
      rw [List.takeWhile_cons_of_neg (by simp [hFails])]
      exact ⟨hCancelled, by simp⟩
    | @next answer _ s₁ _ _ _ hOk hStep hRest =>
      obtain rfl : answer = answers id := hOk
      have hCommits : commits answers x (inv, id) = true :=
        (refund_step hRow hFits).mp ⟨_, hStep⟩
      obtain ⟨o, -, hStep⟩ := Option.bind_eq_some_iff.mp hStep
      have hStep : step o s (.refundEach x ((inv, id) :: rows)) = some (s₁, _) := hStep
      have hWrote := wrote_of_step hStep
      have hPending : Pending s (.refundEach x ((inv, id) :: rows)) := hCancelled
      have hKept := kept_of_wrote hBase.toCoherent hPending hWrote
      have hNext := Drafts.base_of_wrote hBase hPending hWrote
      simp only [step, Option.bind_eq_bind, Option.bind_eq_some_iff, Option.pure_def,
        Option.some.injEq, Prod.mk.injEq] at hStep
      obtain ⟨s₂, hRefund, rfl, rfl⟩ := hStep
      obtain ⟨n, hn, hProject⟩ := refundTx_form hBase.reserve hLoop.share hAmount hRow hRefund
      obtain ⟨hStatus, hRefunds⟩ :=
        ih hRest hNext (hKept.later.cancelled hCancelled) (hLoop.tail hn hProject)
      refine ⟨hStatus, ?_⟩
      have hCredited : s₂.project.refunds = s.project.refunds ++ x.credited id inv := by
        rw [hProject]
        rfl
      rw [List.takeWhile_cons_of_pos hCommits, List.flatMap_cons, hRefunds, hCredited,
        List.append_assoc]

/-- A step that comes to the same under every outcome. -/
theorem alone_iff_of_sure {s₁ : Custody} {call call₁ : Call}
    (hSure : ∀ o, step o s call = some (s₁, call₁))
    (hCall : ∀ answer, Heard answers answer s call ↔ answer ≠ none) :
    program.lossy.Alone (Heard answers) s call s' ↔
      program.lossy.Alone (Heard answers) s₁ call₁ s' := by
  constructor
  · intro h
    cases h with
    | @ends answer _ _ hOk hNone =>
      obtain ⟨o, rfl⟩ := Option.ne_none_iff_exists'.mp ((hCall answer).mp hOk)
      exact absurd ((hSure o).symm.trans hNone) (Option.some_ne_none _)
    | @next answer _ _ _ _ _ _ hStep hRest =>
      obtain ⟨o, -, hStep⟩ := Option.bind_eq_some_iff.mp hStep
      have hSame := (hSure o).symm.trans hStep
      simp only [Option.some.injEq, Prod.mk.injEq] at hSame
      obtain ⟨rfl, rfl⟩ := hSame
      exact hRest
  · intro h
    have hOk : Heard answers (some (granted 0)) s call := (hCall _).mpr (Option.some_ne_none _)
    exact .next hOk (hSure (granted 0)) h

def Custody.cancelled (s : Custody) : Custody := s.update fun p => { p with status := .cancelled }

theorem alone_cancel_iff (hCancel : Cancellable s.project) :
    program.lossy.Alone (Heard answers) s (.transition ⟨.cancel, notesGiven⟩) s' ↔
      program.lossy.Alone (Heard answers) s.cancelled
        (.refundEach (refundShares s.project) (refundable s.project)) s' := by
  have hRead : ∀ o, step o s (.transition ⟨.cancel, notesGiven⟩) =
      some (s, .transitionTx ⟨.cancel, notesGiven⟩ s.project.status) :=
    fun o => if_pos ⟨by simp, hCancel, by simp⟩
  have hClaim : ∀ o, step o s (.transitionTx ⟨.cancel, notesGiven⟩ s.project.status) =
      some (s.cancelled, .refundRead) := by
    intro o
    simp only [step, Custody.transitionTx, if_true, Option.bind_eq_bind, Option.bind_some,
      Option.pure_def]
    rfl
  rw [alone_iff_of_sure hRead fun _ => Iff.rfl, alone_iff_of_sure hClaim fun _ => Iff.rfl,
    alone_iff_of_sure (fun _ => rfl) fun _ => Iff.rfl,
    alone_iff_of_sure (fun _ => rfl) fun _ => Iff.rfl]
  rfl

theorem refundLoop_cancelled (hBase : Base s.project) (hCancel : Cancellable s.project) :
    Base s.cancelled.project ∧
      RefundLoop (refundShares s.project) s.cancelled.project (refundable s.project) := by
  have hPending : Pending s (.transitionTx ⟨.cancel, false⟩ s.project.status) := hCancel
  have hStep : step (granted 0) s (.transitionTx ⟨.cancel, false⟩ s.project.status) =
      some (s.cancelled, .refundRead) := by
    simp only [step, Custody.transitionTx, if_true, Option.bind_eq_bind, Option.bind_some,
      Option.pure_def]
    rfl
  have hNext := Drafts.base_of_wrote hBase hPending (wrote_of_step hStep)
  exact ⟨hNext, refundLoop_start hNext.reserve hNext.raised hNext.sum hNext.amounts⟩

theorem refunds_of_cancel (hBase : Base s.project) (hCancel : Cancellable s.project)
    (h : program.lossy.Alone (Heard answers) s (.transition ⟨.cancel, notesGiven⟩) s') :
    s'.project.status = .cancelled ∧ s'.project.refunds = s.project.refunds ++
      (reached answers s.project).flatMap fun r => (refundShares s.project).credited r.2 r.1 := by
  obtain ⟨hNext, hLoop⟩ := refundLoop_cancelled hBase hCancel
  exact refunds_of_loop (s := s.cancelled) ((alone_cancel_iff hCancel).mp h) hNext rfl hLoop

theorem mem_credited_iff {inv : Investment} {refund : Refund} :
    refund ∈ x.credited id inv ↔ 0 < x.refundAmount inv ∧ refund = x.refund id inv := by
  unfold Shares.credited
  split <;> simp_all

/-- A row with a share is refunded exactly when the loop reaches it. -/
theorem refunded_iff (hBase : Base s.project) (hCancel : Cancellable s.project)
    (h : program.lossy.Alone (Heard answers) s (.transition ⟨.cancel, notesGiven⟩) s')
    {r : Investment × InvestmentId} (hRow : r ∈ refundable s.project)
    (hShare : 0 < (refundShares s.project).refundAmount r.1) :
    Refunded s s' r.2 ↔ r ∈ reached answers s.project := by
  have hRefunds := (refunds_of_cancel hBase hCancel h).2
  simp only [Refunded, hRefunds, List.drop_left, List.mem_flatMap, mem_credited_iff]
  constructor
  · rintro ⟨_, ⟨other, hReached, -, rfl⟩, hId⟩
    have hSame : other.2 = r.2 := hId
    have hOther := (refundable_spec ((List.takeWhile_sublist _).subset hReached)).2
    rw [hSame, (refundable_spec hRow).2, Option.some.injEq] at hOther
    rwa [Prod.ext hOther hSame.symm]
  · intro hReached
    exact ⟨_, ⟨r, hReached, hShare, rfl⟩, rfl⟩

theorem loop_ends (answers : Answers) (x : Shares) (rows : List (Investment × InvestmentId))
    (s : Custody) : ∃ s', program.lossy.Alone (Heard answers) s (.refundEach x rows) s' := by
  induction rows generalizing s with
  | nil =>
    have hOk : Heard answers (some (granted 0)) s .done := Option.some_ne_none _
    have hDone : program.lossy.Alone (Heard answers) s .done s := .ends hOk rfl
    exact ⟨s, (alone_iff_of_sure (fun _ => rfl) fun _ => Iff.rfl).mpr hDone⟩
  | cons row rows ih =>
    obtain ⟨inv, id⟩ := row
    have hOk : Heard answers (answers id) s (.refundEach x ((inv, id) :: rows)) := rfl
    cases hStep : program.lossy.step (answers id) s (.refundEach x ((inv, id) :: rows)) with
    | none => exact ⟨s, .ends hOk hStep⟩
    | some next =>
      obtain ⟨s₁, call₁⟩ := next
      obtain ⟨o, -, hTaken⟩ := Option.bind_eq_some_iff.mp hStep
      have hTaken : step o s (.refundEach x ((inv, id) :: rows)) = some (s₁, call₁) := hTaken
      simp only [step, Option.bind_eq_bind, Option.bind_eq_some_iff, Option.pure_def,
        Option.some.injEq, Prod.mk.injEq] at hTaken
      obtain ⟨next, -, rfl, rfl⟩ := hTaken
      obtain ⟨s', hRest⟩ := ih next
      exact ⟨s', .next hOk hStep hRest⟩

theorem cancel_ends (notesGiven : Bool) (answers : Answers) (hCancel : Cancellable s.project) :
    ∃ s', program.lossy.Alone (Heard answers) s (.transition ⟨.cancel, notesGiven⟩) s' := by
  obtain ⟨s', h⟩ := loop_ends answers (refundShares s.project) (refundable s.project) s.cancelled
  exact ⟨s', (alone_cancel_iff hCancel).mpr h⟩

end Cancelled

section Runs
variable {answers : Answers} {start s' : Custody} {c : Config Custody Call} {notesGiven : Bool}

theorem base_reaches (hStart : start.project.Opened)
    (hUnpaid : ∀ m ∈ start.project.milestones, m.status ≠ .released)
    (h : program.Reaches anyStep (Program.idle start) c) : Base c.store.project := by
  have hBase : Base start.project := ⟨hStart.coherent, hStart.solvent.sum, hStart.solvent.amounts,
    fun m hMem hReleased => absurd hReleased (hUnpaid m hMem), fun _ => hUnpaid⟩
  refine (h.assertions (fun s => Base s.project) Pending ⟨hBase, ?_⟩ ?_ ?_ ?_).1
  · intro call hMem
    cases hMem
  · intro request store _
    exact enter_pending request store
  · intro outcome store store' call call' hBase hPending _ hStep
    have hWrote := wrote_of_step hStep
    have hKept := kept_of_wrote hBase.toCoherent hPending hWrote
    exact ⟨Drafts.base_of_wrote hBase hPending hWrote, pending_of_step hPending hStep hKept⟩
  · intro outcome store store' call call' other hBase hPending hOther _ hStep
    exact hOther.later (kept_of_wrote hBase.toCoherent hPending (wrote_of_step hStep)).later

/-- A cancellation is recoverable exactly when no refund fails at or before an investor with a share. -/
theorem cancel_recovers_iff (hStart : start.project.Opened)
    (hUnpaid : ∀ m ∈ start.project.milestones, m.status ≠ .released)
    (h : program.Reaches anyStep (Program.idle start) c) (hCancel : Cancellable c.store.project)
    (hAlone : program.lossy.Alone (Heard answers) c.store (.transition ⟨.cancel, notesGiven⟩) s') :
    Recovers c.store s' ↔ ∀ r ∈ refundable c.store.project,
      0 < (refundShares c.store.project).refundAmount r.1 → r ∈ reached answers c.store.project := by
  have hBase := base_reaches hStart hUnpaid h
  have hNever : ∀ id, ¬Recoverable s' id :=
    fun id => not_recoverable (refunds_of_cancel hBase hCancel hAlone).1
  unfold Recovers
  refine forall₂_congr fun r hRow => imp_congr_right fun hShare => ?_
  rw [or_iff_left (hNever r.2), refunded_iff hBase hCancel hAlone hRow hShare]

end Runs

/-- The users 5 and 6 invest 40 and 30 FARM of the 100. -/
def twoInvestors : List (Move Request Outcome) :=
  .enter (.invest ⟨5, 40⟩) :: List.replicate 3 (.run 0 (granted 1)) ++
    .enter (.invest ⟨6, 30⟩) :: List.replicate 3 (.run 1 (granted 2))

/-- The first of them has no active wallet any more. -/
def withoutWallet : Answers := fun _ =>
  some { granted 3 with activeWallet := fun userId => userId != 5 }

theorem raised_by_two : ∃ c, program.Reaches anyStep (Program.idle sixtyForty) c ∧
    Cancellable c.store.project ∧ (∃ r ∈ refundable c.store.project, r.1.userId = 6 ∧
      0 < (refundShares c.store.project).refundAmount r.1) ∧
    reached withoutWallet c.store.project = [] ∧
    ∀ r ∈ refundable c.store.project, r ∈ reached (fun _ => some (granted 3)) c.store.project := by
  have hRun : (program.schedule twoInvestors (Program.idle sixtyForty)).any
      (fun c : Config Custody Call => decide (Cancellable c.store.project ∧
        (∃ r ∈ refundable c.store.project, r.1.userId = 6 ∧
          0 < (refundShares c.store.project).refundAmount r.1) ∧
        reached withoutWallet c.store.project = [] ∧
        ∀ r ∈ refundable c.store.project,
          r ∈ reached (fun _ => some (granted 3)) c.store.project)) = true := by
    decide +kernel
  obtain ⟨c, hReach, hEnd⟩ := Program.reaches_of_any hRun
  exact ⟨c, hReach, of_decide_eq_true hEnd⟩

/-- Both wallets exist, and both investors are refunded. -/
theorem both_refunded : ∃ c s', program.Reaches anyStep (Program.idle sixtyForty) c ∧
    program.lossy.Alone (Heard fun _ => some (granted 3)) c.store (.transition ⟨.cancel, false⟩) s' ∧
    Recovers c.store s' := by
  obtain ⟨c, hReach, hCancel, -, -, hAll⟩ := raised_by_two
  obtain ⟨s', hAlone⟩ := cancel_ends false (fun _ => some (granted 3)) hCancel
  refine ⟨c, s', hReach, hAlone, ?_⟩
  refine (cancel_recovers_iff sixtyForty_opened ?_ hReach hCancel hAlone).mpr ?_
  · decide
  · exact fun r hRow _ => hAll r hRow

/-- The refund of the first investor finds no wallet; the second one, who has a wallet, is not refunded,
and the project cannot be cancelled again. -/
theorem second_investor_stranded : ∃ c s', program.Reaches anyStep (Program.idle sixtyForty) c ∧
    program.lossy.Alone (Heard withoutWallet) c.store (.transition ⟨.cancel, false⟩) s' ∧
    ¬Recovers c.store s' := by
  obtain ⟨c, hReach, hCancel, ⟨r, hRow, -, hShare⟩, hNone, -⟩ := raised_by_two
  obtain ⟨s', hAlone⟩ := cancel_ends false withoutWallet hCancel
  refine ⟨c, s', hReach, hAlone, fun hRecovers => ?_⟩
  have hBase := base_reaches sixtyForty_opened (by decide) hReach
  rcases hRecovers r hRow hShare with hRefunded | hAgain
  · have hReached := (refunded_iff hBase hCancel hAlone hRow hShare).mp hRefunded
    rw [hNone] at hReached
    cases hReached
  · exact not_recoverable (refunds_of_cancel hBase hCancel hAlone).1 hAgain

end FarmBackend.Projects
