import FarmBackend.DepositCredits
import FarmBackend.DepositRuns

/-!
# A deposit is settled once

What the running calls know of the reference, and from it what holds along every run in which
`failDeposit` does not overwrite a settlement.
-/

namespace FarmBackend.Deposits
open Fees Wallets Interleaving

set_option autoImplicit false

/-- `failDeposit` finds neither row settled that it is about to mark failed. A careful cleanup finds
the deposit it read as pending not settled either. -/
def spares (careful : Bool) (s : Store) : Call → Bool
  | .failDepositTx _ deposit transaction => s.sparesSettled deposit transaction
  | .deletePending id => !careful || (s.depositAt id).all fun d => d.status != .success
  | _ => true

abbrev Spares (careful : Bool) : Guard Store Call Outcome :=
  fun _ s call => spares careful s call = true

/-- The transactions a call has read name the same user. -/
def Holds (user : Option UserId) : Call → Prop
  | .verify _ t => t.metadata.userId = user
  | .rebuild _ userId t => t.metadata.userId = user ∧ user = some userId
  | .finalizePendingDeposit _ _ t => t.metadata.userId = user
  | .creditPendingDeposit _ _ t => t.metadata.userId = user
  | .finalizeMerchantQr _ t => t.metadata.userId = user
  | .failDepositTx _ _ transaction => ∀ t, transaction = some t → t.metadata.userId = user
  | .nowpaymentsMetadata metadata => metadata.userId = user
  | _ => True

/-- What a call knows of the reference from what it has read; nobody else can undo it. -/
def Knows (user : Option UserId) (r : Reference) : Call → Prop
  | .readTransaction _ none => user = none → r.deposit = none
  | .readTransaction _ (some d) => d.status = .pending ∨ r.Closed
  | .verify none _ => user = none → r.deposit = none
  | .verify (some d) t => d.status = .pending ∨ t.isOpen = false
  | .finalizePendingDeposit _ _ t => t.txPending = true
  -- A deposit is never read settled while its transaction is still open.
  | .completePendingTransaction _ => False
  | .receiverWallet _ => False
  | .completeUpdate _ => False
  | .creditPendingTransaction _ => user = none ∧ r.deposit = none
  | .creditPendingTransactionTx _ _ => user = none ∧ r.deposit = none
  | .failDepositTx _ _ transaction =>
    transaction.filter DepositTransaction.canFail = none → r.Closed
  | .deleteFailed id => r.FailedAt id
  | _ => True

section Knows
variable {user : Option UserId} {careful : Bool} {r r' : Reference}

theorem missing_steps_of_unnamed (h : user = none → r.deposit = none)
    (hSteps : Reference.Steps user.isSome careful r r') : user = none → r'.deposit = none := by
  rintro rfl
  exact Reference.missing_steps (h rfl) hSteps

theorem Knows.steps {call : Call} (h : Knows user r call)
    (hSteps : Reference.Steps user.isSome careful r r') : Knows user r' call := by
  cases call with
  | readTransaction service deposit =>
    cases deposit with
    | none => exact missing_steps_of_unnamed h hSteps
    | some d => exact h.imp id fun hClosed => hClosed.steps hSteps
  | verify deposit t =>
    cases deposit with
    | none => exact missing_steps_of_unnamed h hSteps
    | some d => exact h
  | creditPendingTransaction service =>
    exact ⟨h.1, missing_steps_of_unnamed (fun _ => h.2) hSteps h.1⟩
  | creditPendingTransactionTx service t =>
    exact ⟨h.1, missing_steps_of_unnamed (fun _ => h.2) hSteps h.1⟩
  | failDepositTx reason deposit transaction => exact fun hNone => (h hNone).steps hSteps
  | deleteFailed id => exact Reference.FailedAt.steps h hSteps
  | _ => exact h

/-- The decision of a finaliser that found the deposit missing for good, or pending, or the
transaction closed. -/
theorem knows_route {service : Service} {deposit : Option Deposit} {t : DepositTransaction}
    (hUser : t.metadata.userId = user)
    (hMissing : deposit = none → user = none ∧ r.deposit = none)
    (hSome : ∀ d, deposit = some d → d.status = .pending ∨ t.isOpen = false) :
    Knows user r (route service deposit t) ∧ Holds user (route service deposit t) := by
  unfold route
  split
  · exact ⟨trivial, trivial⟩
  · split
    · unfold routeMerchantQr
      dsimp only
      split
      · exact ⟨trivial, trivial⟩
      · split
        · exact ⟨trivial, trivial⟩
        · split
          · exact ⟨trivial, hUser⟩
          · exact ⟨trivial, trivial⟩
    · cases deposit with
      | none =>
        dsimp only
        split
        · exact ⟨hMissing rfl, trivial⟩
        · exact ⟨trivial, trivial⟩
      | some d =>
        have hClosed : d.status ≠ .pending → t.txPending = false := by
          intro hStatus
          rcases hSome d rfl with hPending | hOpen
          · exact absurd hPending hStatus
          · simp [DepositTransaction.txPending, hOpen]
        cases hStatus : d.status with
        | pending =>
          simp only [hStatus]
          split
          · rename_i hOpen
            exact ⟨hOpen, hUser⟩
          · exact ⟨trivial, hUser⟩
        | success =>
          simp only [hStatus, hClosed (by simp [hStatus])]
          split <;> exact ⟨trivial, trivial⟩
        | processing =>
          simp only [hStatus, hClosed (by simp [hStatus])]
          exact ⟨trivial, trivial⟩
        | failed =>
          simp only [hStatus, hClosed (by simp [hStatus])]
          exact ⟨trivial, trivial⟩

/-- The deposit a finaliser has just rebuilt is pending. -/
theorem knows_route_rebuilt {service : Service} {t : DepositTransaction} (id : ℕ)
    (userId : UserId) (now : Time) (hUser : t.metadata.userId = user) :
    Knows user r (route service (some (rebuilt service id userId t now)) t) ∧
      Holds user (route service (some (rebuilt service id userId t now)) t) := by
  refine knows_route hUser nofun ?_
  intro d hSome
  rw [← Option.some.inj hSome]
  exact .inl rfl

theorem knows_routeOrRebuild {service : Service} {deposit : Option Deposit}
    {t : DepositTransaction} (hUser : t.metadata.userId = user)
    (hMissing : deposit = none → user = none → r.deposit = none)
    (hSome : ∀ d, deposit = some d → d.status = .pending ∨ t.isOpen = false) :
    Knows user r (routeOrRebuild service deposit t) ∧
      Holds user (routeOrRebuild service deposit t) := by
  unfold routeOrRebuild
  split
  · rename_i userId hNamed
    exact ⟨trivial, hUser, hUser.symm.trans hNamed⟩
  · rename_i hOther
    refine knows_route hUser ?_ hSome
    intro hNone
    have hUnnamed : user = none := by
      cases hName : t.metadata.userId with
      | none => exact hUser.symm.trans hName
      | some userId => exact absurd hName (hOther userId hNone)
    exact ⟨hUnnamed, hMissing hNone hUnnamed⟩

end Knows

section Steps
variable {user : Option UserId} {careful : Bool} {o : Outcome} {s s' : Store} {call call' : Call}

/-- A deposit that is read is pending, or its transaction is closed for good. -/
theorem pending_or_closed {d : Deposit} (hSound : s.reference.Sound user.isSome)
    (hRow : s.deposit = some d) : d.status = .pending ∨ s.reference.Closed := by
  have hReference : s.reference.deposit = some (d.id, d.status) := by
    simp [Store.reference, hRow]
  cases hStatus : d.status with
  | pending => exact .inl rfl
  | processing =>
    rw [hStatus] at hReference
    exact absurd hReference (hSound.not_processing d.id)
  | success =>
    rw [hStatus] at hReference
    refine .inr ?_
    rcases hSound.settled_of_credited (hSound.credited_of_success d.id hReference) with
      hNone | ⟨hCompleted, -⟩
    · simp [Reference.Closed, hNone]
    · simp [Reference.Closed, hCompleted]
  | failed =>
    rw [hStatus] at hReference
    exact .inr (hSound.closed_of_failed d.id hReference)

theorem failedAt_of_stale {now : Time} {d : Deposit} (hSound : s.reference.Sound user.isSome)
    (h : s.staleFailedDeposit now = some d) : s.reference.FailedAt d.id := by
  obtain ⟨hRow, hStale⟩ := Option.filter_eq_some_iff.mp h
  simp only [Bool.and_eq_true, beq_iff_eq] at hStale
  have hReference : s.reference.deposit = some (d.id, .failed) := by
    simp [Store.reference, hRow, hStale.1]
  refine ⟨hSound.id_lt d.id _ hReference, ?_⟩
  intro status hStatus
  rw [hReference] at hStatus
  cases hStatus
  rfl

/-- What a step leaves behind: the life of the reference and what the call knows next. -/
structure Leaves (user : Option UserId) (careful : Bool) (s s' : Store) (call' : Call) : Prop where
  lives : s.Lives user careful s'
  knows : Knows user s'.reference call'
  holds : Holds user call'

theorem Leaves.stays (hKnows : Knows user s.reference call') (hHolds : Holds user call') :
    Leaves user careful s s call' :=
  ⟨.refl s, hKnows, hHolds⟩

theorem leaves_of_step (hSound : s.reference.Sound user.isSome) (hNames : s.Names user)
    (hKnows : Knows user s.reference call) (hHolds : Holds user call)
    (hOk : spares careful s call = true) (hStep : step o s call = some (s', call')) :
    Leaves user careful s s' call' := by
  cases call with
  | finalize service =>
    cases hStep
    cases hRow : s.deposit with
    | none => exact .stays (fun _ => by simp [Store.reference, hRow]) trivial
    | some d => exact .stays (pending_or_closed hSound hRow) trivial
  | readTransaction service deposit =>
    simp only [step, Option.bind_eq_bind, Option.bind_eq_some_iff] at hStep
    obtain ⟨t, hRow, hStep⟩ := hStep
    have hUser : t.metadata.userId = user := hNames t hRow
    have hMissing : deposit = none → user = none → s.reference.deposit = none := by
      rintro rfl
      exact hKnows
    have hSome : ∀ d, deposit = some d → d.status = .pending ∨ t.isOpen = false := by
      rintro d rfl
      exact hKnows.imp id fun hClosed => (Store.closed_iff s).mp hClosed t hRow
    cases service with
    | webhook =>
      cases hStep
      obtain ⟨hNext, hHeld⟩ := knows_routeOrRebuild hUser hMissing hSome
      exact .stays hNext hHeld
    | deposit =>
      cases hStep
      cases deposit with
      | none => exact .stays (hMissing rfl) hUser
      | some d => exact .stays (hSome d rfl) hUser
  | verify deposit t =>
    simp only [step] at hStep
    split at hStep
    · cases hStep
      exact .stays trivial trivial
    · cases hStep
      obtain ⟨hNext, hHeld⟩ : Knows user s.reference (routeOrRebuild .deposit deposit t) ∧
          Holds user (routeOrRebuild .deposit deposit t) := by
        refine knows_routeOrRebuild hHolds ?_ ?_
        · rintro rfl
          exact hKnows
        · rintro d rfl
          exact hKnows
      exact .stays hNext hHeld
  | rebuild service userId t =>
    obtain ⟨hUser, hNamed⟩ := hHolds
    simp only [step] at hStep
    split at hStep
    · cases hStep
    · rename_i hRow
      cases hStep
      obtain ⟨hNext, hHeld⟩ := knows_route_rebuilt s.nextDepositId userId o.now hUser
      exact ⟨Store.lives_rebuild (by rw [hNamed]; rfl) hRow rfl rfl, hNext, hHeld⟩
  | finalizePendingDeposit service d t =>
    simp only [step, Option.bind_eq_bind, Option.bind_eq_some_iff, Option.pure_def,
      Option.some.injEq, Prod.mk.injEq] at hStep
    obtain ⟨⟨s₁, ok⟩, hTx, rfl, rfl⟩ := hStep
    exact ⟨Store.lives_finalizePendingDepositTx hKnows hTx, trivial, trivial⟩
  | creditPendingDeposit service d t =>
    simp only [step] at hStep
    split at hStep
    · rename_i hPending
      simp only [Option.bind_eq_bind, Option.bind_eq_some_iff, Option.pure_def,
        Option.some.injEq, Prod.mk.injEq] at hStep
      obtain ⟨⟨s₁, ok⟩, hTx, rfl, rfl⟩ := hStep
      exact ⟨Store.lives_creditPendingDepositTx hPending hTx, trivial, trivial⟩
    · cases hStep
      exact .stays trivial trivial
  | completePendingTransaction t => exact hKnows.elim
  | receiverWallet userId => exact hKnows.elim
  | completeUpdate receiver => exact hKnows.elim
  | creditPendingTransaction service =>
    simp only [step] at hStep
    split at hStep
    · cases hStep
      exact .stays trivial trivial
    · split at hStep
      · cases hStep
        exact .stays trivial trivial
      · split at hStep
        · cases hStep
          exact .stays trivial trivial
        · split at hStep <;> cases hStep
          · exact .stays hKnows trivial
          · exact .stays trivial trivial
  | creditPendingTransactionTx service t =>
    simp only [step, Option.bind_eq_bind, Option.bind_eq_some_iff, Option.pure_def,
      Option.some.injEq, Prod.mk.injEq] at hStep
    obtain ⟨⟨s₁, ok⟩, hTx, rfl, rfl⟩ := hStep
    obtain ⟨hUnnamed, hMissing⟩ := hKnows
    exact ⟨Store.lives_creditPendingTransactionTx (by simp [hUnnamed]) hMissing hTx, trivial,
      trivial⟩
  | finalizeMerchantQr d t =>
    simp only [step, Option.bind_eq_bind, Option.bind_eq_some_iff, Option.pure_def,
      Option.some.injEq, Prod.mk.injEq] at hStep
    obtain ⟨merchantId, -, ⟨s₁, ok⟩, hTx, rfl, rfl⟩ := hStep
    exact ⟨Store.lives_finalizeMerchantQrTx hHolds hTx, trivial, trivial⟩
  | failDeposit reason =>
    cases hStep
    exact .stays trivial trivial
  | failReadTransaction reason deposit =>
    simp only [step] at hStep
    split at hStep <;> cases hStep
    · exact .stays trivial trivial
    · refine .stays ?_ hNames
      intro hNone
      rw [Store.closed_iff]
      intro t hRow
      rw [hRow] at hNone
      have hKept : t.canFail = false := by simpa [Option.filter] using hNone
      revert hKept
      unfold DepositTransaction.canFail DepositTransaction.isOpen
      cases t.status <;> simp
  | failDepositTx reason deposit transaction =>
    simp only [step, Option.bind_eq_bind, Option.bind_eq_some_iff, Option.pure_def,
      Option.some.injEq, Prod.mk.injEq] at hStep
    obtain ⟨s₁, hTx, rfl, rfl⟩ := hStep
    exact ⟨Store.lives_failDepositTx hOk hHolds hKnows hTx, trivial, trivial⟩
  | nowpaymentsFailure =>
    simp only [step] at hStep
    split at hStep
    · cases hStep
      exact .stays trivial trivial
    · rename_i t hRow
      split at hStep <;> cases hStep
      · exact .stays trivial (hNames t hRow)
      · exact .stays trivial trivial
  | nowpaymentsMetadata metadata =>
    simp only [step, Option.bind_eq_bind, Option.bind_eq_some_iff, Option.pure_def,
      Option.some.injEq, Prod.mk.injEq] at hStep
    obtain ⟨s₁, hUpdate, rfl, rfl⟩ := hStep
    exact ⟨Store.lives_metadata hHolds hUpdate, trivial, trivial⟩
  | nowpaymentsFailureTx =>
    cases hStep
    exact ⟨Store.lives_nowpaymentsFailureTx o.now s, trivial, trivial⟩
  | staleTransactions =>
    simp only [step] at hStep
    split at hStep <;> cases hStep <;> exact .stays trivial trivial
  | stalePendingDeposit =>
    simp only [step] at hStep
    split at hStep <;> cases hStep <;> exact .stays trivial trivial
  | deletePending id =>
    simp only [step] at hStep
    split at hStep <;> cases hStep
    · exact .stays trivial trivial
    · refine ⟨?_, trivial, trivial⟩
      cases hDelete : s.deletePendingTx id with
      | none => exact .refl s
      | some s₁ =>
        refine Store.lives_deletePendingTx ?_ hDelete
        rintro rfl d hAt
        simpa [spares, hAt] using hOk
  | staleFailedDeposits =>
    simp only [step] at hStep
    split at hStep <;> cases hStep
    · exact .stays trivial trivial
    · rename_i d hStale
      exact .stays (failedAt_of_stale hSound hStale) trivial
  | deleteFailed id =>
    simp only [step] at hStep
    split at hStep <;> cases hStep
    · exact .stays trivial trivial
    · refine ⟨?_, trivial, trivial⟩
      cases hDelete : s.deleteFailed id with
      | none => exact .refl s
      | some s₁ => exact Store.lives_deleteFailed hKnows hDelete
  | done answer => cases hStep

end Steps

/-- A reference as the services create it: no row is settled, and either may still be missing. -/
structure Fresh (s : Store) : Prop where
  uncredited : s.credits = []
  deposit_pending : ∀ d, s.deposit = some d → d.status = .pending ∧ d.id < s.nextDepositId
  transaction_open : ∀ t, s.transaction = some t → t.isOpen = true
  unused : ∀ id, s.nextWalletId ≤ id → s.bank.wallets id = none

/-- The user the transaction names. -/
def Store.user (s : Store) : Option UserId := s.transaction.bind fun t => t.metadata.userId

section Runs
variable {user : Option UserId} {careful : Bool} {start : Store}
  {c later : Config Store Call}

/-- The store is sound, and every call knows what it should. -/
structure Invariant (user : Option UserId) (c : Config Store Call) : Prop where
  sound : c.store.reference.Sound user.isSome
  names : c.store.Names user
  knows : ∀ call ∈ c.calls, Knows user c.store.reference call ∧ Holds user call

theorem sound_of_fresh (h : Fresh start) : start.reference.Sound start.user.isSome := by
  have hPending : ∀ id status, start.reference.deposit = some (id, status) →
      status = .pending ∧ id < start.nextDepositId := by
    intro id status hRow
    obtain ⟨d, hDeposit, hView⟩ := Option.map_eq_some_iff.mp hRow
    cases hView
    exact h.deposit_pending d hDeposit
  refine ⟨?_, ?_, ?_, ?_, ?_, ?_, ?_⟩
  · simp [Store.reference, h.uncredited]
  · simp [Store.reference, h.uncredited]
  · intro hCompleted
    obtain ⟨t, hRow, hStatus⟩ := Option.map_eq_some_iff.mp hCompleted
    have hOpen := h.transaction_open t hRow
    simp [DepositTransaction.isOpen, hStatus] at hOpen
  · intro id hRow
    cases (hPending id .success hRow).1
  · intro id hRow
    cases (hPending id .failed hRow).1
  · intro id hRow
    cases (hPending id .processing hRow).1
  · intro id status hRow
    exact (hPending id status hRow).2

theorem invariant_of_fresh (h : Fresh start) : Invariant start.user (Program.idle start) := by
  refine ⟨sound_of_fresh h, ?_, ?_⟩
  · intro t hRow
    have hStart : start.transaction = some t := hRow
    simp [Store.user, hStart]
  · intro call hMem
    cases hMem

theorem steps_of_reaches (hInit : Invariant user c)
    (h : program.Reaches (Spares careful) c later) :
    Reference.Steps user.isSome careful c.store.reference later.store.reference ∧
      Invariant user later := by
  have hAll := h.assertions
    (fun s => s.reference.Sound user.isSome ∧ s.Names user ∧
      Reference.Steps user.isSome careful c.store.reference s.reference)
    (fun s call => Knows user s.reference call ∧ Holds user call)
    ⟨⟨hInit.sound, hInit.names, .refl⟩, hInit.knows⟩ ?_ ?_ ?_
  · obtain ⟨⟨hSound, hNames, hSteps⟩, hKnows⟩ := hAll
    exact ⟨hSteps, hSound, hNames, hKnows⟩
  · intro request store _
    cases request <;> exact ⟨trivial, trivial⟩
  · rintro outcome store store' call call' ⟨hSound, hNames, hSteps⟩ ⟨hKnows, hHolds⟩ hOk hStep
    obtain ⟨⟨hLives, hKept⟩, hNext, hHeld⟩ :=
      leaves_of_step hSound hNames hKnows hHolds hOk hStep
    exact ⟨⟨hSound.steps hLives, hKept hNames, hSteps.trans hLives⟩, hNext, hHeld⟩
  · rintro outcome store store' call call' other ⟨hSound, hNames, -⟩ ⟨hKnows, hHolds⟩
      ⟨hOther, hHeldOther⟩ hOk hStep
    obtain ⟨⟨hLives, -⟩, -, -⟩ := leaves_of_step hSound hNames hKnows hHolds hOk hStep
    exact ⟨hOther.steps hLives, hHeldOther⟩

/-- One credit at most, and no wallet holds more than it held and what that credit brought. -/
structure CreditedOnce (start s : Store) : Prop where
  credits_le : s.credits.length ≤ 1
  balance : ∀ id, start.bank.platform ≠ some id →
    s.bank.balanceOf id = start.bank.balanceOf id + s.creditedTo id

/-- Either finaliser, any failure and the cleanup, any number of each: the deposit is credited once
at most as long as no `failDeposit` overwrites a settlement. -/
theorem deposit_credited_at_most_once (hFresh : Fresh start)
    (h : program.Reaches (Spares false) (Program.idle start) c) : CreditedOnce start c.store := by
  obtain ⟨-, hInvariant⟩ := steps_of_reaches (invariant_of_fresh hFresh) h
  refine ⟨hInvariant.sound.credits_le, ?_⟩
  exact (accounts_of_reaches (accounts_start hFresh.uncredited hFresh.unused) h).balance

/-- What a reference promises in a state and from there on: credited exactly when its rows say so,
never marked failed again, and never picked by the cleanup. -/
structure Consistent (ok : Guard Store Call Outcome) (c : Config Store Call) : Prop where
  credited_iff : c.store.Credited ↔
    (∃ t, c.store.transaction = some t ∧ t.status = .completed) ∧
      ∀ d, c.store.deposit = some d → d.status = .success
  credited_absorbs : c.store.Credited → ∀ later, program.Reaches ok c later →
    later.store.Credited ∧ ∀ d, c.store.deposit = some d →
      ∃ d', later.store.deposit = some d' ∧ d'.id = d.id ∧ d'.status = .success
  unselected : c.store.Credited → ∀ now,
    c.store.staleTransaction now = none ∧ c.store.staleFailedDeposit now = none

theorem credited_iff_credits (s : Store) : s.Credited ↔ s.reference.credits ≠ 0 := by
  simp [Store.Credited, Store.reference]

theorem settled_rows {named : Bool} {s : Store} (h : Reference.Settled named s.reference) :
    (∃ t, s.transaction = some t ∧ t.status = .completed) ∧
      ∀ d, s.deposit = some d → d.status = .success := by
  obtain ⟨hCompleted, hRow⟩ := h
  refine ⟨Option.map_eq_some_iff.mp hCompleted, ?_⟩
  intro d hDeposit
  rcases hRow with ⟨id, hSuccess⟩ | ⟨-, hMissing⟩
  · obtain ⟨row, hThere, hView⟩ := Option.map_eq_some_iff.mp hSuccess
    rw [hDeposit, Option.some.injEq] at hThere
    cases hThere
    exact congrArg Prod.snd hView
  · rw [Option.map_eq_none_iff.mp hMissing] at hDeposit
    cases hDeposit

theorem deposit_settles_consistently (hFresh : Fresh start)
    (h : program.Reaches (Spares true) (Program.idle start) c) : Consistent (Spares true) c := by
  obtain ⟨hSteps, hInvariant⟩ := steps_of_reaches (invariant_of_fresh hFresh) h
  have hStart : start.reference.credits = 0 := by simp [Store.reference, hFresh.uncredited]
  have hSettled : c.store.Credited → Reference.Settled start.user.isSome c.store.reference :=
    fun hCredited =>
      Reference.settled_of_steps hStart hSteps ((credited_iff_credits _).mp hCredited)
  refine ⟨⟨fun hCredited => settled_rows (hSettled hCredited), ?_⟩, ?_, ?_⟩
  · rintro ⟨⟨t, hRow, hCompleted⟩, -⟩
    rw [credited_iff_credits]
    refine hInvariant.sound.credited_of_completed ?_
    simp [Store.reference, hRow, hCompleted]
  · intro hCredited later hLater
    obtain ⟨hOn, -⟩ := steps_of_reaches hInvariant hLater
    have hSame : later.store.reference = c.store.reference := (hSettled hCredited).steps hOn
    refine ⟨?_, ?_⟩
    · rw [credited_iff_credits, hSame, ← credited_iff_credits]
      exact hCredited
    · intro d hDeposit
      have hSuccess : d.status = .success := (settled_rows (hSettled hCredited)).2 d hDeposit
      have hView : later.store.reference.deposit = some (d.id, .success) := by
        rw [hSame]
        simp [Store.reference, hDeposit, hSuccess]
      obtain ⟨d', hRow, hSplit⟩ := Option.map_eq_some_iff.mp hView
      exact ⟨d', hRow, congrArg Prod.fst hSplit, congrArg Prod.snd hSplit⟩
  · intro hCredited now
    obtain ⟨⟨t, hRow, hCompleted⟩, hSuccess⟩ := settled_rows (hSettled hCredited)
    refine ⟨?_, ?_⟩
    · simp [Store.staleTransaction, hRow, DepositTransaction.txFailed, hCompleted]
    · cases hDeposit : c.store.deposit with
      | none => simp [Store.staleFailedDeposit, hDeposit]
      | some d => simp [Store.staleFailedDeposit, hDeposit, hSuccess d hDeposit]

end Runs

/-- A deposit of 10 FARM by user 1, whose wallet is empty. -/
def metadataOf (userId : Option UserId) : Metadata :=
  ⟨userId, some .paystack, none, none, false, none, none, none, none, none⟩

def depositOfTen (userId : Option UserId) (deposit : Option Deposit) : Store where
  deposit := deposit
  transaction := some ⟨.deposit, .pending, toUnits 10, 0, toUnits 10, some 1, metadataOf userId,
    some 0⟩
  transactionId := 0
  nextDepositId := 1
  bank :=
    { wallets := fun id => if id = 1 then some ⟨0, 0, false⟩ else none
      platform := none
      transactions := []
      ledger := [] }
  activeWallet := fun userId => if userId = 1 then some 1 else none
  userWallet := fun userId => if userId = 1 then some 1 else none
  nextWalletId := 2
  merchantUser := fun _ => none
  credits := []

def pendingRow : Deposit := ⟨0, 1, 10, some .paystack, .pending, 0⟩

theorem fresh_depositOfTen (userId : Option UserId) {deposit : Option Deposit}
    (h : ∀ d, deposit = some d → d.status = .pending ∧ d.id < 1) :
    Fresh (depositOfTen userId deposit) := by
  refine ⟨rfl, h, ?_, ?_⟩
  · intro t hRow
    cases hRow
    rfl
  · intro id hLe
    have hNe : id ≠ 1 := by
      rintro rfl
      exact Nat.not_succ_le_self 1 hLe
    simp [depositOfTen, hNe]

def quiet : Outcome := ⟨0, FEE_DEFAULTS .merchant, true, false⟩

def later : Outcome := { quiet with now := 11 * 60 * 1000 }

def steps (index n : ℕ) (o : Outcome) : List (Move Request Outcome) :=
  List.replicate n (.run index o)

/-- Without a user's name: two finalisers have read the transaction open, the first credits, a
stale failure reopens the way for the second. -/
def creditedAroundFailure : List (Move Request Outcome) :=
  [.enter (.finalize .webhook), .enter (.finalize .deposit), .enter (.failDeposit none)] ++
    steps 0 3 quiet ++ steps 1 4 quiet ++ steps 2 2 quiet ++
    steps 0 1 quiet ++ steps 2 1 quiet ++ steps 1 1 quiet

/-- With one: the second finaliser rebuilds the deposit that the cleanup deleted as failed. -/
def creditedAroundCleanup : List (Move Request Outcome) :=
  [.enter (.finalize .webhook), .enter (.finalize .webhook), .enter (.failDeposit none),
      .enter .cleanupStaleFailedDeposits] ++
    steps 0 2 quiet ++ steps 1 2 quiet ++ steps 0 1 quiet ++ steps 2 2 quiet ++
    steps 0 1 quiet ++ steps 2 1 quiet ++ steps 3 4 later ++ steps 1 2 later

theorem deposit_credited_twice :
    (Fresh (depositOfTen none none) ∧ ∃ c,
      program.Reaches anyStep (Program.idle (depositOfTen none none)) c ∧
        ¬CreditedOnce (depositOfTen none none) c.store) ∧
    (Fresh (depositOfTen (some 1) none) ∧ ∃ c,
      program.Reaches anyStep (Program.idle (depositOfTen (some 1) none)) c ∧
        ¬CreditedOnce (depositOfTen (some 1) none) c.store) := by
  have hFailure : (program.schedule creditedAroundFailure
      (Program.idle (depositOfTen none none))).map (fun c => c.store.credits.length) = some 2 := by
    decide +kernel
  have hCleanup : (program.schedule creditedAroundCleanup
      (Program.idle (depositOfTen (some 1) none))).map (fun c => c.store.credits.length) =
        some 2 := by
    decide +kernel
  obtain ⟨c₁, hRun₁, hTwice₁⟩ := Option.map_eq_some_iff.mp hFailure
  obtain ⟨c₂, hRun₂, hTwice₂⟩ := Option.map_eq_some_iff.mp hCleanup
  refine ⟨⟨fresh_depositOfTen none nofun, c₁, Program.reaches_of_schedule hRun₁, ?_⟩,
    ⟨fresh_depositOfTen (some 1) nofun, c₂, Program.reaches_of_schedule hRun₂, ?_⟩⟩
  · intro hOnce
    have hLe := hOnce.credits_le
    omega
  · intro hOnce
    have hLe := hOnce.credits_le
    omega

/-- Two finalisers and a failure that reads the row they have settled. -/
def finalizedTwice : List (Move Request Outcome) :=
  [.enter (.finalize .webhook), .enter (.finalize .deposit), .enter (.failDeposit none)] ++
    steps 0 2 quiet ++ steps 1 3 quiet ++ steps 0 1 quiet ++ steps 1 1 quiet ++ steps 2 3 quiet

theorem deposit_of_ten_credited_once : ∃ c,
    program.Reaches (Spares false) (Program.idle (depositOfTen (some 1) (some pendingRow))) c ∧
      c.store.credits = [(1, Wallets.toUnits 10)] ∧
      CreditedOnce (depositOfTen (some 1) (some pendingRow)) c.store := by
  have hRuns : ((program.guarded (Spares false)).schedule finalizedTwice
      (Program.idle (depositOfTen (some 1) (some pendingRow)))).map (fun c => c.store.credits) =
        some [(1, Wallets.toUnits 10)] := by
    decide +kernel
  obtain ⟨c, hRun, hCredits⟩ := Option.map_eq_some_iff.mp hRuns
  have hReach := Program.reaches_of_guarded (Program.reaches_of_schedule hRun)
  exact ⟨c, hReach, hCredits,
    deposit_credited_at_most_once (fresh_depositOfTen _ (by rintro d ⟨⟩; decide)) hReach⟩

def Call.isDone : Call → Bool
  | .done _ => true
  | _ => false

/-- The failure reads both rows open, and writes them after the finaliser has settled them. -/
def failedAfterCredit : List (Move Request Outcome) :=
  [.enter (.finalize .webhook), .enter (.failDeposit none)] ++
    steps 0 2 quiet ++ steps 1 2 quiet ++ steps 0 1 quiet ++ steps 1 1 quiet

/-- A cleanup eleven minutes later. -/
def cleanedUp : List (Move Request Outcome) :=
  .enter .cleanupStaleFailedDeposits :: steps 2 4 later

theorem credited_deposit_marked_failed_and_deleted : ∃ c later,
    program.Reaches anyStep (Program.idle (depositOfTen (some 1) (some pendingRow))) c ∧
      c.calls.all Call.isDone = true ∧ ¬Consistent anyStep c ∧
      program.Reaches anyStep c later ∧ c.store.deposit.isSome ∧ later.store.deposit = none := by
  have hFailed : (program.schedule failedAfterCredit
      (Program.idle (depositOfTen (some 1) (some pendingRow)))).map (fun c =>
        (c.calls.all Call.isDone, decide c.store.Credited,
          c.store.deposit.map Deposit.status)) = some (true, true, some .failed) := by
    decide +kernel
  have hDeleted : ((program.schedule failedAfterCredit
      (Program.idle (depositOfTen (some 1) (some pendingRow)))).bind
        (program.schedule cleanedUp)).map (fun c => c.store.deposit) = some none := by
    decide +kernel
  obtain ⟨c, hRun, hEnd⟩ := Option.map_eq_some_iff.mp hFailed
  simp only [Prod.mk.injEq, decide_eq_true_eq] at hEnd
  obtain ⟨hDone, hCredited, hStatus⟩ := hEnd
  obtain ⟨d, hRow, hFailedRow⟩ := Option.map_eq_some_iff.mp hStatus
  rw [hRun, Option.bind_some] at hDeleted
  obtain ⟨after, hCleanup, hGone⟩ := Option.map_eq_some_iff.mp hDeleted
  refine ⟨c, after, Program.reaches_of_schedule hRun, hDone, ?_,
    Program.reaches_of_schedule hCleanup, by simp [hRow], hGone⟩
  intro hConsistent
  have hSuccess := (hConsistent.credited_iff.mp hCredited).2 d hRow
  rw [hFailedRow] at hSuccess
  cases hSuccess

theorem deposit_of_ten_settles_consistently : ∃ c,
    program.Reaches (Spares true) (Program.idle (depositOfTen (some 1) (some pendingRow))) c ∧
      c.store.Credited ∧ Consistent (Spares true) c := by
  have hRuns : ((program.guarded (Spares true)).schedule finalizedTwice
      (Program.idle (depositOfTen (some 1) (some pendingRow)))).map
        (fun c => decide c.store.Credited) = some true := by
    decide +kernel
  obtain ⟨c, hRun, hCredited⟩ := Option.map_eq_some_iff.mp hRuns
  have hReach := Program.reaches_of_guarded (Program.reaches_of_schedule hRun)
  exact ⟨c, hReach, of_decide_eq_true hCredited,
    deposit_settles_consistently (fresh_depositOfTen _ (by rintro d ⟨⟩; decide)) hReach⟩

end FarmBackend.Deposits
