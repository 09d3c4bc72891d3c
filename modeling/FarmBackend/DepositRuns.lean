import FarmBackend.DepositCalls

/-!
# What every step does to the reference

Each database call, under the guard that `failDeposit` respects a settlement, is a sequence of
steps of the reference, and keeps what the running calls know.
-/

namespace FarmBackend.Deposits
open Wallets Interleaving

set_option autoImplicit false

namespace Store

def reference (s : Store) : Reference where
  deposit := s.deposit.map fun d => (d.id, d.status)
  transaction := s.transaction.map DepositTransaction.status
  credits := s.credits.length
  nextDepositId := s.nextDepositId

/-- The transaction, while it is there, names this user or nobody. -/
def Names (user : Option UserId) (s : Store) : Prop :=
  ∀ t, s.transaction = some t → t.metadata.userId = user

section Operations
variable {s s' : Store} {user : Option UserId}

theorem deposit_of_depositAt {id : ℕ} {d : Deposit} (h : s.depositAt id = some d) :
    s.deposit = some d ∧ d.id = id := by
  obtain ⟨hRow, hId⟩ := Option.filter_eq_some_iff.mp h
  exact ⟨hRow, by simpa using hId⟩

theorem reference_claimDeposit {id : ℕ} {now : Time} (h : s.claimDeposit id now = some s') :
    s.reference.deposit = some (id, .pending) ∧
      s'.reference = { s.reference with deposit := some (id, .success) } ∧
      s'.transaction = s.transaction := by
  unfold claimDeposit at h
  split at h
  · cases h
  · rename_i d hAt
    obtain ⟨hRow, hId⟩ := deposit_of_depositAt hAt
    simp only [Option.ite_none_right_eq_some, Option.some.injEq] at h
    obtain ⟨hPending, rfl⟩ := h
    refine ⟨?_, ?_, rfl⟩
    · simp [reference, hRow, hId, hPending]
    · simp [reference, hId]

theorem updateTransaction_eq_some {f : DepositTransaction → DepositTransaction} :
    s.updateTransaction f = some s' ↔
      ∃ t, s.transaction = some t ∧ s' = { s with transaction := some (f t) } := by
  unfold updateTransaction
  cases s.transaction with
  | none => simp
  | some t => simp [eq_comm]

@[simp] theorem reference_createWallet (userId : UserId) :
    (s.createWallet userId).reference = s.reference := rfl

@[simp] theorem transaction_createWallet (userId : UserId) :
    (s.createWallet userId).transaction = s.transaction := rfl

@[simp] theorem reference_findOrCreateWallet (userId : UserId) :
    (s.findOrCreateWallet userId).1.reference = s.reference := by
  unfold findOrCreateWallet
  split <;> rfl

@[simp] theorem transaction_findOrCreateWallet (userId : UserId) :
    (s.findOrCreateWallet userId).1.transaction = s.transaction := by
  unfold findOrCreateWallet
  split <;> rfl

/-- A credit needs the transaction to be there and counts once. -/
theorem reference_credit {walletId : WalletId} {amount : ℚ} (h : s.credit walletId amount = some s') :
    s.transaction.isSome ∧
      s'.reference = { s.reference with credits := s.reference.credits + 1 } ∧
      s'.transaction = s.transaction := by
  simp only [credit, Option.bind_eq_bind, Option.bind_eq_some_iff, Option.pure_def,
    Option.some.injEq] at h
  obtain ⟨t, hRow, bank, -, rfl⟩ := h
  exact ⟨by simp [hRow], by simp [reference], rfl⟩

theorem reference_updateTransaction {f : DepositTransaction → DepositTransaction}
    {status : TransactionStatus} (hStatus : ∀ t, (f t).status = status)
    (h : s.updateTransaction f = some s') :
    s'.reference = { s.reference with transaction := some status } := by
  obtain ⟨t, -, rfl⟩ := updateTransaction_eq_some.mp h
  simp [reference, hStatus]

theorem Names.congr (h : s.Names user) (hSame : s'.transaction = s.transaction) :
    s'.Names user := by
  unfold Names
  rw [hSame]
  exact h

theorem Names.updateTransaction {f : DepositTransaction → DepositTransaction} (h : s.Names user)
    (hUser : ∀ t, t.metadata.userId = user → (f t).metadata.userId = user)
    (hUpdate : s.updateTransaction f = some s') : s'.Names user := by
  obtain ⟨t, hRow, rfl⟩ := updateTransaction_eq_some.mp hUpdate
  intro t' hRow'
  cases hRow'
  exact hUser t (h t hRow)

theorem Names.complete {receiver : Option WalletId} (h : s.Names user)
    (hUpdate : s.updateTransaction (·.completed receiver) = some s') : s'.Names user := by
  refine Names.updateTransaction h ?_ hUpdate
  exact fun _ => id

end Operations

def Same (s s' : Store) : Prop :=
  s'.reference = s.reference ∧ s'.transaction = s.transaction

theorem Same.refl (s : Store) : Same s s := ⟨rfl, rfl⟩

theorem same_findOrCreateWallet (userId : UserId) (s : Store) :
    Same s (s.findOrCreateWallet userId).1 :=
  ⟨reference_findOrCreateWallet userId, transaction_findOrCreateWallet userId⟩

theorem same_transactionWallet {t : DepositTransaction} {s s' : Store} {walletId : WalletId}
    (h : s.transactionWallet t = some (s', walletId)) : Same s s' := by
  unfold transactionWallet at h
  split at h
  · cases h
    exact .refl s
  · obtain ⟨userId, -, hFound⟩ := Option.map_eq_some_iff.mp h
    have hStore : (s.findOrCreateWallet userId).1 = s' := by rw [hFound]
    exact hStore ▸ same_findOrCreateWallet userId s

/-- What a step may do: move the reference along its life and leave the user's name alone. -/
def Lives (user : Option UserId) (careful : Bool) (s s' : Store) : Prop :=
  Reference.Steps user.isSome careful s.reference s'.reference ∧ (s.Names user → s'.Names user)

section Lives
variable {user : Option UserId} {careful : Bool} {s s₁ s' : Store}

theorem Lives.refl (s : Store) : Lives user careful s s := ⟨.refl, id⟩

theorem Lives.trans (h : Lives user careful s s₁) (h' : Lives user careful s₁ s') :
    Lives user careful s s' :=
  ⟨h.1.trans h'.1, h'.2 ∘ h.2⟩

theorem Same.lives (h : Same s s') : Lives user careful s s' := by
  refine ⟨?_, fun hNames => hNames.congr h.2⟩
  rw [h.1]

/-- Claim, credit, complete: the three writes of every settlement of a deposit row. -/
theorem lives_settles {id : ℕ} {now : Time} {walletId : WalletId} {amount : ℚ}
    {s₂ s₃ s₄ s₅ : Store} {f : DepositTransaction → DepositTransaction}
    (hBefore : Same s s₁) (hClaim : s₁.claimDeposit id now = some s₂)
    (hBetween : Same s₂ s₃) (hCredit : s₃.credit walletId amount = some s₄)
    (hAfter : Same s₄ s₅) (hComplete : s₅.updateTransaction f = some s')
    (hStatus : ∀ t, (f t).status = .completed)
    (hUser : ∀ t, t.metadata.userId = user → (f t).metadata.userId = user) :
    Lives user careful s s' := by
  obtain ⟨hPending, hClaimed, hSame₂⟩ := reference_claimDeposit hClaim
  obtain ⟨hThere, hCredited, hSame₄⟩ := reference_credit hCredit
  have hTransaction : s₅.transaction = s.transaction := by
    rw [hAfter.2, hSame₄, hBetween.2, hSame₂, hBefore.2]
  have hReference : s'.reference = ⟨some (id, .success), some .completed,
      s.reference.credits + 1, s.reference.nextDepositId⟩ := by
    rw [reference_updateTransaction hStatus hComplete, hAfter.1, hCredited, hBetween.1, hClaimed,
      hBefore.1]
  refine ⟨?_, fun hNames => (hNames.congr hTransaction).updateTransaction hUser hComplete⟩
  rw [hBetween.2, hSame₂, hBefore.2] at hThere
  obtain ⟨t, hRow⟩ := Option.isSome_iff_exists.mp hThere
  have hStart : s.reference = ⟨some (id, .pending), some t.status, s.reference.credits,
      s.reference.nextDepositId⟩ := by
    rw [hBefore.1] at hPending
    rw [← hPending]
    simp [reference, hRow]
  rw [hReference, hStart]
  exact .single (.settles id t.status _ _)

theorem completeTransaction_of_ne {t : DepositTransaction} (h : t.status ≠ .completed)
    (receiver : Option WalletId) (s : Store) :
    s.completeTransaction t receiver = s.updateTransaction (·.completed receiver) :=
  if_pos h

/-- The finaliser read the transaction open, so it completes it. -/
theorem lives_finalizePendingDepositTx {service : Service} {d : Deposit} {t : DepositTransaction}
    {now : Time} {ok : Bool} (hOpen : t.txPending = true)
    (h : s.finalizePendingDepositTx service d t now = some (s', ok)) :
    Lives user careful s s' := by
  have hDeposit : t.isDeposit = true := (Bool.and_eq_true_iff.mp hOpen).1
  have hStatus : t.status ≠ .completed := by
    intro hCompleted
    simp [DepositTransaction.txPending, DepositTransaction.isOpen, hCompleted] at hOpen
  simp only [finalizePendingDepositTx] at h
  split at h
  · cases h
    exact (same_findOrCreateWallet _ _).lives
  · rename_i s₂ hClaim
    simp only [hDeposit, completeTransaction_of_ne hStatus, Option.bind_eq_bind,
      Option.bind_eq_some_iff, Option.pure_def, Option.some.injEq, Prod.mk.injEq] at h
    obtain ⟨s₄, hCredit, h⟩ := h
    obtain ⟨s₆, hComplete, rfl, -⟩ : ∃ s₆, s₄.updateTransaction (·.completed _) = some s₆ ∧
        s₆ = s' ∧ true = ok := by
      cases service <;> exact h
    exact lives_settles (same_findOrCreateWallet _ _) hClaim (.refl _) hCredit (.refl _) hComplete
      (fun _ => rfl) (fun _ => id)

theorem lives_creditPendingDepositTx {service : Service} {d : Deposit} {t : DepositTransaction}
    {now : Time} {ok : Bool} (hPending : t.status = .pending)
    (h : s.creditPendingDepositTx service d t now = some (s', ok)) : Lives user careful s s' := by
  have hStatus : t.status ≠ .completed := by
    rw [hPending]
    exact TransactionStatus.noConfusion
  simp only [creditPendingDepositTx] at h
  split at h
  · cases h
    exact .refl s
  · rename_i s₂ hClaim
    simp only [completeTransaction_of_ne hStatus, Option.bind_eq_bind, Option.bind_eq_some_iff,
      Option.pure_def, Option.some.injEq, Prod.mk.injEq] at h
    obtain ⟨s₄, hCredit, s₆, hComplete, rfl, -⟩ := h
    exact lives_settles (.refl s) hClaim (same_findOrCreateWallet _ _) hCredit (.refl _) hComplete
      (fun _ => rfl) (fun _ => id)

theorem lives_finalizeMerchantQrTx {rule : Fees.FeeRule} {d : Deposit} {t : DepositTransaction}
    {merchantId : ℕ} {now : Time} {ok : Bool} (hUser : t.metadata.userId = user)
    (h : s.finalizeMerchantQrTx rule d t merchantId now = some (s', ok)) :
    Lives user careful s s' := by
  simp only [finalizeMerchantQrTx, Option.bind_eq_bind, Option.bind_eq_some_iff,
    Option.ite_none_right_eq_some] at h
  obtain ⟨userId, -, walletId, -, platform, -, -, h⟩ := h
  split at h
  · cases h
    exact .refl s
  · rename_i s₂ hClaim
    simp only [Option.bind_eq_some_iff, Option.pure_def, Option.some.injEq, Prod.mk.injEq] at h
    obtain ⟨s₄, hCredit, bank, -, s₆, hComplete, rfl, -⟩ := h
    refine lives_settles (.refl s) hClaim (.refl _) hCredit ?_ hComplete ?_ ?_
    · exact ⟨rfl, rfl⟩
    · exact fun _ => rfl
    · exact fun _ _ => hUser

/-- Crediting without a deposit row: sound only where none is there or can be rebuilt. -/
theorem lives_creditPendingTransactionTx {service : Service} {t : DepositTransaction} {ok : Bool}
    (hUnnamed : user.isSome = false) (hMissing : s.reference.deposit = none)
    (h : s.creditPendingTransactionTx service t = some (s', ok)) : Lives user careful s s' := by
  unfold creditPendingTransactionTx at h
  split at h
  · cases h
    exact .refl s
  · rename_i s₁ walletId hWallet
    have hSame := same_transactionWallet hWallet
    split at h
    · cases h
      exact hSame.lives
    · rename_i row hRow
      split at h
      · cases h
        exact hSame.lives
      · rename_i hStatus
        simp only [Option.bind_eq_bind, Option.bind_eq_some_iff, Option.pure_def,
          Option.some.injEq, Prod.mk.injEq] at h
        obtain ⟨s₂, hComplete, s₃, hCredit, rfl, -⟩ := h
        obtain ⟨-, hCredited, hSame₃⟩ := reference_credit hCredit
        have hCompleted :
            s₂.reference = { s₁.reference with transaction := some .completed } :=
          reference_updateTransaction (fun _ => rfl) hComplete
        have hBefore : s.reference = ⟨none, some row.status, s.reference.credits,
            s.reference.nextDepositId⟩ := by
          rw [← hMissing, ← hSame.1]
          simp [reference, hRow]
        have hAfter : s₃.reference = ⟨none, some .completed, s.reference.credits + 1,
            s.reference.nextDepositId⟩ := by
          simp only [hCredited, hCompleted, hSame.1, hMissing]
        refine ⟨?_, fun hNames => ?_⟩
        · rw [hAfter, hBefore]
          exact .single (.settlesAlone row.status _ _ hUnnamed hStatus)
        · exact ((hNames.congr hSame.2).complete hComplete).congr hSame₃

/-- Marking the deposit row failed, where that is not too late and the transaction is closed. -/
theorem lives_failDepositRow {id : ℕ} {now : Time}
    (hSpared : ∀ d, s.depositAt id = some d → d.status ≠ .success) (hClosed : s.reference.Closed)
    (h : s.failDepositRow id now = some s') : Lives user careful s s' := by
  unfold failDepositRow at h
  split at h
  · cases h
  · rename_i d hAt
    obtain ⟨hRow, hId⟩ := deposit_of_depositAt hAt
    cases h
    refine ⟨?_, fun hNames => hNames.congr rfl⟩
    have hBefore : s.reference = ⟨some (d.id, d.status), s.reference.transaction,
        s.reference.credits, s.reference.nextDepositId⟩ := by
      simp [reference, hRow]
    rw [hBefore] at hClosed ⊢
    exact .single (.failsDeposit d.id d.status _ _ _ (hSpared d hAt) hClosed)

theorem lives_failTransaction {f : DepositTransaction → DepositTransaction}
    (hStatus : ∀ t, (f t).status = .failed)
    (hUser : ∀ t, t.metadata.userId = user → (f t).metadata.userId = user)
    (hSpared : ∀ t, s.transaction = some t → t.status ≠ .completed)
    (h : s.updateTransaction f = some s') : Lives user careful s s' := by
  refine ⟨?_, fun hNames => hNames.updateTransaction hUser h⟩
  rw [reference_updateTransaction hStatus h]
  obtain ⟨t, hRow, -⟩ := updateTransaction_eq_some.mp h
  have hBefore : s.reference = ⟨s.reference.deposit, some t.status, s.reference.credits,
      s.reference.nextDepositId⟩ := by
    simp [reference, hRow]
  rw [hBefore]
  exact .single (.failsTransaction _ t.status _ _ (hSpared t hRow))

theorem failDepositRow_updateTransaction (id : ℕ) (now : Time)
    (f : DepositTransaction → DepositTransaction) (s : Store) :
    (s.failDepositRow id now).bind (updateTransaction f) =
      (s.updateTransaction f).bind (failDepositRow id now) := by
  have hAt : ∀ t, ({ s with transaction := t } : Store).depositAt id = s.depositAt id :=
    fun _ => rfl
  unfold failDepositRow updateTransaction
  cases hDeposit : s.depositAt id <;> cases hTransaction : s.transaction <;>
    simp [hAt, hDeposit]

theorem closed_of_failed {f : DepositTransaction → DepositTransaction}
    (hStatus : ∀ t, (f t).status = .failed) (h : s.updateTransaction f = some s') :
    s'.reference.Closed := by
  rw [reference_updateTransaction hStatus h]
  exact ⟨nofun, nofun⟩

/-- `failDeposit` spares a settlement: neither row it writes was settled after it was read. -/
def sparesSettled (deposit : Option Deposit) (transaction : Option DepositTransaction)
    (s : Store) : Bool :=
  (deposit.filter fun d => d.status == .pending).all (fun d =>
      (s.depositAt d.id).all fun row => row.status != .success) &&
    (transaction.filter DepositTransaction.canFail).all fun _ =>
      s.transaction.all fun row => row.status != .completed

theorem lives_failReadTransaction {reason : Option String}
    {transaction : Option DepositTransaction}
    (hSpares : (transaction.filter DepositTransaction.canFail).all fun _ =>
      s.transaction.all fun row => row.status != .completed)
    (hUser : ∀ t, transaction = some t → t.metadata.userId = user)
    (h : s.failReadTransaction reason transaction = some s') : Lives user careful s s' := by
  unfold failReadTransaction at h
  split at h
  · cases h
    exact .refl s
  · rename_i t hFail
    obtain ⟨rfl, -⟩ := Option.filter_eq_some_iff.mp hFail
    refine lives_failTransaction ?_ ?_ ?_ h
    · exact fun _ => rfl
    · exact fun _ _ => hUser t rfl
    · intro row hThere
      simpa [hFail, hThere] using hSpares

theorem lives_failDepositTx {reason : Option String} {deposit : Option Deposit}
    {transaction : Option DepositTransaction} {now : Time}
    (hSpares : s.sparesSettled deposit transaction = true)
    (hUser : ∀ t, transaction = some t → t.metadata.userId = user)
    (hClosed : transaction.filter DepositTransaction.canFail = none → s.reference.Closed)
    (h : s.failDepositTx reason deposit transaction now = some s') : Lives user careful s s' := by
  obtain ⟨hDeposit, hTransaction⟩ := Bool.and_eq_true_iff.mp hSpares
  simp only [failDepositTx, failReadDeposit, Option.bind_eq_bind] at h
  split at h
  · exact lives_failReadTransaction hTransaction hUser h
  · rename_i d hRow
    rw [hRow] at hDeposit
    have hSpared : ∀ row, s.depositAt d.id = some row → row.status ≠ .success := by
      intro row hAt
      simpa [hAt] using hDeposit
    cases hFail : transaction.filter DepositTransaction.canFail with
    | none =>
      simp only [failReadTransaction, hFail, Option.bind_fun_some] at h
      exact lives_failDepositRow hSpared (hClosed hFail) h
    | some t =>
      -- The transaction first, so that the deposit finds it closed.
      simp only [failReadTransaction, hFail] at h
      rw [failDepositRow_updateTransaction, Option.bind_eq_some_iff] at h
      obtain ⟨s₁, hFirst, hSecond⟩ := h
      have hRead : s.failReadTransaction reason transaction = some s₁ := by
        simpa only [failReadTransaction, hFail] using hFirst
      have hLives : Lives user careful s s₁ :=
        lives_failReadTransaction hTransaction hUser hRead
      refine hLives.trans (lives_failDepositRow ?_ ?_ hSecond)
      · intro row hAt
        obtain ⟨_, -, rfl⟩ := updateTransaction_eq_some.mp hFirst
        exact hSpared row hAt
      · refine closed_of_failed ?_ hFirst
        exact fun _ => rfl

theorem lives_failOpenTransaction (s : Store) : Lives user careful s s.failOpenTransaction := by
  cases hRow : s.transaction with
  | none =>
    have hSame : Same s s.failOpenTransaction := by
      simp [Same, reference, failOpenTransaction, hRow]
    exact hSame.lives
  | some t =>
    by_cases hOpen : t.isOpen = true
    · have hUpdate : s.updateTransaction (fun t => { t with status := .failed }) =
          some s.failOpenTransaction := by
        simp [updateTransaction, failOpenTransaction, hRow, hOpen]
      refine lives_failTransaction ?_ ?_ ?_ hUpdate
      · exact fun _ => rfl
      · exact fun _ => id
      · intro row hThere hCompleted
        rw [hRow, Option.some.injEq] at hThere
        subst hThere
        simp [DepositTransaction.isOpen, hCompleted] at hOpen
    · have hSame : Same s s.failOpenTransaction := by
        simp [Same, reference, failOpenTransaction, hRow, hOpen]
      exact hSame.lives

theorem closed_iff (s : Store) :
    s.reference.Closed ↔ ∀ t, s.transaction = some t → t.isOpen = false := by
  unfold Reference.Closed reference DepositTransaction.isOpen
  cases s.transaction <;> simp

theorem closed_failOpenTransaction (s : Store) : s.failOpenTransaction.reference.Closed := by
  rw [closed_iff]
  intro t hRow
  obtain ⟨before, -, rfl⟩ := Option.map_eq_some_iff.mp hRow
  split
  · rfl
  · rename_i hOpen
    exact Bool.eq_false_iff.mpr hOpen

theorem lives_failPendingDeposit {now : Time} (hClosed : s.reference.Closed) :
    Lives user careful s (s.failPendingDeposit now) := by
  cases hRow : s.deposit with
  | none =>
    have hSame : Same s (s.failPendingDeposit now) := by
      simp [Same, reference, failPendingDeposit, hRow]
    exact hSame.lives
  | some d =>
    by_cases hPending : d.status = .pending
    · have hAt : s.depositAt d.id = some d := by simp [depositAt, hRow]
      have hUpdate : s.failDepositRow d.id now = some (s.failPendingDeposit now) := by
        simp [failDepositRow, hAt, failPendingDeposit, hRow, hPending]
      refine lives_failDepositRow ?_ hClosed hUpdate
      intro row hThere hSuccess
      rw [hAt, Option.some.injEq] at hThere
      rw [← hThere, hPending] at hSuccess
      cases hSuccess
    · have hSame : Same s (s.failPendingDeposit now) := by
        simp [Same, reference, failPendingDeposit, hRow, hPending]
      exact hSame.lives

/-- Both writes of the NOWPayments failure ask for the status, so nothing has to be known. -/
theorem lives_nowpaymentsFailureTx (now : Time) (s : Store) :
    Lives user careful s (s.nowpaymentsFailureTx now) :=
  (lives_failOpenTransaction s).trans (lives_failPendingDeposit (closed_failOpenTransaction s))

theorem lives_deletePendingTx {id : ℕ}
    (hSpared : careful = true → ∀ d, s.depositAt id = some d → d.status ≠ .success)
    (h : s.deletePendingTx id = some s') : Lives user careful s s' := by
  simp only [deletePendingTx, Option.bind_eq_bind, Option.bind_eq_some_iff, Option.pure_def,
    Option.some.injEq] at h
  obtain ⟨d, hAt, t, hRow, rfl⟩ := h
  obtain ⟨hDeposit, -⟩ := deposit_of_depositAt hAt
  refine ⟨?_, fun _ _ hNone => by cases hNone⟩
  have hBefore : s.reference = ⟨some (d.id, d.status), some t.status, s.reference.credits,
      s.reference.nextDepositId⟩ := by
    simp [reference, hDeposit, hRow]
  rw [hBefore]
  exact .single (.deletes d.id d.status t.status _ _ fun hCareful => hSpared hCareful d hAt)

theorem lives_deleteFailed {id : ℕ} (hFailed : s.reference.FailedAt id)
    (h : s.deleteFailed id = some s') : Lives user careful s s' := by
  simp only [deleteFailed, Option.bind_eq_bind, Option.bind_eq_some_iff, Option.pure_def,
    Option.some.injEq] at h
  obtain ⟨d, hAt, rfl⟩ := h
  obtain ⟨hDeposit, rfl⟩ := deposit_of_depositAt hAt
  refine ⟨?_, fun hNames => hNames.congr rfl⟩
  have hStatus : d.status = .failed := hFailed.2 d.status (by simp [reference, hDeposit])
  have hBefore : s.reference = ⟨some (d.id, .failed), s.reference.transaction,
      s.reference.credits, s.reference.nextDepositId⟩ := by
    simp [reference, hDeposit, hStatus]
  rw [hBefore]
  exact .single (.deletesFailed d.id _ _ _)

theorem lives_rebuild {d : Deposit} (hNamed : user.isSome = true) (hMissing : s.deposit = none)
    (hPending : d.status = .pending) (hFresh : d.id = s.nextDepositId) :
    Lives user careful s
      { s with deposit := some d, nextDepositId := s.nextDepositId + 1 } := by
  refine ⟨?_, fun hNames => hNames.congr rfl⟩
  have hBefore : s.reference = ⟨none, s.reference.transaction, s.reference.credits,
      s.nextDepositId⟩ := by
    simp [reference, hMissing]
  have hAfter : Store.reference { s with deposit := some d, nextDepositId := s.nextDepositId + 1 } =
      ⟨some (s.nextDepositId, .pending), s.reference.transaction, s.reference.credits,
        s.nextDepositId + 1⟩ := by
    simp [reference, hPending, hFresh]
  rw [hAfter, hBefore]
  exact .single (.rebuilds _ _ _ hNamed)

theorem lives_metadata {metadata : Metadata} (hUser : metadata.userId = user)
    (h : s.updateTransaction (fun row => { row with metadata := metadata }) = some s') :
    Lives user careful s s' := by
  refine ⟨?_, fun hNames => ?_⟩
  · obtain ⟨t, hRow, rfl⟩ := updateTransaction_eq_some.mp h
    have hSame : Store.reference { s with transaction := some { t with metadata := metadata } } =
        s.reference := by
      simp [reference, hRow]
    rw [hSame]
  · refine hNames.updateTransaction ?_ h
    exact fun _ _ => hUser

end Lives

end Store

end FarmBackend.Deposits
