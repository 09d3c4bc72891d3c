import FarmBackend.DepositCalls

/-!
# The credits of a deposit and the balances of the wallets

In every run of the deposit calls, without any condition on it, a wallet holds what it held at the
start and what the deposit credited to it. Only the wallet of the platform also takes fees.
-/

namespace FarmBackend.Deposits
open Decimal Fees Wallets Interleaving

set_option autoImplicit false

namespace Store

/-- All that the deposit credited to one wallet. -/
def creditedTo (id : WalletId) (s : Store) : ℤ :=
  ((s.credits.filter fun c => c.1 == id).map Prod.snd).sum

/-- What a step that moves no money leaves alone. -/
def money (s : Store) : (WalletId → Option Wallet) × Option WalletId × WalletId ×
    List (WalletId × ℤ) :=
  (s.bank.wallets, s.bank.platform, s.nextWalletId, s.credits)

/-- The wallets against the credits since the start. -/
structure Accounts (start s : Store) : Prop where
  platform : s.bank.platform = start.bank.platform
  unused : ∀ id, s.nextWalletId ≤ id → s.bank.wallets id = none
  balance : ∀ id, start.bank.platform ≠ some id →
    s.bank.balanceOf id = start.bank.balanceOf id + s.creditedTo id

section Operations
variable {start s s' : Store}

theorem Accounts.of_money (h : Accounts start s) (hMoney : s'.money = s.money) :
    Accounts start s' := by
  simp only [money, Prod.mk.injEq] at hMoney
  obtain ⟨hWallets, hPlatform, hNext, hCredits⟩ := hMoney
  refine ⟨hPlatform.trans h.platform, ?_, ?_⟩
  · rw [hNext, hWallets]
    exact h.unused
  · intro id hOther
    have hBalance := h.balance id hOther
    unfold Bank.balanceOf creditedTo at hBalance ⊢
    rwa [hWallets, hCredits]

theorem accounts_createWallet (userId : UserId) (h : Accounts start s) :
    Accounts start (s.createWallet userId) := by
  have hNew : s.bank.wallets s.nextWalletId = none := h.unused _ le_rfl
  refine ⟨h.platform, ?_, ?_⟩
  · intro id hLe
    have hNe : id ≠ s.nextWalletId := by
      rintro rfl
      exact absurd hLe (Nat.not_succ_le_self _)
    simp only [createWallet, Function.update_of_ne hNe]
    exact h.unused id (Nat.le_of_succ_le hLe)
  · intro id hOther
    have hSame : (s.createWallet userId).bank.balanceOf id = s.bank.balanceOf id := by
      by_cases hId : id = s.nextWalletId
      · subst hId
        simp [createWallet, Bank.balanceOf, hNew]
      · simp [createWallet, Bank.balanceOf, hId]
    rw [hSame]
    exact h.balance id hOther

theorem accounts_findOrCreateWallet (userId : UserId) (h : Accounts start s) :
    Accounts start (s.findOrCreateWallet userId).1 := by
  unfold findOrCreateWallet
  split
  · exact h
  · exact accounts_createWallet userId h

theorem accounts_transactionWallet {t : DepositTransaction} {walletId : WalletId}
    (h : Accounts start s) (hWallet : s.transactionWallet t = some (s', walletId)) :
    Accounts start s' := by
  unfold transactionWallet at hWallet
  split at hWallet
  · cases hWallet
    exact h
  · obtain ⟨userId, -, hFound⟩ := Option.map_eq_some_iff.mp hWallet
    have hStore : (s.findOrCreateWallet userId).1 = s' := by rw [hFound]
    exact hStore ▸ accounts_findOrCreateWallet userId h

theorem normalizeAmount_eq (x : ℚ) :
    normalizeAmount x = toNumber (mathRound (x * 100) * 1000000) := by
  unfold normalizeAmount toNumber value
  push_cast
  ring

theorem accounts_credit {walletId : WalletId} {x : ℚ} (h : Accounts start s)
    (hCredit : s.credit walletId (normalizeAmount x) = some s') : Accounts start s' := by
  rw [normalizeAmount_eq] at hCredit
  simp only [credit, Option.bind_eq_bind, Option.bind_eq_some_iff, Option.pure_def,
    Option.some.injEq] at hCredit
  obtain ⟨t, -, bank, hUpdate, rfl⟩ := hCredit
  obtain ⟨hPlatform, -, -⟩ := Bank.rest_walletsUpdate hUpdate
  refine ⟨hPlatform.trans h.platform, ?_, ?_⟩
  · intro id hLe
    have hThere := Bank.isSome_walletsUpdate hUpdate id
    rw [h.unused id hLe] at hThere
    simpa using hThere
  · intro id hOther
    obtain ⟨w, hRow, hBalances⟩ := Bank.balanceOf_walletsUpdate hUpdate
    have hBefore := h.balance id hOther
    have hAfter := hBalances id
    rw [Wallet.incrementBalance_toNumber] at hAfter
    by_cases hId : id = walletId
    · subst hId
      rw [Bank.balanceOf_eq hRow] at hBefore
      rw [if_pos rfl, hBefore] at hAfter
      simp only [Bank.balanceOf, Bank.wallets_ledgerCreate] at hAfter ⊢
      rw [hAfter]
      simp only [creditedTo, List.filter_append, List.map_append, List.sum_append]
      simp [add_assoc]
    · rw [if_neg hId, hBefore] at hAfter
      have hSkip : (walletId == id) = false := by simpa using Ne.symm hId
      simp only [Bank.balanceOf, Bank.wallets_ledgerCreate] at hAfter ⊢
      rw [hAfter]
      simp [creditedTo, List.filter_append, hSkip]

theorem accounts_platformFee {walletId : WalletId} {f : Wallet → Wallet} {bank : Bank}
    {entry : LedgerEntry} (h : Accounts start s) (hPlatform : s.bank.platform = some walletId)
    (hUpdate : s.bank.walletsUpdate walletId f = some bank) :
    Accounts start { s with bank := bank.ledgerCreate entry } := by
  obtain ⟨hSame, -, -⟩ := Bank.rest_walletsUpdate hUpdate
  refine ⟨hSame.trans h.platform, ?_, ?_⟩
  · intro id hLe
    have hThere := Bank.isSome_walletsUpdate hUpdate id
    rw [h.unused id hLe] at hThere
    simpa using hThere
  · intro id hOther
    have hNe : id ≠ walletId := by
      rintro rfl
      exact hOther (h.platform.symm.trans hPlatform)
    obtain ⟨w, -, hBalances⟩ := Bank.balanceOf_walletsUpdate hUpdate
    have hAfter := hBalances id
    rw [if_neg hNe, h.balance id hOther] at hAfter
    exact hAfter

theorem money_claimDeposit {id : ℕ} {now : Time} (h : s.claimDeposit id now = some s') :
    s'.money = s.money := by
  unfold claimDeposit at h
  split at h
  · cases h
  · simp only [Option.ite_none_right_eq_some, Option.some.injEq] at h
    obtain ⟨-, rfl⟩ := h
    rfl

theorem money_updateTransaction {f : DepositTransaction → DepositTransaction}
    (h : s.updateTransaction f = some s') : s'.money = s.money := by
  unfold updateTransaction at h
  split at h <;> cases h
  rfl

theorem money_completeTransaction {read : DepositTransaction} {receiver : Option WalletId}
    (h : s.completeTransaction read receiver = some s') : s'.money = s.money := by
  unfold completeTransaction at h
  split at h
  · exact money_updateTransaction h
  · cases h
    rfl

theorem money_failDepositRow {id : ℕ} {now : Time} (h : s.failDepositRow id now = some s') :
    s'.money = s.money := by
  unfold failDepositRow at h
  split at h <;> cases h
  rfl

theorem money_failDepositTx {reason : Option String} {deposit : Option Deposit}
    {transaction : Option DepositTransaction} {now : Time}
    (h : s.failDepositTx reason deposit transaction now = some s') : s'.money = s.money := by
  simp only [failDepositTx, Option.bind_eq_bind, Option.bind_eq_some_iff] at h
  obtain ⟨s₁, hDeposit, hTransaction⟩ := h
  have hFirst : s₁.money = s.money := by
    unfold failReadDeposit at hDeposit
    split at hDeposit
    · cases hDeposit
      rfl
    · exact money_failDepositRow hDeposit
  unfold failReadTransaction at hTransaction
  split at hTransaction
  · cases hTransaction
    exact hFirst
  · exact (money_updateTransaction hTransaction).trans hFirst

theorem money_deletePendingTx {id : ℕ} (h : s.deletePendingTx id = some s') :
    s'.money = s.money := by
  simp only [deletePendingTx, Option.bind_eq_bind, Option.bind_eq_some_iff, Option.pure_def,
    Option.some.injEq] at h
  obtain ⟨d, -, t, -, rfl⟩ := h
  rfl

theorem money_deleteFailed {id : ℕ} (h : s.deleteFailed id = some s') : s'.money = s.money := by
  simp only [deleteFailed, Option.bind_eq_bind, Option.bind_eq_some_iff, Option.pure_def,
    Option.some.injEq] at h
  obtain ⟨d, -, rfl⟩ := h
  rfl

theorem accounts_finalizePendingDepositTx {service : Service} {d : Deposit}
    {t : DepositTransaction} {now : Time} {ok : Bool} (h : Accounts start s)
    (hTx : s.finalizePendingDepositTx service d t now = some (s', ok)) : Accounts start s' := by
  have hFound := accounts_findOrCreateWallet d.userId h
  simp only [finalizePendingDepositTx] at hTx
  split at hTx
  · cases hTx
    exact hFound
  · rename_i s₂ hClaim
    simp only [Option.bind_eq_bind, Option.bind_eq_some_iff] at hTx
    obtain ⟨s₃, hCredit, hTx⟩ := hTx
    have hCredited : Accounts start s₃ := by
      cases service <;> exact accounts_credit (hFound.of_money (money_claimDeposit hClaim)) hCredit
    split at hTx
    · cases hTx
      exact hCredited
    · simp only [Option.bind_eq_some_iff, Option.pure_def, Option.some.injEq,
        Prod.mk.injEq] at hTx
      obtain ⟨s₄, hComplete, rfl, -⟩ := hTx
      exact hCredited.of_money (money_completeTransaction hComplete)

theorem accounts_creditPendingDepositTx {service : Service} {d : Deposit}
    {t : DepositTransaction} {now : Time} {ok : Bool} (h : Accounts start s)
    (hTx : s.creditPendingDepositTx service d t now = some (s', ok)) : Accounts start s' := by
  simp only [creditPendingDepositTx] at hTx
  split at hTx
  · cases hTx
    exact h
  · rename_i s₂ hClaim
    simp only [Option.bind_eq_bind, Option.bind_eq_some_iff, Option.pure_def, Option.some.injEq,
      Prod.mk.injEq] at hTx
    obtain ⟨s₃, hCredit, s₄, hComplete, rfl, -⟩ := hTx
    have hFound := accounts_findOrCreateWallet d.userId (h.of_money (money_claimDeposit hClaim))
    have hCredited : Accounts start s₃ := by
      cases service <;> exact accounts_credit hFound hCredit
    exact hCredited.of_money (money_completeTransaction hComplete)

theorem accounts_creditPendingTransactionTx {service : Service} {t : DepositTransaction}
    {ok : Bool} (h : Accounts start s)
    (hTx : s.creditPendingTransactionTx service t = some (s', ok)) : Accounts start s' := by
  unfold creditPendingTransactionTx at hTx
  split at hTx
  · cases hTx
    exact h
  · rename_i s₁ walletId hWallet
    have hFound := accounts_transactionWallet h hWallet
    split at hTx
    · cases hTx
      exact hFound
    · split at hTx
      · cases hTx
        exact hFound
      · simp only [Option.bind_eq_bind, Option.bind_eq_some_iff, Option.pure_def,
          Option.some.injEq, Prod.mk.injEq] at hTx
        obtain ⟨s₂, hComplete, s₃, hCredit, rfl, -⟩ := hTx
        have hCompleted := hFound.of_money (money_updateTransaction hComplete)
        cases service <;> exact accounts_credit hCompleted hCredit

theorem accounts_finalizeMerchantQrTx {rule : FeeRule} {d : Deposit} {t : DepositTransaction}
    {merchantId : ℕ} {now : Time} {ok : Bool} (h : Accounts start s)
    (hTx : s.finalizeMerchantQrTx rule d t merchantId now = some (s', ok)) :
    Accounts start s' := by
  simp only [finalizeMerchantQrTx, Option.bind_eq_bind, Option.bind_eq_some_iff,
    Option.ite_none_right_eq_some] at hTx
  obtain ⟨userId, -, walletId, -, platform, hPlatform, -, hTx⟩ := hTx
  split at hTx
  · cases hTx
    exact h
  · rename_i s₂ hClaim
    simp only [Option.bind_eq_some_iff, Option.pure_def, Option.some.injEq, Prod.mk.injEq] at hTx
    obtain ⟨s₃, hCredit, bank, hFee, s₄, hComplete, rfl, -⟩ := hTx
    have hCredited := accounts_credit (h.of_money (money_claimDeposit hClaim)) hCredit
    have hSame : s₃.bank.platform = some platform := by
      rw [hCredited.platform, ← h.platform, hPlatform]
    exact (accounts_platformFee hCredited hSame hFee).of_money (money_updateTransaction hComplete)

theorem credits_of_money (h : s'.money = s.money) : s'.credits = s.credits := by
  simp only [money, Prod.mk.injEq] at h
  exact h.2.2.2

theorem credits_findOrCreateWallet (userId : UserId) :
    (s.findOrCreateWallet userId).1.credits = s.credits := by
  unfold findOrCreateWallet
  split <;> rfl

theorem credits_transactionWallet {t : DepositTransaction} {walletId : WalletId}
    (h : s.transactionWallet t = some (s', walletId)) : s'.credits = s.credits := by
  unfold transactionWallet at h
  split at h
  · cases h
    rfl
  · obtain ⟨userId, -, hFound⟩ := Option.map_eq_some_iff.mp h
    have hStore : (s.findOrCreateWallet userId).1 = s' := by rw [hFound]
    rw [← hStore]
    exact credits_findOrCreateWallet userId

theorem prefix_of_credit {s₁ s₂ : Store} {walletId : WalletId} {amount : ℚ}
    (hBefore : s₁.credits = s.credits) (hCredit : s₁.credit walletId amount = some s₂)
    (hAfter : s'.credits = s₂.credits) : s.credits <+: s'.credits := by
  simp only [credit, Option.bind_eq_bind, Option.bind_eq_some_iff, Option.pure_def,
    Option.some.injEq] at hCredit
  obtain ⟨t, -, bank, -, rfl⟩ := hCredit
  rw [hAfter]
  exact hBefore ▸ List.prefix_append _ _

theorem prefix_of_eq (h : s'.credits = s.credits) : s.credits <+: s'.credits := by
  rw [h]

/-- Each settlement adds to the credits. -/
theorem prefix_finalizePendingDepositTx {service : Service} {d : Deposit} {t : DepositTransaction}
    {now : Time} {ok : Bool} (hTx : s.finalizePendingDepositTx service d t now = some (s', ok)) :
    s.credits <+: s'.credits := by
  simp only [finalizePendingDepositTx] at hTx
  split at hTx
  · cases hTx
    exact prefix_of_eq (credits_findOrCreateWallet d.userId)
  · rename_i s₂ hClaim
    simp only [Option.bind_eq_bind, Option.bind_eq_some_iff] at hTx
    obtain ⟨s₃, hCredit, hTx⟩ := hTx
    have hBefore := (credits_of_money (money_claimDeposit hClaim)).trans
      (credits_findOrCreateWallet d.userId)
    refine prefix_of_credit hBefore hCredit ?_
    split at hTx
    · cases hTx
      rfl
    · obtain ⟨s₄, hComplete, hTx⟩ := Option.bind_eq_some_iff.mp hTx
      cases hTx
      exact credits_of_money (money_completeTransaction hComplete)

theorem prefix_creditPendingDepositTx {service : Service} {d : Deposit} {t : DepositTransaction}
    {now : Time} {ok : Bool} (hTx : s.creditPendingDepositTx service d t now = some (s', ok)) :
    s.credits <+: s'.credits := by
  simp only [creditPendingDepositTx] at hTx
  split at hTx
  · cases hTx
    exact prefix_of_eq rfl
  · rename_i s₂ hClaim
    simp only [Option.bind_eq_bind, Option.bind_eq_some_iff, Option.pure_def, Option.some.injEq,
      Prod.mk.injEq] at hTx
    obtain ⟨s₃, hCredit, s₄, hComplete, rfl, -⟩ := hTx
    have hBefore := (credits_findOrCreateWallet d.userId).trans
      (credits_of_money (money_claimDeposit hClaim))
    exact prefix_of_credit hBefore hCredit (credits_of_money (money_completeTransaction hComplete))

theorem prefix_creditPendingTransactionTx {service : Service} {t : DepositTransaction} {ok : Bool}
    (hTx : s.creditPendingTransactionTx service t = some (s', ok)) : s.credits <+: s'.credits := by
  unfold creditPendingTransactionTx at hTx
  split at hTx
  · cases hTx
    exact prefix_of_eq rfl
  · rename_i s₁ walletId hWallet
    have hFound := credits_transactionWallet hWallet
    split at hTx
    · cases hTx
      exact prefix_of_eq hFound
    · split at hTx
      · cases hTx
        exact prefix_of_eq hFound
      · simp only [Option.bind_eq_bind, Option.bind_eq_some_iff, Option.pure_def,
          Option.some.injEq, Prod.mk.injEq] at hTx
        obtain ⟨s₂, hComplete, s₃, hCredit, rfl, -⟩ := hTx
        have hCompleted := credits_of_money (money_updateTransaction hComplete)
        exact prefix_of_credit (hCompleted.trans hFound) hCredit rfl

theorem prefix_finalizeMerchantQrTx {rule : FeeRule} {d : Deposit} {t : DepositTransaction}
    {merchantId : ℕ} {now : Time} {ok : Bool}
    (hTx : s.finalizeMerchantQrTx rule d t merchantId now = some (s', ok)) :
    s.credits <+: s'.credits := by
  simp only [finalizeMerchantQrTx, Option.bind_eq_bind, Option.bind_eq_some_iff,
    Option.ite_none_right_eq_some] at hTx
  obtain ⟨userId, -, walletId, -, platform, -, -, hTx⟩ := hTx
  split at hTx
  · cases hTx
    exact prefix_of_eq rfl
  · rename_i s₂ hClaim
    simp only [Option.bind_eq_some_iff, Option.pure_def, Option.some.injEq, Prod.mk.injEq] at hTx
    obtain ⟨s₃, hCredit, bank, -, s₄, hComplete, rfl, -⟩ := hTx
    have hAfter := credits_of_money (money_updateTransaction hComplete)
    exact prefix_of_credit (credits_of_money (money_claimDeposit hClaim)) hCredit hAfter

end Operations

end Store

section Runs
variable {o : Outcome} {start s s' : Store} {call call' : Call}

/-- A call that has not decided to settle moves no money. -/
theorem money_of_step (hQuiet : call.settling = false) (hStep : step o s call = some (s', call')) :
    s'.money = s.money := by
  cases call with
  | finalize service => cases hStep; rfl
  | readTransaction service deposit =>
    simp only [step, Option.bind_eq_bind, Option.bind_eq_some_iff] at hStep
    obtain ⟨t, -, hStep⟩ := hStep
    cases service <;> cases hStep <;> rfl
  | verify deposit t =>
    simp only [step] at hStep
    split at hStep <;> cases hStep <;> rfl
  | completePendingTransaction t =>
    simp only [step] at hStep
    split at hStep <;> cases hStep <;> rfl
  | receiverWallet userId => cases hStep; rfl
  | completeUpdate receiver =>
    simp only [step, Option.bind_eq_bind, Option.bind_eq_some_iff, Option.pure_def,
      Option.some.injEq, Prod.mk.injEq] at hStep
    obtain ⟨s₁, hUpdate, rfl, rfl⟩ := hStep
    exact Store.money_updateTransaction hUpdate
  | failDeposit reason => cases hStep; rfl
  | failReadTransaction reason deposit =>
    simp only [step] at hStep
    split at hStep <;> cases hStep <;> rfl
  | failDepositTx reason deposit transaction =>
    simp only [step, Option.bind_eq_bind, Option.bind_eq_some_iff, Option.pure_def,
      Option.some.injEq, Prod.mk.injEq] at hStep
    obtain ⟨s₁, hTx, rfl, rfl⟩ := hStep
    exact Store.money_failDepositTx hTx
  | nowpaymentsFailure =>
    simp only [step] at hStep
    split at hStep
    · cases hStep
      rfl
    · split at hStep <;> cases hStep <;> rfl
  | nowpaymentsMetadata metadata =>
    simp only [step, Option.bind_eq_bind, Option.bind_eq_some_iff, Option.pure_def,
      Option.some.injEq, Prod.mk.injEq] at hStep
    obtain ⟨s₁, hUpdate, rfl, rfl⟩ := hStep
    exact Store.money_updateTransaction hUpdate
  | nowpaymentsFailureTx => cases hStep; rfl
  | staleTransactions =>
    simp only [step] at hStep
    split at hStep <;> cases hStep <;> rfl
  | stalePendingDeposit =>
    simp only [step] at hStep
    split at hStep <;> cases hStep <;> rfl
  | deletePending id =>
    simp only [step] at hStep
    split at hStep <;> cases hStep
    · rfl
    · cases hDelete : s.deletePendingTx id with
      | none => rfl
      | some s₁ => exact Store.money_deletePendingTx hDelete
  | staleFailedDeposits =>
    simp only [step] at hStep
    split at hStep <;> cases hStep <;> rfl
  | deleteFailed id =>
    simp only [step] at hStep
    split at hStep <;> cases hStep
    · rfl
    · cases hDelete : s.deleteFailed id with
      | none => rfl
      | some s₁ => exact Store.money_deleteFailed hDelete
  | done answer => cases hStep
  | _ => cases hQuiet

/-- Whatever a call does next, it pays a wallet nothing but what it records as a credit. -/
theorem accounts_of_step (h : Store.Accounts start s) (hStep : step o s call = some (s', call')) :
    Store.Accounts start s' := by
  cases hSettling : call.settling with
  | false => exact h.of_money (money_of_step hSettling hStep)
  | true =>
    cases call with
    | rebuild service userId t =>
      simp only [step] at hStep
      split at hStep <;> cases hStep
      exact h.of_money rfl
    | finalizePendingDeposit service d t =>
      simp only [step, Option.bind_eq_bind, Option.bind_eq_some_iff, Option.pure_def,
        Option.some.injEq, Prod.mk.injEq] at hStep
      obtain ⟨⟨s₁, ok⟩, hTx, rfl, rfl⟩ := hStep
      exact Store.accounts_finalizePendingDepositTx h hTx
    | creditPendingDeposit service d t =>
      simp only [step] at hStep
      split at hStep
      · simp only [Option.bind_eq_bind, Option.bind_eq_some_iff, Option.pure_def,
          Option.some.injEq, Prod.mk.injEq] at hStep
        obtain ⟨⟨s₁, ok⟩, hTx, rfl, rfl⟩ := hStep
        exact Store.accounts_creditPendingDepositTx h hTx
      · cases hStep
        exact h
    | creditPendingTransaction service =>
      simp only [step] at hStep
      split at hStep
      · cases hStep
        exact h
      · split_ifs at hStep <;> cases hStep <;> exact h
    | creditPendingTransactionTx service t =>
      simp only [step, Option.bind_eq_bind, Option.bind_eq_some_iff, Option.pure_def,
        Option.some.injEq, Prod.mk.injEq] at hStep
      obtain ⟨⟨s₁, ok⟩, hTx, rfl, rfl⟩ := hStep
      exact Store.accounts_creditPendingTransactionTx h hTx
    | finalizeMerchantQr d t =>
      simp only [step, Option.bind_eq_bind, Option.bind_eq_some_iff, Option.pure_def,
        Option.some.injEq, Prod.mk.injEq] at hStep
      obtain ⟨merchantId, -, ⟨s₁, ok⟩, hTx, rfl, rfl⟩ := hStep
      exact Store.accounts_finalizeMerchantQrTx h hTx
    | _ => cases hSettling

theorem prefix_of_step (hStep : step o s call = some (s', call')) : s.credits <+: s'.credits := by
  cases hSettling : call.settling with
  | false => exact Store.prefix_of_eq (Store.credits_of_money (money_of_step hSettling hStep))
  | true =>
    cases call with
    | rebuild service userId t =>
      simp only [step] at hStep
      split at hStep <;> cases hStep
      exact Store.prefix_of_eq rfl
    | finalizePendingDeposit service d t =>
      obtain ⟨r, hTx, hStep⟩ := Option.bind_eq_some_iff.mp hStep
      cases hStep
      exact Store.prefix_finalizePendingDepositTx hTx
    | creditPendingDeposit service d t =>
      simp only [step] at hStep
      split at hStep
      · obtain ⟨r, hTx, hStep⟩ := Option.bind_eq_some_iff.mp hStep
        cases hStep
        exact Store.prefix_creditPendingDepositTx hTx
      · cases hStep
        exact Store.prefix_of_eq rfl
    | creditPendingTransaction service =>
      simp only [step] at hStep
      split at hStep
      · cases hStep
        exact Store.prefix_of_eq rfl
      · split_ifs at hStep <;> cases hStep <;> exact Store.prefix_of_eq rfl
    | creditPendingTransactionTx service t =>
      obtain ⟨r, hTx, hStep⟩ := Option.bind_eq_some_iff.mp hStep
      cases hStep
      exact Store.prefix_creditPendingTransactionTx hTx
    | finalizeMerchantQr d t =>
      obtain ⟨merchantId, -, hStep⟩ := Option.bind_eq_some_iff.mp hStep
      obtain ⟨r, hTx, hStep⟩ := Option.bind_eq_some_iff.mp hStep
      cases hStep
      exact Store.prefix_finalizeMerchantQrTx hTx
    | _ => cases hSettling

/-- Before anything is credited, and with no row where the next wallet goes. -/
theorem accounts_start (hCredits : start.credits = [])
    (hUnused : ∀ id, start.nextWalletId ≤ id → start.bank.wallets id = none) :
    Store.Accounts start start :=
  ⟨rfl, hUnused, fun id _ => by simp [Store.creditedTo, hCredits]⟩

theorem accounts_of_reaches {ok : Guard Store Call Outcome} {c : Config Store Call}
    (hStart : Store.Accounts start start) (h : program.Reaches ok (Program.idle start) c) :
    Store.Accounts start c.store := by
  refine h.store_invariant (Store.Accounts start) hStart ?_
  intro outcome store store' call call' hBefore _ hStep
  exact accounts_of_step hBefore hStep

end Runs

end FarmBackend.Deposits
