import FarmBackend.AccountDeletion

/-!
# Money in the wallets of deleted users

What a commit pays names every wallet that it can fill. So where no deletion finds money in an active
wallet of its user, and nothing is paid to a deleted user, the active wallets of deleted users are
empty in every state of a run.
-/

namespace FarmBackend.AccountDeletion
open Decimal Fees Wallets Interleaving
open ChainLegs (LedgerOp)
open Escrow (EscrowContract EscrowDb)
open Withdrawals (Withdrawal WithdrawDb WithdrawalTransaction)

set_option autoImplicit false

theorem toUnits_add_nonpos {n : ℤ} {x : ℚ} (hn : n ≤ 0) (hx : toUnits x ≤ 0) :
    toUnits (toNumber n + x) ≤ 0 := by
  have hLe : toNumber n + x ≤ x := by
    have hNumber : toNumber n ≤ 0 := by
      have hZero := value_zero 8
      rw [← hZero]
      exact value_le_value.mpr hn
    linarith
  exact (column_mono hLe).trans hx

theorem toUnits_sub_nonpos {n : ℤ} {x : ℚ} (hn : n ≤ 0) (hx : 0 ≤ x) :
    toUnits (toNumber n - x) ≤ 0 := by
  have hLe : toNumber n - x ≤ toNumber n := by linarith
  have hUnits : toUnits (toNumber n - x) ≤ toUnits (toNumber n) := column_mono hLe
  rw [toUnits_toNumber] at hUnits
  exact hUnits.trans hn

/-- Whether a wallet is empty, and what keeps one so. -/
def Empty (w : Wallet) : Prop := w.balance ≤ 0 ∧ w.lockedBalance ≤ 0

theorem empty_incrementBalance {x : ℚ} (hx : toUnits x ≤ 0) {w : Wallet} (h : Empty w) :
    Empty (w.incrementBalance x) := ⟨toUnits_add_nonpos h.1 hx, h.2⟩

theorem empty_decrementBalance {x : ℚ} (hx : 0 ≤ x) {w : Wallet} (h : Empty w) :
    Empty (w.decrementBalance x) := ⟨toUnits_sub_nonpos h.1 hx, h.2⟩

theorem empty_incrementLocked {x : ℚ} (hx : toUnits x ≤ 0) {w : Wallet} (h : Empty w) :
    Empty (w.incrementLocked x) := ⟨h.1, toUnits_add_nonpos h.2 hx⟩

theorem empty_decrementLocked {x : ℚ} (hx : 0 ≤ x) {w : Wallet} (h : Empty w) :
    Empty (w.decrementLocked x) := ⟨h.1, toUnits_sub_nonpos h.2 hx⟩

theorem empty_unlock {x : ℚ} (hx : 0 ≤ x) {w : Wallet} (h : Empty w) :
    Empty (Withdrawals.unlock x w) := by
  refine ⟨h.1, ?_⟩
  have hLocked : toNumber w.lockedBalance ≤ 0 := by
    have hZero := value_zero 8
    rw [← hZero]
    exact value_le_value.mpr h.2
  have hMax : max (toNumber w.lockedBalance - x) 0 = 0 := max_eq_right (by linarith)
  have hUnits : toUnits (0 : ℚ) = 0 := by
    have hColumn := column_value 8 0
    rwa [value_zero] at hColumn
  rw [Withdrawals.unlock, hMax, hUnits]

/-- An empty wallet stays empty unless it is paid a positive amount. -/
def KeepsEmpty (payments : List Payment) (b b' : Bank) : Prop :=
  ∀ id, EmptyAt b id → (∀ p ∈ payments, p.1 = id → toUnits p.2 ≤ 0) → EmptyAt b' id

section Banks
variable {b b' b'' : Bank} {p q : List Payment}

theorem emptyAt_congr {id : WalletId} (h : b'.wallets id = b.wallets id) :
    EmptyAt b' id ↔ EmptyAt b id := by
  simp only [EmptyAt, Bank.balanceOf, Bank.lockedOf, h]

theorem KeepsEmpty.of_wallets (h : b'.wallets = b.wallets) : KeepsEmpty p b b' := by
  intro id hEmpty _
  exact (emptyAt_congr (congrFun h id)).mpr hEmpty

theorem KeepsEmpty.refl (b : Bank) : KeepsEmpty p b b := .of_wallets rfl

theorem KeepsEmpty.trans (h : KeepsEmpty p b b') (h' : KeepsEmpty q b' b'') :
    KeepsEmpty (p ++ q) b b'' := by
  intro id hEmpty hPaid
  have hMiddle : EmptyAt b' id := by
    apply h id hEmpty
    intro x hMem
    exact hPaid x (List.mem_append_left q hMem)
  apply h' id hMiddle
  intro x hMem
  exact hPaid x (List.mem_append_right p hMem)

theorem KeepsEmpty.then_wallets (h : KeepsEmpty p b b') (hWallets : b''.wallets = b'.wallets) :
    KeepsEmpty p b b'' := by
  intro id hEmpty hPaid
  exact (emptyAt_congr (congrFun hWallets id)).mpr (h id hEmpty hPaid)

theorem keepsEmpty_walletsUpdate {id : WalletId} {f : Wallet → Wallet}
    (hf : (∀ x ∈ p, x.1 = id → toUnits x.2 ≤ 0) → ∀ w, Empty w → Empty (f w))
    (h : b.walletsUpdate id f = some b') : KeepsEmpty p b b' := by
  intro other hEmpty hPaid
  obtain ⟨w, hRow, hBalance⟩ := Bank.balanceOf_walletsUpdate h
  obtain ⟨w', hRow', hLocked⟩ := Bank.lockedOf_walletsUpdate h
  obtain rfl : w = w' := Option.some.inj (hRow.symm.trans hRow')
  unfold EmptyAt
  rw [hBalance, hLocked]
  by_cases hId : other = id
  · subst hId
    rw [if_pos rfl, if_pos rfl]
    have hBefore : Empty w := by
      rw [EmptyAt, Bank.balanceOf_eq hRow, Bank.lockedOf_eq hRow] at hEmpty
      exact hEmpty
    exact hf hPaid w hBefore
  · rw [if_neg hId, if_neg hId]
    exact hEmpty

theorem keepsEmpty_drained {id : WalletId} {f : Wallet → Wallet}
    (hf : ∀ w, Empty w → Empty (f w)) (h : b.walletsUpdate id f = some b') :
    KeepsEmpty [] b b' := keepsEmpty_walletsUpdate (fun _ => hf) h

theorem keepsEmpty_credited {id : WalletId} {x : ℚ}
    (h : b.walletsUpdate id (Wallet.incrementBalance x) = some b') :
    KeepsEmpty [(id, x)] b b' := by
  refine keepsEmpty_walletsUpdate ?_ h
  intro hPaid w hEmpty
  exact empty_incrementBalance (hPaid (id, x) List.mem_cons_self rfl) hEmpty

theorem keepsEmpty_creditPlatformInTx {fee : ℚ} {transactionId : Option ℕ}
    (h : b.creditPlatformInTx fee transactionId = some b') :
    KeepsEmpty (feePayments b.platform fee) b b' := by
  unfold Bank.creditPlatformInTx at h
  split at h
  · rename_i hFee
    split at h
    · cases h
    · rename_i walletId hPlatform
      simp only [Bank.creditWalletInTx, if_pos hFee, Option.bind_eq_bind, Option.bind_eq_some_iff,
        Option.pure_def, Option.some.injEq] at h
      obtain ⟨b₁, hCredit, rfl⟩ := h
      rw [hPlatform]
      exact (keepsEmpty_credited hCredit).then_wallets rfl
  · cases h
    exact .refl b

end Banks

section Escrows
variable {db db' : EscrowDb} {rules : FeeRules} {now : Time}

theorem keepsEmpty_payRelease {bank bank' : Bank} {escrowId : ℕ}
    {buyerWalletId sellerWalletId : WalletId} {amount : ℚ} (hAmount : 0 ≤ amount)
    (h : EscrowDb.payRelease escrowId buyerWalletId sellerWalletId amount
      (feeFor rules .escrowRelease amount 2)
      (toFixed 8 (amount - feeFor rules .escrowRelease amount 2)) now bank = some bank') :
    KeepsEmpty (releasePayments rules bank.platform (some sellerWalletId) amount) bank bank' := by
  simp only [EscrowDb.payRelease, EscrowDb.creditSuperadminWalletInTx, Option.bind_eq_bind,
    Option.bind_eq_some_iff] at h
  obtain ⟨bank₁, hBuyer, bank₂, hSeller, hFee⟩ := h
  have hDebit : KeepsEmpty [] bank bank₁ := by
    refine keepsEmpty_drained ?_ hBuyer
    intro w hEmpty
    exact empty_decrementBalance hAmount (empty_decrementLocked hAmount hEmpty)
  have hCredit := keepsEmpty_credited hSeller
  have hPlatform : bank₂.platform = bank.platform :=
    (Bank.rest_walletsUpdate hSeller).1.trans (Bank.rest_walletsUpdate hBuyer).1
  have hBooks := keepsEmpty_creditPlatformInTx hFee
  simp only [Bank.platform_ledgerCreate, Bank.platform_transactionsCreate, hPlatform] at hBooks
  exact hDebit.trans (hCredit.trans hBooks)

theorem keepsEmpty_createTx {buyerId : UserId} {dto : Escrow.CreateDto} {buyerWalletId : WalletId}
    {sellerId : UserId} {sellerWalletId : WalletId} {fee : ℚ} {autoReleaseAt : Time} (hFee : 0 ≤ fee)
    (h : db.createTx buyerId dto buyerWalletId sellerId sellerWalletId fee autoReleaseAt now =
      some db') :
    KeepsEmpty ([(buyerWalletId, dto.amount)] ++ feePayments db.bank.platform fee)
      db.bank db'.bank := by
  simp only [EscrowDb.createTx, EscrowDb.creditSuperadminWalletInTx, Option.bind_eq_bind,
    Option.bind_eq_some_iff] at h
  obtain ⟨wallet, -, h⟩ := h
  split at h
  · cases h
  · simp only [Option.bind_eq_some_iff, Option.pure_def, Option.some.injEq] at h
    obtain ⟨bank₁, hBuyer, bank₂, hPlatform, rfl⟩ := h
    have hLock : KeepsEmpty [(buyerWalletId, dto.amount)] db.bank bank₁ := by
      refine keepsEmpty_walletsUpdate ?_ hBuyer
      intro hPaid w hEmpty
      have hAmount := hPaid _ List.mem_cons_self rfl
      exact empty_incrementLocked hAmount (empty_decrementBalance hFee hEmpty)
    have hBooks := keepsEmpty_creditPlatformInTx hPlatform
    rw [Bank.platform_transactionsCreate, (Bank.rest_walletsUpdate hBuyer).1] at hBooks
    exact hLock.trans hBooks

theorem remainingAmount_nonneg (amount releasedAmount : ℤ) :
    0 ≤ Escrow.remainingAmount amount releasedAmount := by
  rw [Escrow.remainingAmount_eq]
  exact value_nonneg.mpr (le_max_left _ _)

theorem keepsEmpty_releasePartial {escrowId : ℕ} {escrow : EscrowContract} {buyerId : UserId}
    {amount part : ℚ} (hPart : EscrowDb.releasePartialChecks escrow buyerId amount = some part)
    (h : db.releasePartialTx rules escrowId escrow part now = some db') :
    KeepsEmpty (releasePayments rules db.bank.platform escrow.sellerWalletId (toFixed 2 amount))
      db.bank db'.bank := by
  simp only [EscrowDb.releasePartialChecks, Option.ite_none_right_eq_some, Option.some.injEq]
    at hPart
  obtain ⟨⟨hPos, -⟩, rfl⟩ := hPart
  simp only [EscrowDb.releasePartialTx, Option.bind_eq_bind, Option.bind_eq_some_iff] at h
  obtain ⟨buyerWalletId, -, sellerWalletId, hSeller, row, -, h⟩ := h
  split at h
  · simp only [Option.bind_eq_some_iff, Option.pure_def, Option.some.injEq] at h
    obtain ⟨bank, hPay, rfl⟩ := h
    rw [hSeller]
    exact keepsEmpty_payRelease hPos.le hPay
  · cases h

theorem keepsEmpty_executeRelease {escrowId : ℕ} {escrow : EscrowContract} {resolution : Bool}
    (h : db.executeRelease rules escrowId escrow resolution now = some db') :
    KeepsEmpty (ledgerPayments rules db (.executeRelease escrowId escrow resolution))
      db.bank db'.bank := by
  simp only [EscrowDb.executeRelease, Option.bind_eq_bind, Option.bind_eq_some_iff] at h
  obtain ⟨buyerWalletId, -, sellerWalletId, hSeller, h⟩ := h
  split at h
  · cases h
  · simp only [Option.bind_eq_some_iff] at h
    obtain ⟨fresh, hFresh, h⟩ := h
    split at h
    · split at h
      · cases h
        exact .refl _
      · simp only [Option.bind_eq_some_iff, Option.pure_def, Option.some.injEq] at h
        obtain ⟨bank, hPay, rfl⟩ := h
        simp only [ledgerPayments, hFresh, hSeller]
        exact keepsEmpty_payRelease (remainingAmount_nonneg _ _) hPay
    · cases h

theorem keepsEmpty_executeRefund {escrowId : ℕ} {escrow : EscrowContract} {resolution : Bool}
    (h : db.executeRefund escrowId escrow resolution now = some db') :
    KeepsEmpty [] db.bank db'.bank := by
  simp only [EscrowDb.executeRefund, Option.bind_eq_bind, Option.bind_eq_some_iff] at h
  obtain ⟨fresh, -, h⟩ := h
  split at h
  · simp only [Option.bind_eq_some_iff, Option.pure_def, Option.some.injEq] at h
    obtain ⟨buyerWalletId, -, bank, hUnlock, rfl⟩ := h
    have hDrained : KeepsEmpty [] db.bank bank := by
      refine keepsEmpty_drained ?_ hUnlock
      intro w hEmpty
      exact empty_decrementLocked (remainingAmount_nonneg _ _) hEmpty
    exact hDrained.then_wallets rfl
  · cases h

end Escrows

section Ledger
variable {bank bank' : Bank} {now : Time}

theorem keepsEmpty_sendFundsTx {senderWalletId receiverWalletId : WalletId}
    {amount fee merchantFee : ℚ} (hTotal : 0 ≤ SendFunds.totalOut amount fee)
    (h : SendFunds.sendFundsTx senderWalletId receiverWalletId amount fee merchantFee now bank =
      some bank') :
    KeepsEmpty ([(receiverWalletId, SendFunds.receiverCredit amount merchantFee)] ++
      feePayments bank.platform merchantFee ++ feePayments bank.platform fee) bank bank' := by
  simp only [SendFunds.sendFundsTx, Option.bind_eq_bind, Option.bind_eq_some_iff] at h
  obtain ⟨bank₁, hSender, bank₂, hReceiver, bank₃, hMerchant, hFee⟩ := h
  have hDebit := keepsEmpty_drained (fun w => empty_decrementBalance hTotal) hSender
  have hCredit := keepsEmpty_credited hReceiver
  have hPlatform : bank₂.platform = bank.platform :=
    (Bank.rest_walletsUpdate hReceiver).1.trans (Bank.rest_walletsUpdate hSender).1
  have hMerchantBooks := keepsEmpty_creditPlatformInTx hMerchant
  have hFeeBooks := keepsEmpty_creditPlatformInTx hFee
  rw [(Bank.rest_creditPlatformInTx hMerchant).1] at hFeeBooks
  simp only [Bank.platform_ledgerCreate, hPlatform] at hMerchantBooks hFeeBooks
  exact hDebit.trans ((hCredit.trans hMerchantBooks).trans hFeeBooks)

theorem keepsEmpty_acceptTx {requestId : ℕ} {payerWalletId requesterWalletId : WalletId}
    {amount : ℤ} {fee : ℚ} (hTotal : 0 ≤ toNumber amount + fee)
    (h : MoneyRequests.acceptTx requestId payerWalletId requesterWalletId amount fee now bank =
      some bank') :
    KeepsEmpty [(requesterWalletId, toNumber amount)] bank bank' := by
  simp only [MoneyRequests.acceptTx, Option.bind_eq_bind, Option.bind_eq_some_iff, Option.pure_def,
    Option.some.injEq] at h
  obtain ⟨bank₁, hPayer, bank₂, hRequester, rfl⟩ := h
  have hDebit := keepsEmpty_drained (fun w => empty_decrementBalance hTotal) hPayer
  have hCredit := keepsEmpty_credited hRequester
  exact (hDebit.trans hCredit).then_wallets rfl

theorem keepsEmpty_ledger {rules : FeeRules} {db db' : EscrowDb} {op : LedgerOp}
    (h : op.commit rules now db = some db') :
    KeepsEmpty (ledgerPayments rules db op) db.bank db'.bank := by
  cases op with
  | sendFunds senderWalletId receiverWalletId amount isMerchant =>
    simp only [LedgerOp.commit, Option.ite_none_right_eq_some, Option.map_eq_some_iff] at h
    obtain ⟨hAmount, bank, hSend, rfl⟩ := h
    have hFee := computeFee_nonneg (rules .transfer) amount 8
    exact keepsEmpty_sendFundsTx (add_nonneg hAmount.le hFee) hSend
  | acceptAndTransfer requestId payerWalletId requesterWalletId amount =>
    simp only [LedgerOp.commit, Option.ite_none_right_eq_some, Option.map_eq_some_iff] at h
    obtain ⟨hAmount, bank, hAccept, rfl⟩ := h
    have hFee := computeFee_nonneg (rules .transfer) (toNumber amount) 8
    exact keepsEmpty_acceptTx (add_nonneg (value_nonneg.mpr hAmount.le) hFee) hAccept
  | create buyerId dto buyerWalletId sellerId sellerWalletId =>
    simp only [LedgerOp.commit, Option.ite_none_right_eq_some] at h
    exact keepsEmpty_createTx (computeFee_nonneg _ _ _) h.2
  | releasePartial escrowId escrow buyerId amount =>
    simp only [LedgerOp.commit, Option.bind_eq_bind, Option.bind_eq_some_iff] at h
    obtain ⟨part, hPart, hRelease⟩ := h
    exact keepsEmpty_releasePartial hPart hRelease
  | executeRelease escrowId escrow resolution => exact keepsEmpty_executeRelease h
  | executeRefund escrowId escrow resolution => exact keepsEmpty_executeRefund h

end Ledger

section Withdrawing
variable {db db' : WithdrawDb} {withdrawal : Withdrawal} {transaction : WithdrawalTransaction}
  {reference : ℕ} {walletId : WalletId} {claimed : Bool}

theorem keepsEmpty_lockFundsInTx {userId : UserId} {amount : ℚ} {limits : Withdrawals.DailyLimits}
    {now : Time} (h : db.lockFundsInTx walletId userId amount limits now = some db') :
    KeepsEmpty [(walletId, amount)] db.bank db'.bank := by
  simp only [WithdrawDb.lockFundsInTx, Option.bind_eq_bind, Option.bind_eq_some_iff] at h
  obtain ⟨wallet, -, h⟩ := h
  split at h
  · simp only [Option.bind_eq_some_iff, Option.pure_def, Option.some.injEq] at h
    obtain ⟨bank, hLock, rfl⟩ := h
    refine keepsEmpty_walletsUpdate ?_ hLock
    intro hPaid w hEmpty
    exact empty_incrementLocked (hPaid _ List.mem_cons_self rfl) hEmpty
  · cases h

theorem keepsEmpty_markAsSuccessTx (hAmount : 0 ≤ withdrawal.amount)
    (h : db.markAsSuccessTx reference withdrawal transaction walletId = some (db', claimed)) :
    KeepsEmpty (feePayments db.bank.platform withdrawal.fee) db.bank db'.bank := by
  simp only [WithdrawDb.markAsSuccessTx, Option.bind_eq_bind, Option.bind_eq_some_iff] at h
  obtain ⟨row, -, h⟩ := h
  split at h
  · simp only [Option.bind_eq_some_iff] at h
    obtain ⟨wallet, -, h⟩ := h
    split at h
    · simp only [Option.bind_eq_some_iff, Option.pure_def, Option.some.injEq, Prod.mk.injEq] at h
      obtain ⟨bank₁, hDebit, bank₂, hFee, rfl, -⟩ := h
      have hDrained : KeepsEmpty [] db.bank bank₁ := by
        refine keepsEmpty_drained ?_ hDebit
        intro w hEmpty
        exact empty_decrementBalance hAmount (empty_unlock hAmount hEmpty)
      have hBooks := keepsEmpty_creditPlatformInTx hFee
      rw [Bank.platform_ledgerCreate, (Bank.rest_walletsUpdate hDebit).1] at hBooks
      exact hDrained.trans hBooks
    · cases h
  · cases h
    exact .refl _

theorem keepsEmpty_rejectWithdrawalTx (hAmount : 0 ≤ withdrawal.amount)
    (h : db.rejectWithdrawalTx reference withdrawal transaction walletId = some (db', claimed)) :
    KeepsEmpty [] db.bank db'.bank := by
  simp only [WithdrawDb.rejectWithdrawalTx, Option.bind_eq_bind, Option.bind_eq_some_iff] at h
  obtain ⟨row, -, h⟩ := h
  split at h
  · simp only [Option.bind_eq_some_iff, Option.pure_def, Option.some.injEq, Prod.mk.injEq] at h
    obtain ⟨bank, hUnlock, rfl, -⟩ := h
    exact keepsEmpty_drained (fun w => empty_unlock hAmount) hUnlock
  · cases h
    exact .refl _

end Withdrawing

section Money
variable {bcrypt : Bcrypt} {s s' : Store bcrypt} {o : Outcome}

/-- What a step leaves of the deleted users and their wallets. -/
structure Follows (payments : List Payment) (s s' : Store bcrypt) : Prop where
  users : s'.users = s.users
  activeWallets : s'.activeWallets = s.activeWallets
  wallets : KeepsEmpty payments s.bank s'.bank

theorem follows_setEscrowDb {db : EscrowDb} {p : List Payment}
    (h : KeepsEmpty p s.bank db.bank) : Follows p s (s.setEscrowDb db) :=
  ⟨rfl, rfl, h.then_wallets rfl⟩

theorem follows_setWithdrawDb {db : WithdrawDb} {p : List Payment}
    (h : KeepsEmpty p s.bank db.bank) : Follows p s (s.setWithdrawDb db) :=
  ⟨rfl, rfl, h.then_wallets rfl⟩

theorem follows_commit {op : MoneyOp} (h : op.commit o s = some s') :
    Follows (op.payments o s) s s' := by
  cases op with
  | ledger op =>
    simp only [MoneyOp.commit, Option.map_eq_some_iff] at h
    obtain ⟨db, hCommit, rfl⟩ := h
    exact follows_setEscrowDb (keepsEmpty_ledger hCommit)
  | dispute escrowId =>
    simp only [MoneyOp.commit, EscrowDb.disputeTx, Option.map_eq_some_iff, Option.bind_eq_bind,
      Option.bind_eq_some_iff] at h
    obtain ⟨db, ⟨row, -, hDispute⟩, rfl⟩ := h
    split at hDispute
    · cases hDispute
      exact follows_setEscrowDb (.refl _)
    · cases hDispute
  | createWithdrawal new =>
    simp only [MoneyOp.commit, Option.ite_none_right_eq_some, Option.map_eq_some_iff] at h
    obtain ⟨-, db, hLock, rfl⟩ := h
    exact follows_setWithdrawDb (keepsEmpty_lockFundsInTx hLock)
  | markAsSuccess reference withdrawal transaction walletId =>
    simp only [MoneyOp.commit, Option.ite_none_right_eq_some, Option.map_eq_some_iff] at h
    obtain ⟨hMinimum, ⟨db, claimed⟩, hSuccess, rfl⟩ := h
    have hAmount : 0 ≤ withdrawal.amount := le_trans (by norm_num [MINIMUM_WITHDRAWAL]) hMinimum
    exact follows_setWithdrawDb (keepsEmpty_markAsSuccessTx hAmount hSuccess)
  | rejectWithdrawal reference withdrawal transaction walletId =>
    simp only [MoneyOp.commit, Option.ite_none_right_eq_some, Option.map_eq_some_iff] at h
    obtain ⟨hMinimum, ⟨db, claimed⟩, hReject, rfl⟩ := h
    have hAmount : 0 ≤ withdrawal.amount := le_trans (by norm_num [MINIMUM_WITHDRAWAL]) hMinimum
    exact follows_setWithdrawDb (keepsEmpty_rejectWithdrawalTx hAmount hReject)
  | openDeposit rows =>
    cases h
    exact ⟨rfl, rfl, .refl _⟩

end Money

section Deposits
variable {d d₁ d₂ d' : Deposits.Store} {p q : List Payment}

/-- What a statement of a deposit leaves of the wallets. -/
structure Keeps (payments : List Payment) (d d' : Deposits.Store) : Prop where
  activeWallet : d'.activeWallet = d.activeWallet
  platform : d'.bank.platform = d.bank.platform
  wallets : KeepsEmpty payments d.bank d'.bank

theorem Keeps.refl (d : Deposits.Store) : Keeps p d d := ⟨rfl, rfl, .refl _⟩

theorem Keeps.trans (h : Keeps p d d₁) (h' : Keeps q d₁ d') : Keeps (p ++ q) d d' :=
  ⟨h'.activeWallet.trans h.activeWallet, h'.platform.trans h.platform, h.wallets.trans h'.wallets⟩

theorem Keeps.idle_then (h : Keeps [] d d₁) (h' : Keeps p d₁ d') : Keeps p d d' := h.trans h'

theorem Keeps.then_idle (h : Keeps p d d₁) (h' : Keeps [] d₁ d') : Keeps p d d' := by
  have hBoth := h.trans h'
  rwa [List.append_nil] at hBoth

theorem keeps_claimDeposit {id : ℕ} {now : Time} (h : d.claimDeposit id now = some d') :
    Keeps p d d' := by
  unfold Deposits.Store.claimDeposit at h
  split at h
  · cases h
  · simp only [Option.ite_none_right_eq_some, Option.some.injEq] at h
    obtain ⟨-, rfl⟩ := h
    exact ⟨rfl, rfl, .refl _⟩

theorem keeps_updateTransaction {f : Deposits.DepositTransaction → Deposits.DepositTransaction}
    (h : d.updateTransaction f = some d') : Keeps p d d' := by
  unfold Deposits.Store.updateTransaction at h
  split at h <;> cases h
  exact ⟨rfl, rfl, .refl _⟩

theorem keeps_completeTransaction {read : Deposits.DepositTransaction} {receiver : Option WalletId}
    (h : d.completeTransaction read receiver = some d') : Keeps p d d' := by
  unfold Deposits.Store.completeTransaction at h
  split at h
  · exact keeps_updateTransaction h
  · cases h
    exact .refl _

theorem keeps_paid {walletId : WalletId} {amount : ℚ} {bank : Bank} {entry : LedgerEntry}
    (h : d.bank.walletsUpdate walletId (Wallet.incrementBalance amount) = some bank) :
    Keeps [(walletId, amount)] d { d with bank := bank.ledgerCreate entry } :=
  ⟨rfl, (Bank.rest_walletsUpdate h).1, (keepsEmpty_credited h).then_wallets rfl⟩

theorem keeps_credit {walletId : WalletId} {amount : ℚ} (h : d.credit walletId amount = some d') :
    Keeps [(walletId, amount)] d d' := by
  simp only [Deposits.Store.credit, Option.bind_eq_bind, Option.bind_eq_some_iff, Option.pure_def,
    Option.some.injEq] at h
  obtain ⟨t, -, bank, hUpdate, rfl⟩ := h
  exact ⟨rfl, (Bank.rest_walletsUpdate hUpdate).1, (keepsEmpty_credited hUpdate).then_wallets rfl⟩

theorem keeps_failDepositTx {reason : Option String} {deposit : Option Deposits.Deposit}
    {transaction : Option Deposits.DepositTransaction} {now : Time}
    (h : d.failDepositTx reason deposit transaction now = some d') : Keeps p d d' := by
  simp only [Deposits.Store.failDepositTx, Option.bind_eq_bind, Option.bind_eq_some_iff] at h
  obtain ⟨d₁, hDeposit, hTransaction⟩ := h
  have hFirst : Keeps p d d₁ := by
    unfold Deposits.Store.failReadDeposit at hDeposit
    split at hDeposit
    · cases hDeposit
      exact .refl _
    · unfold Deposits.Store.failDepositRow at hDeposit
      split at hDeposit <;> cases hDeposit
      exact ⟨rfl, rfl, .refl _⟩
  unfold Deposits.Store.failReadTransaction at hTransaction
  split at hTransaction
  · cases hTransaction
    exact hFirst
  · exact hFirst.then_idle (keeps_updateTransaction hTransaction)

section Settlements
variable {service : Deposits.Service} {deposit : Deposits.Deposit} {t : Deposits.DepositTransaction}
  {now : Time} {ok : Bool}

theorem keeps_finalizePendingDepositTx
    (h : d.finalizePendingDepositTx service deposit t now = some (d', ok)) :
    Keeps [((d.findOrCreateWallet deposit.userId).2, Deposits.creditAmount service deposit t)]
      (d.findOrCreateWallet deposit.userId).1 d' := by
  simp only [Deposits.Store.finalizePendingDepositTx] at h
  split at h
  · cases h
    exact .refl _
  · rename_i d₁ hClaim
    simp only [Option.bind_eq_bind, Option.bind_eq_some_iff] at h
    obtain ⟨d₂, hCredit, h⟩ := h
    have hCredited := (keeps_claimDeposit hClaim).idle_then (keeps_credit hCredit)
    split at h
    · cases h
      exact hCredited
    · simp only [Option.bind_eq_some_iff, Option.pure_def, Option.some.injEq, Prod.mk.injEq] at h
      obtain ⟨d₃, hComplete, rfl, -⟩ := h
      exact hCredited.then_idle (keeps_completeTransaction hComplete)

/-- The claim comes before the lookup here, and changes nothing the lookup reads. -/
theorem keeps_creditPendingDepositTx
    (h : d.creditPendingDepositTx service deposit t now = some (d', ok)) :
    Keeps [((d.findOrCreateWallet deposit.userId).2, Deposits.creditAmount service deposit t)] d d' ∨
      Keeps [((d.findOrCreateWallet deposit.userId).2, Deposits.creditAmount service deposit t)]
        (d.findOrCreateWallet deposit.userId).1 d' := by
  simp only [Deposits.Store.creditPendingDepositTx] at h
  split at h
  · cases h
    exact .inl (.refl _)
  · rename_i d₁ hClaim
    simp only [Option.bind_eq_bind, Option.bind_eq_some_iff, Option.pure_def, Option.some.injEq,
      Prod.mk.injEq] at h
    obtain ⟨d₂, hCredit, d₃, hComplete, rfl, -⟩ := h
    have hFound : (d₁.findOrCreateWallet deposit.userId).2 =
          (d.findOrCreateWallet deposit.userId).2 ∧
        Keeps [] (d.findOrCreateWallet deposit.userId).1
          (d₁.findOrCreateWallet deposit.userId).1 := by
      unfold Deposits.Store.claimDeposit at hClaim
      split at hClaim
      · cases hClaim
      · simp only [Option.ite_none_right_eq_some, Option.some.injEq] at hClaim
        obtain ⟨-, rfl⟩ := hClaim
        unfold Deposits.Store.findOrCreateWallet
        dsimp only
        split
        · exact ⟨rfl, rfl, rfl, .refl _⟩
        · exact ⟨rfl, rfl, rfl, .refl _⟩
    have hCredited := keeps_credit hCredit
    rw [hFound.1] at hCredited
    exact .inr ((hFound.2.idle_then hCredited).then_idle (keeps_completeTransaction hComplete))

theorem keeps_creditPendingTransactionTx
    (h : d.creditPendingTransactionTx service t = some (d', ok)) :
    let payments := (d.transactionWallet t).toList.map fun r =>
      (r.2, Deposits.transactionCreditAmount service t)
    Keeps payments d d' ∨ ∃ userId, opensFor d (.creditPendingTransactionTx service t) = some userId ∧
      Keeps payments (d.findOrCreateWallet userId).1 d' := by
  unfold Deposits.Store.creditPendingTransactionTx at h
  split at h
  · cases h
    exact .inl (.refl _)
  · rename_i d₁ walletId hWallet
    have hRest : Keeps [(walletId, Deposits.transactionCreditAmount service t)] d₁ d' := by
      split at h
      · cases h
        exact .refl _
      · split at h
        · cases h
          exact .refl _
        · simp only [Option.bind_eq_bind, Option.bind_eq_some_iff, Option.pure_def,
            Option.some.injEq, Prod.mk.injEq] at h
          obtain ⟨d₂, hComplete, d₃, hCredit, rfl, -⟩ := h
          exact (keeps_updateTransaction hComplete).idle_then (keeps_credit hCredit)
    simp only [hWallet, Option.toList_some, List.map_cons, List.map_nil]
    unfold Deposits.Store.transactionWallet at hWallet
    cases hReceiver : t.receiverWalletId.filter fun id => (d.bank.wallets id).isSome with
    | some id =>
      rw [hReceiver] at hWallet
      cases hWallet
      exact .inl hRest
    | none =>
      rw [hReceiver] at hWallet
      obtain ⟨userId, hUser, hFound⟩ := Option.map_eq_some_iff.mp hWallet
      have hStore : (d.findOrCreateWallet userId).1 = d₁ := by rw [hFound]
      refine .inr ⟨userId, ?_, hStore ▸ hRest⟩
      simp only [opensFor, hReceiver]
      exact hUser

theorem keeps_finalizeMerchantQr {o : Deposits.Outcome} {call : Deposits.Call}
    (h : Deposits.step o d (.finalizeMerchantQr deposit t) = some (d', call)) :
    Keeps (depositPayments o d (.finalizeMerchantQr deposit t)) d d' := by
  simp only [Deposits.step, Deposits.Store.finalizeMerchantQrTx, Option.bind_eq_bind,
    Option.bind_eq_some_iff, Option.ite_none_right_eq_some, Option.pure_def, Option.some.injEq,
    Prod.exists, Prod.mk.injEq] at h
  obtain ⟨merchantId, hMerchant, d₃, ok, ⟨userId, hUser, walletId, hWallet, platform, hPlatform, -,
    h⟩, rfl, -⟩ := h
  simp only [depositPayments, hMerchant, hUser, hWallet, hPlatform, feePayments, Option.bind_some,
    Option.toList_some, List.map_cons, List.map_nil]
  split at h
  · cases h
    exact .refl _
  · rename_i d₁ hClaim
    simp only [Option.bind_eq_some_iff, Option.some.injEq, Prod.mk.injEq] at h
    obtain ⟨d₂, hCredit, bank, hFee, d₄, hComplete, rfl, -⟩ := h
    have hCredited := (keeps_claimDeposit hClaim).idle_then (keeps_credit hCredit)
    exact (hCredited.trans (keeps_paid hFee)).then_idle (keeps_updateTransaction hComplete)

end Settlements

/-- A step that settles nothing. -/
theorem keeps_idleStep {o : Deposits.Outcome} {call call' : Deposits.Call}
    (hSettling : call.settling = false) (h : Deposits.step o d call = some (d', call')) :
    Keeps p d d' := by
  cases call with
  | finalize service => cases h; exact .refl _
  | readTransaction service deposit =>
    simp only [Deposits.step, Option.bind_eq_bind, Option.bind_eq_some_iff] at h
    obtain ⟨t, -, h⟩ := h
    cases service <;> cases h <;> exact .refl _
  | completeUpdate receiver =>
    obtain ⟨d₁, hUpdate, h⟩ := Option.bind_eq_some_iff.mp h
    cases h
    exact keeps_updateTransaction hUpdate
  | failDepositTx reason deposit transaction =>
    obtain ⟨d₁, hFail, h⟩ := Option.bind_eq_some_iff.mp h
    cases h
    exact keeps_failDepositTx hFail
  | nowpaymentsMetadata metadata =>
    obtain ⟨d₁, hUpdate, h⟩ := Option.bind_eq_some_iff.mp h
    cases h
    exact keeps_updateTransaction hUpdate
  | nowpaymentsFailure =>
    simp only [Deposits.step] at h
    split at h
    · cases h
      exact .refl _
    · split at h <;> cases h <;> exact .refl _
  | deletePending id =>
    simp only [Deposits.step] at h
    split at h <;> cases h
    · exact .refl _
    · cases hDelete : d.deletePendingTx id with
      | none => exact .refl _
      | some d₁ =>
        simp only [Deposits.Store.deletePendingTx, Option.bind_eq_bind, Option.bind_eq_some_iff,
          Option.pure_def, Option.some.injEq] at hDelete
        obtain ⟨deposit, -, t, -, rfl⟩ := hDelete
        exact ⟨rfl, rfl, .of_wallets rfl⟩
  | deleteFailed id =>
    simp only [Deposits.step] at h
    split at h <;> cases h
    · exact .refl _
    · cases hDelete : d.deleteFailed id with
      | none => exact .refl _
      | some d₁ =>
        simp only [Deposits.Store.deleteFailed, Option.bind_eq_bind, Option.bind_eq_some_iff,
          Option.pure_def, Option.some.injEq] at hDelete
        obtain ⟨deposit, -, rfl⟩ := hDelete
        exact ⟨rfl, rfl, .refl _⟩
  | verify _ _ | completePendingTransaction _ | failReadTransaction _ _ | staleTransactions
    | stalePendingDeposit | staleFailedDeposits =>
    simp only [Deposits.step] at h
    split at h <;> cases h <;> exact .refl _
  | receiverWallet _ | failDeposit _ | done _ => cases h <;> exact .refl _
  | nowpaymentsFailureTx => cases h; exact ⟨rfl, rfl, .refl _⟩
  | rebuild _ _ _ | finalizePendingDeposit _ _ _ | creditPendingDeposit _ _ _
    | creditPendingTransaction _ | creditPendingTransactionTx _ _ | finalizeMerchantQr _ _ =>
    cases hSettling

/-- A step of a deposit pays what it names, after it has opened the wallet it looks for or without
one. -/
theorem keeps_depositStep {o : Deposits.Outcome} {call call' : Deposits.Call}
    (h : Deposits.step o d call = some (d', call')) :
    Keeps (depositPayments o d call) d d' ∨ ∃ userId, opensFor d call = some userId ∧
      Keeps (depositPayments o d call) (d.findOrCreateWallet userId).1 d' := by
  cases call with
  | finalizePendingDeposit service deposit t =>
    simp only [Deposits.step, Option.bind_eq_bind, Option.bind_eq_some_iff, Option.pure_def,
      Option.some.injEq, Prod.exists, Prod.mk.injEq] at h
    obtain ⟨_, ok, hTx, rfl, -⟩ := h
    exact .inr ⟨deposit.userId, rfl, keeps_finalizePendingDepositTx hTx⟩
  | creditPendingDeposit service deposit t =>
    simp only [Deposits.step] at h
    split at h
    · simp only [Option.bind_eq_bind, Option.bind_eq_some_iff, Option.pure_def, Option.some.injEq,
        Prod.exists, Prod.mk.injEq] at h
      obtain ⟨_, ok, hTx, rfl, -⟩ := h
      rcases keeps_creditPendingDepositTx hTx with hKeeps | hKeeps
      · exact .inl hKeeps
      · exact .inr ⟨deposit.userId, rfl, hKeeps⟩
    · cases h
      exact .inl (.refl _)
  | creditPendingTransactionTx service t =>
    simp only [Deposits.step, Option.bind_eq_bind, Option.bind_eq_some_iff, Option.pure_def,
      Option.some.injEq, Prod.exists, Prod.mk.injEq] at h
    obtain ⟨_, ok, hTx, rfl, -⟩ := h
    exact keeps_creditPendingTransactionTx hTx
  | finalizeMerchantQr deposit t => exact .inl (keeps_finalizeMerchantQr h)
  | rebuild service userId t =>
    simp only [Deposits.step] at h
    split at h <;> cases h
    exact .inl ⟨rfl, rfl, .refl _⟩
  | creditPendingTransaction service =>
    simp only [Deposits.step] at h
    split at h
    · cases h
      exact .inl (.refl _)
    · split_ifs at h <;> cases h <;> exact .inl (.refl _)
  | _ => exact .inl (keeps_idleStep rfl h)

end Deposits

section Runs
variable {bcrypt : Bcrypt} {s s' start : Store bcrypt} {o : Outcome} {call call' : Call}
  {c : Config (Store bcrypt) Call}

theorem Store.NothingStranded.follows {p : List Payment} (h : s.NothingStranded)
    (hFollows : Follows p s s')
    (hPaid : ∀ userId, s.Deleted userId → ∀ x ∈ p, x.1 ∈ s.activeWallets userId →
      toUnits x.2 ≤ 0) : s'.NothingStranded := by
  intro userId hDeleted id hMem
  have hBefore : s.Deleted userId := by
    unfold Store.Deleted at hDeleted ⊢
    rwa [hFollows.users] at hDeleted
  rw [hFollows.activeWallets] at hMem
  apply hFollows.wallets id (h userId hBefore id hMem)
  rintro x hPayment rfl
  exact hPaid userId hBefore x hPayment hMem

section Opening
variable {reference : ℕ} {rows : DepositRows}

theorem follows_setDepositStore {d d' : Deposits.Store} {p : List Payment} (h : Keeps p d d') :
    Follows p (s.setDepositStore reference d) (s.setDepositStore reference d') := by
  refine ⟨rfl, ?_, ?_⟩
  · funext userId
    simp only [Store.setDepositStore, Store.walletsWith, h.activeWallet]
  · intro id hEmpty hPaid
    exact h.wallets id hEmpty hPaid

theorem follows_depositStore :
    Follows [] s (s.setDepositStore reference (s.depositStore rows)) := by
  refine ⟨rfl, ?_, .of_wallets rfl⟩
  funext userId
  simp only [Store.setDepositStore, Store.walletsWith, Store.depositStore, Store.activeWallet]
  split
  · rename_i hNone
    rw [hNone]
    rfl
  · rfl

/-- A wallet that is opened is empty. -/
theorem nothingStranded_open {userId : UserId} (h : s.NothingStranded) :
    (s.setDepositStore reference
      ((s.depositStore rows).findOrCreateWallet userId).1).NothingStranded := by
  unfold Deposits.Store.findOrCreateWallet
  split
  · exact h.follows follows_depositStore (by simp)
  · intro owner hDeleted id hMem
    have hNew : EmptyAt ((s.setDepositStore reference
        ((s.depositStore rows).createWallet userId)).bank) s.nextWalletId := by
      simp [EmptyAt, Bank.balanceOf, Bank.lockedOf, Store.bank, Store.setDepositStore,
        Store.setBank, Deposits.Store.createWallet, Store.depositStore]
    by_cases hId : id = s.nextWalletId
    · rw [hId]
      exact hNew
    · have hOld : id ∈ s.activeWallets owner := by
        simp only [Store.setDepositStore, Store.walletsWith] at hMem
        split at hMem
        · rename_i hNone
          by_cases hOwner : owner = userId
          · subst hOwner
            have hOpened : id = s.nextWalletId := by
              simpa [Deposits.Store.createWallet, Store.depositStore] using hMem
            exact absurd hOpened hId
          · simp [Deposits.Store.createWallet, Store.depositStore, Store.activeWallet, hOwner,
              hNone] at hMem
        · exact hMem
      have hSame : (s.setDepositStore reference
          ((s.depositStore rows).createWallet userId)).bank.wallets id = s.bank.wallets id := by
        simp [Store.bank, Store.setDepositStore, Store.setBank, Deposits.Store.createWallet,
          Store.depositStore, hId]
      exact (emptyAt_congr hSame).mpr (h owner hDeleted id hOld)

theorem nothingStranded_depositStep {deposit deposit' : Deposits.Call} {d' : Deposits.Store}
    (h : s.NothingStranded) (hRows : s.deposits[reference]? = some rows)
    (hHeeds : Heeds o s (.deposit reference deposit))
    (hStep : Deposits.step o.deposit (s.depositStore rows) deposit = some (d', deposit')) :
    (s.setDepositStore reference d').NothingStranded := by
  have hPaid : ∀ userId, s.Deleted userId →
      ∀ x ∈ depositPayments o.deposit (s.depositStore rows) deposit,
        x.1 ∈ (opened s (.deposit reference deposit)).activeWallets userId → toUnits x.2 ≤ 0 := by
    intro userId hDeleted x hPayment hMem
    by_contra hPositive
    refine hHeeds.2 userId hDeleted ⟨x, ?_, by omega, hMem⟩
    simp only [payments, hRows]
    exact hPayment
  have hSame : Follows [] s (s.setDepositStore reference (s.depositStore rows)) :=
    follows_depositStore
  rcases keeps_depositStep hStep with hKeeps | ⟨userId, hOpens, hKeeps⟩
  · have hBefore := h.follows hSame (by simp)
    refine hBefore.follows (follows_setDepositStore hKeeps) ?_
    intro owner hDeleted x hPayment hMem
    apply hPaid owner hDeleted x hPayment
    simp only [opened, hRows]
    split
    · rw [hSame.activeWallets] at hMem
      exact hMem
    · rw [hSame.activeWallets] at hMem
      simp only [Store.setDepositStore, Store.walletsWith, if_neg (List.ne_nil_of_mem hMem)]
      exact hMem
  · refine (nothingStranded_open h).follows (follows_setDepositStore hKeeps) ?_
    intro owner hDeleted x hPayment hMem
    apply hPaid owner hDeleted x hPayment
    simp only [opened, hRows, hOpens]
    exact hMem

end Opening

theorem nothingStranded_updateUser {userId : UserId} {f : User bcrypt → User bcrypt}
    (h : s.NothingStranded) (hEmptied : s.Emptied userId) (hUpdate : s.updateUser userId f = some s') :
    s'.NothingStranded := by
  unfold Store.updateUser at hUpdate
  split at hUpdate
  · cases hUpdate
  · cases hUpdate
    intro other hDeleted
    by_cases hOther : other = userId
    · rw [hOther]
      exact hEmptied
    · obtain ⟨user, hUser, hMark⟩ := hDeleted
      have hSame : s.users[other]? = some user := by
        simpa [List.getElem?_modify, Ne.symm hOther] using hUser
      exact h other ⟨user, hSame, hMark⟩

theorem nothingStranded_step (h : s.NothingStranded) (hHeeds : Heeds o s call)
    (hStep : step o s call = some (s', call')) : s'.NothingStranded := by
  cases call with
  | money op =>
    simp only [step, Option.map_eq_some_iff, Prod.mk.injEq] at hStep
    obtain ⟨_, hCommit, rfl, -⟩ := hStep
    refine h.follows (follows_commit hCommit) ?_
    intro userId hDeleted x hPayment hMem
    by_contra hPositive
    exact hHeeds.2 userId hDeleted ⟨x, hPayment, by omega, hMem⟩
  | deposit reference deposit =>
    simp only [step, Option.bind_eq_bind, Option.bind_eq_some_iff, Option.pure_def,
      Option.some.injEq, Prod.exists, Prod.mk.injEq] at hStep
    obtain ⟨rows, hRows, d', deposit', hDeposit, rfl, -⟩ := hStep
    exact nothingStranded_depositStep h hRows hHeeds hDeposit
  | eraseAccount userId =>
    simp only [step, Option.map_eq_some_iff, Prod.mk.injEq] at hStep
    obtain ⟨_, hUpdate, rfl, -⟩ := hStep
    exact nothingStranded_updateUser h (hHeeds.1 userId rfl) hUpdate
  | markDeleted userId =>
    simp only [step, Option.map_eq_some_iff, Prod.mk.injEq] at hStep
    obtain ⟨_, hUpdate, rfl, -⟩ := hStep
    exact nothingStranded_updateUser h (hHeeds.1 userId rfl) hUpdate
  | eraseAdmin adminId =>
    simp only [step, Option.map_eq_some_iff, Prod.mk.injEq] at hStep
    obtain ⟨_, hUpdate, rfl, -⟩ := hStep
    exact nothingStranded_updateUser h (hHeeds.1 adminId rfl) hUpdate
  | deleteAccount userId dto =>
    simp only [step, Option.bind_eq_bind, Option.bind_eq_some_iff, Option.ite_none_right_eq_some,
      Option.pure_def, Option.some.injEq, Prod.mk.injEq] at hStep
    obtain ⟨user, -, -, rfl, -⟩ := hStep
    exact h
  | deleteUser userId =>
    simp only [step, Option.bind_eq_bind, Option.bind_eq_some_iff, Option.ite_none_left_eq_some,
      Option.pure_def, Option.some.injEq, Prod.mk.injEq] at hStep
    obtain ⟨user, -, -, rfl, -⟩ := hStep
    exact h
  | deleteAdmin adminId =>
    simp only [step, Option.bind_eq_bind, Option.bind_eq_some_iff, Option.ite_none_right_eq_some,
      Option.pure_def, Option.some.injEq, Prod.mk.injEq] at hStep
    obtain ⟨admin, -, -, rfl, -⟩ := hStep
    exact h
  | countWithdrawals _ | countDeposits _ =>
    simp only [step, Option.ite_none_right_eq_some, Option.some.injEq, Prod.mk.injEq] at hStep
    obtain ⟨-, rfl, -⟩ := hStep
    exact h
  | done => cases hStep

/-- Where every deletion finds its user's wallets empty and no commit pays a deleted user, no state of
the run has money in the wallet of a deleted user. -/
theorem nothing_stranded (hStart : start.NothingStranded)
    (h : (program bcrypt).Reaches Heeds (Program.idle start) c) : c.store.NothingStranded := by
  refine h.store_invariant Store.NothingStranded hStart ?_
  intro o s s' call call' hBefore hHeeds hStep
  exact nothingStranded_step hBefore hHeeds hStep

end Runs

def person (role : Role) : User Bcrypt.plain :=
  ⟨"", "", ⟨none, none⟩, some "pw", some role, some true, some false, some false⟩

/-- An admin who holds 150 FARM and buys for 100 of them, the seller, and the super admin. -/
def books : Store Bcrypt.plain where
  users := [person .admin, person .user, person .superAdmin]
  activeWallets userId := if userId < 3 then [10 + userId] else []
  userWallet _ := none
  merchantUser _ := none
  nextWalletId := 13
  wallets id :=
    if id = 10 then some ⟨15000000000, 10000000000, false⟩
    else if id < 13 then some ⟨0, 0, false⟩ else none
  transactions := []
  ledger := []
  escrows := [⟨0, 1, some 10, some 11, 10000000000, 0, .active, 0, 0, 0⟩]
  withdrawals := []
  deposits := []

def world : Outcome := ⟨0, 0, FEE_DEFAULTS, ⟨0, 0⟩, true, false⟩

/-- The buyer is deleted with the money, by either of the admin's paths; the seller deletes the
account and is paid afterwards. -/
def strandings : List (List (Move Request Outcome)) :=
  [[.enter (.deleteUser 0), .run 0 world, .run 0 world],
    [.enter (.deleteAdmin 0), .run 0 world, .run 0 world],
    [.enter (.deleteAccount 1 ⟨"pw", true, true⟩), .run 0 world, .run 0 world, .run 0 world,
      .run 0 world,
      .enter (.money (.ledger (.executeRelease 0
        ⟨0, 1, some 10, some 11, 10000000000, 0, .active, 0, 0, 0⟩ false))), .run 1 world]]

theorem nothingStranded_books : books.NothingStranded := by
  rintro userId ⟨user, hUser, hDeleted⟩
  have hAll : books.users.all (fun user => user.isDeleted == some false) = true := rfl
  have hAlive := List.all_eq_true.mp hAll user (List.mem_of_getElem? hUser)
  rw [hDeleted] at hAlive
  cases hAlive

theorem money_stranded :
    books.NothingStranded ∧ ∀ moves ∈ strandings, ∃ c,
      (program Bcrypt.plain).Reaches anyStep (Program.idle books) c ∧ ¬ c.store.NothingStranded := by
  refine ⟨nothingStranded_books, ?_⟩
  have hRuns : strandings.all (fun moves =>
      ((program Bcrypt.plain).schedule moves (Program.idle books)).any fun c =>
        [0, 1].any fun userId =>
          c.store.users[userId]?.any (fun user => user.isDeleted == some true) &&
          (c.store.activeWallets userId).any fun id => decide (0 < c.store.bank.balanceOf id)) =
      true := by
    decide +kernel
  intro moves hMem
  have hRun := List.all_eq_true.mp hRuns moves hMem
  simp only [Option.any_eq_true, List.any_eq_true, Bool.and_eq_true, beq_iff_eq,
    decide_eq_true_eq] at hRun
  obtain ⟨c, hReached, userId, -, hDeleted, id, hId, hHolds⟩ := hRun
  refine ⟨c, Program.reaches_of_schedule hReached, ?_⟩
  intro hNothing
  exact absurd (hNothing userId hDeleted id hId).1 (not_le.mpr hHolds)

/-- The seller is deleted before anything is paid. -/
theorem seller_deleted :
    ∃ c, (program Bcrypt.plain).Reaches Heeds (Program.idle books) c ∧ c.store.Deleted 1 ∧
      c.store.NothingStranded := by
  have hLook : Heeds world books (.deleteUser 1) :=
    ⟨nofun, fun _ _ ⟨_, hPayment, _⟩ => by cases hPayment⟩
  have hMark : Heeds world books (.markDeleted 1) := by
    refine ⟨?_, fun _ _ ⟨_, hPayment, _⟩ => by cases hPayment⟩
    rintro userId ⟨⟩ id hId
    rw [List.mem_singleton.mp hId]
    exact ⟨le_refl 0, le_refl 0⟩
  have hEntered : (program Bcrypt.plain).Reaches Heeds (Program.idle books)
      ⟨books, [.deleteUser 1]⟩ := .single (.enter (Request.deleteUser 1) books [])
  have hFound : (program Bcrypt.plain).Reaches Heeds (Program.idle books)
      ⟨books, [.markDeleted 1]⟩ := hEntered.tail (.call [] [] hLook rfl)
  have hReach : (program Bcrypt.plain).Reaches Heeds (Program.idle books)
      ⟨{ books with users := books.users.modify 1 User.markDeleted }, [.done]⟩ :=
    hFound.tail (.call [] [] hMark rfl)
  exact ⟨_, hReach, ⟨_, rfl, rfl⟩, nothing_stranded nothingStranded_books hReach⟩

end FarmBackend.AccountDeletion
