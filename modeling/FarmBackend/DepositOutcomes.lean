import FarmBackend.DepositCredits
import FarmBackend.DepositSettlement
import FarmBackend.Serial

/-!
# What a finaliser does alone

`WebhookService.finalizeDeposit` and `DepositService.finalizeSuccessfulDeposit`, each run to its end
with nobody else moving. Apart from guest payments by QR code both take the same branches and
credit the same wallet; the amount is left open here.
-/

namespace FarmBackend.Deposits
open Decimal Fees Wallets Interleaving

set_option autoImplicit false

/-- What a settlement leaves behind. Every credit is an increment of a wallet and an entry of the
ledger, so equal banks have had the same credits. -/
structure Settlement where
  bank : Bank
  deposit : Option DepositStatus
  transaction : Option TransactionStatus

namespace Store

def settlement (s : Store) : Settlement :=
  ⟨s.bank, s.deposit.map Deposit.status, s.transaction.map DepositTransaction.status⟩

end Store

/-- `none` for a refusal: the call has answered `false` or has thrown. -/
def settled : Store × Call → Option Settlement
  | (s, .done true) => some s.settlement
  | _ => none

/-- The same for the result of a transaction. -/
def answered (r : Store × Bool) : Option Settlement := if r.2 then some r.1.settlement else none

def finalized (service : Service) (o : Outcome) (s : Store) : Option Settlement :=
  settled (program.advance o 7 s (.finalize service))

/-- How many steps a call can still take. -/
def Call.rank : Call → ℕ
  | .done _ => 0
  | .finalizePendingDeposit _ _ _ | .creditPendingDeposit _ _ _ | .creditPendingTransactionTx _ _
  | .finalizeMerchantQr _ _ | .completeUpdate _ | .failDepositTx _ _ _ | .nowpaymentsFailureTx
  | .deleteFailed _ => 1
  | .creditPendingTransaction _ | .receiverWallet _ | .failReadTransaction _ _
  | .nowpaymentsMetadata _ | .staleFailedDeposits => 2
  | .completePendingTransaction _ | .failDeposit _ | .nowpaymentsFailure | .deletePending _ => 3
  | .rebuild _ _ _ | .stalePendingDeposit => 4
  | .verify _ _ | .staleTransactions => 5
  | .readTransaction _ _ => 6
  | .finalize _ => 7

theorem rank_route (service : Service) (deposit : Option Deposit) (t : DepositTransaction) :
    (route service deposit t).rank ≤ 3 := by
  unfold route routeMerchantQr
  dsimp only
  repeat' split
  all_goals simp [Call.rank]

theorem rank_routeOrRebuild (service : Service) (deposit : Option Deposit)
    (t : DepositTransaction) : (routeOrRebuild service deposit t).rank ≤ 4 := by
  unfold routeOrRebuild
  split
  · exact le_rfl
  · exact (rank_route _ _ _).trans (by decide)

theorem rank_step {o : Outcome} {s s' : Store} {call call' : Call}
    (h : step o s call = some (s', call')) : call'.rank < call.rank := by
  have hRebuilt := rank_routeOrRebuild
  have hRoute := rank_route
  cases call with
  | readTransaction service deposit =>
    obtain ⟨t, -, h⟩ := Option.bind_eq_some_iff.mp h
    cases service with
    | webhook =>
      cases h
      exact (hRebuilt .webhook deposit t).trans_lt (by decide : 4 < 6)
    | deposit =>
      cases h
      exact (by decide : 5 < 6)
  | creditPendingDeposit service d t =>
    simp only [step] at h
    split at h
    · obtain ⟨r, -, h⟩ := Option.bind_eq_some_iff.mp h
      cases h
      exact Nat.one_pos
    · cases h
      exact Nat.one_pos
  | finalizePendingDeposit | completeUpdate | creditPendingTransactionTx | failDepositTx =>
    obtain ⟨r, -, h⟩ := Option.bind_eq_some_iff.mp h
    cases h
    exact Nat.one_pos
  | finalizeMerchantQr =>
    obtain ⟨merchantId, -, h⟩ := Option.bind_eq_some_iff.mp h
    obtain ⟨r, -, h⟩ := Option.bind_eq_some_iff.mp h
    cases h
    exact Nat.one_pos
  | nowpaymentsMetadata =>
    obtain ⟨r, -, h⟩ := Option.bind_eq_some_iff.mp h
    cases h
    exact Nat.one_lt_two
  | _ =>
    simp only [step] at h
    grind [Call.rank]

/-- Seven steps are enough for any call to end. -/
theorem alone_advance (o : Outcome) (s : Store) (call : Call) (h : call.rank ≤ 7) :
    program.Alone anyStep s call (program.advance o 7 s call).1 := by
  refine Program.alone_of_advance rfl ?_
  exact Program.step_advance (fun _ _ _ _ _ => rank_step) h

section Advance
variable {o : Outcome} {n : ℕ} {s s' : Store} {call call' : Call}

theorem advance_of_step (h : step o s call = some (s', call')) :
    program.advance o (n + 1) s call = program.advance o n s' call' := by
  have hStep : program.step o s call = some (s', call') := h
  simp only [Program.advance, hStep]

theorem advance_of_none (h : step o s call = none) : program.advance o n s call = (s, call) := by
  have hStep : program.step o s call = none := h
  cases n with
  | zero => rfl
  | succ n => simp only [Program.advance, hStep]

theorem advance_done (b : Bool) : program.advance o n s (.done b) = (s, .done b) :=
  advance_of_none rfl

theorem settled_of_throw (h : step o s call = none) (hCall : call ≠ .done true) :
    settled (program.advance o n s call) = none := by
  rw [advance_of_none h]
  unfold settled
  split
  · simp_all
  · rfl

theorem settled_of_transaction {transaction : Option (Store × Bool)}
    (h : step o s call = transaction.bind fun r => some (r.1, .done r.2))
    (hCall : call ≠ .done true) :
    settled (program.advance o (n + 1) s call) =
      transaction.bind answered := by
  cases transaction with
  | none => exact settled_of_throw h hCall
  | some r =>
    obtain ⟨s', answer⟩ := r
    rw [advance_of_step h, advance_done]
    cases answer <;> rfl

end Advance

/-! ### One credit -/

/-- The credit of a settlement, as the bank sees it. -/
def Store.paid (walletId : WalletId) (amount : ℚ) (s : Store) : Option Bank :=
  (s.bank.walletsUpdate walletId (Wallet.incrementBalance amount)).map
    (Bank.ledgerCreate ⟨some s.transactionId, walletId, .credit, toUnits amount⟩)

/-- A credit of the wallet that was looked for, with the transaction completed. -/
def payment (wallet : Option (Store × WalletId)) (amount : ℚ) (deposit : Option DepositStatus) :
    Option Settlement :=
  wallet.bind fun found =>
    (found.1.paid found.2 amount).map fun bank => ⟨bank, deposit, some .completed⟩

def payable (wallet : Option (Store × WalletId)) : Bool :=
  wallet.any fun found => (found.1.bank.wallets found.2).isSome

section Payment
variable {s s' : Store} {t : DepositTransaction} {d : Deposit}

theorem credit_eq {walletId : WalletId} {amount : ℚ} (h : s.transaction = some t) :
    s.credit walletId amount = (s.paid walletId amount).map fun bank =>
      { s with bank := bank, credits := s.credits ++ [(walletId, toUnits amount)] } := by
  unfold Store.credit Store.paid
  rw [h]
  cases s.bank.walletsUpdate walletId (Wallet.incrementBalance amount) <;> rfl

theorem claimDeposit_eq {now : Time} (h : s.deposit = some d) (hPending : d.status = .pending) :
    s.claimDeposit d.id now =
      some { s with deposit := some { d with status := .success, updatedAt := now } } := by
  have hAt : s.depositAt d.id = some d := by simp [Store.depositAt, h]
  simp only [Store.claimDeposit, hAt, hPending, if_true]

@[simp] theorem deposit_findOrCreateWallet (userId : UserId) :
    (s.findOrCreateWallet userId).1.deposit = s.deposit := by
  unfold Store.findOrCreateWallet
  split <;> rfl

/-- Looking for the wallet and writing the deposit row do not meet. -/
theorem findOrCreateWallet_deposit (userId : UserId) (row : Option Deposit) :
    ({ s with deposit := row } : Store).findOrCreateWallet userId =
      ({ (s.findOrCreateWallet userId).1 with deposit := row },
        (s.findOrCreateWallet userId).2) := by
  unfold Store.findOrCreateWallet
  cases s.activeWallet userId <;> rfl

theorem payment_isSome {wallet : Option (Store × WalletId)} {amount : ℚ}
    {deposit : Option DepositStatus} :
    (payment wallet amount deposit).isSome = payable wallet := by
  cases wallet with
  | none => rfl
  | some found =>
    unfold payment payable Store.paid Bank.walletsUpdate
    cases h : found.1.bank.wallets found.2 <;> simp [h]

/-- The last entry of the ledger shows what was credited. -/
theorem payment_ledger {found : Store × WalletId} {amount : ℚ} {deposit : Option DepositStatus}
    {settlement : Settlement} (h : payment (some found) amount deposit = some settlement) :
    settlement.bank.ledger = found.1.bank.ledger ++
      [⟨some found.1.transactionId, found.2, .credit, toUnits amount⟩] := by
  simp only [payment, Option.bind_some, Store.paid, Option.map_map, Option.map_eq_some_iff] at h
  obtain ⟨bank, hUpdate, rfl⟩ := h
  obtain ⟨w, -, rfl⟩ := Bank.walletsUpdate_eq_some.mp hUpdate
  rfl

theorem normalizeAmount_inj {x y : ℚ}
    (h : toUnits (normalizeAmount x) = toUnits (normalizeAmount y)) :
    normalizeAmount x = normalizeAmount y := by
  rw [Store.normalizeAmount_eq x, Store.normalizeAmount_eq y, toUnits_toNumber, toUnits_toNumber] at h
  rw [Store.normalizeAmount_eq x, Store.normalizeAmount_eq y, h]

/-- Two credits of one wallet are the same where the amounts are, or where neither goes through. -/
theorem payment_eq_iff {wallet : Option (Store × WalletId)} {x y : ℚ}
    {deposit : Option DepositStatus} :
    payment wallet (normalizeAmount x) deposit = payment wallet (normalizeAmount y) deposit ↔
      (payable wallet = true → normalizeAmount x = normalizeAmount y) := by
  constructor
  · intro hSame hPayable
    cases wallet with
    | none => cases hPayable
    | some found =>
      have hSome : (payment (some found) (normalizeAmount x) deposit).isSome = true := by
        rw [payment_isSome]
        exact hPayable
      obtain ⟨settlement, hFirst⟩ := Option.isSome_iff_exists.mp hSome
      have hLedger := (payment_ledger hFirst).symm.trans (payment_ledger (hSame ▸ hFirst))
      simp only [List.append_cancel_left_eq, List.cons.injEq, LedgerEntry.mk.injEq] at hLedger
      exact normalizeAmount_inj hLedger.1.2.2.2
  · intro hAmounts
    cases hPayable : payable wallet with
    | true => rw [hAmounts hPayable]
    | false =>
      have hNone : ∀ amount, payment wallet amount deposit = none := by
        intro amount
        rw [← Option.not_isSome_iff_eq_none, payment_isSome, hPayable]
        exact Bool.false_ne_true
      rw [hNone, hNone]

end Payment

/-! ### The common branches -/

/-- Where no deposit row is pending or settled: the transaction alone. -/
def settledAlone (service : Service) (deposit : Option Deposit) (t : DepositTransaction)
    (s : Store) : Option Settlement :=
  if t.txPending then
    payment (s.transactionWallet t) (transactionCreditAmount service t)
      (deposit.map Deposit.status)
  else none

/-- What a finaliser does apart from guest payments. -/
def settledRegularly (service : Service) (deposit : Option Deposit) (t : DepositTransaction)
    (s : Store) : Option Settlement :=
  match deposit with
  | none => settledAlone service none t s
  | some d =>
    match d.status with
    | .pending =>
      if t.txPending ∨ t.status = .pending then
        payment (some (s.findOrCreateWallet d.userId)) (creditAmount service d t) (some .success)
      else none
    | .success =>
      if t.txPending ∨ t.txComplete then some ⟨s.bank, some .success, some .completed⟩ else none
    | .processing | .failed => settledAlone service (some d) t s

section Regular
variable {service : Service} {o : Outcome} {n : ℕ} {s : Store} {t : DepositTransaction}
  {d : Deposit}

/-- Credit and complete: how both settlements of a deposit row end. -/
theorem answered_credit {walletId : WalletId} {amount : ℚ} {receiver : Option WalletId}
    (hRow : s.transaction = some t) (hStatus : t.status ≠ .completed) :
    ((s.credit walletId amount).bind fun s =>
        (s.completeTransaction t receiver).bind fun s => some (s, true)).bind answered =
      (s.paid walletId amount).map fun bank =>
        ⟨bank, s.deposit.map Deposit.status, some .completed⟩ := by
  rw [credit_eq hRow]
  cases s.paid walletId amount with
  | none => rfl
  | some bank =>
    simp only [Option.map_some, Option.bind_some, Store.completeTransaction_of_ne hStatus,
      Store.updateTransaction, hRow]
    rfl

theorem not_completed_of_open (h : t.isOpen = true) : t.status ≠ .completed := by
  intro hCompleted
  simp [DepositTransaction.isOpen, hCompleted] at h

theorem finalizePendingDepositTx_eq (hD : s.deposit = some d) (hT : s.transaction = some t)
    (hPending : d.status = .pending) (hOpen : t.txPending = true) (now : Time) :
    (s.finalizePendingDepositTx service d t now).bind answered =
      payment (some (s.findOrCreateWallet d.userId)) (creditAmount service d t)
        (some .success) := by
  obtain ⟨hDeposit, hStatus⟩ := Bool.and_eq_true_iff.mp hOpen
  have hFound : (s.findOrCreateWallet d.userId).1.deposit = some d := by simp [hD]
  have hRow : (s.findOrCreateWallet d.userId).1.transaction = some t := by simp [hT]
  simp only [Store.finalizePendingDepositTx, claimDeposit_eq hFound hPending, hDeposit]
  cases service <;> exact answered_credit hRow (not_completed_of_open hStatus)

theorem creditPendingDepositTx_eq (hD : s.deposit = some d) (hT : s.transaction = some t)
    (hPending : d.status = .pending) (hStatus : t.status = .pending) (now : Time) :
    (s.creditPendingDepositTx service d t now).bind answered =
      payment (some (s.findOrCreateWallet d.userId)) (creditAmount service d t)
        (some .success) := by
  have hNot : t.status ≠ .completed := by
    rw [hStatus]
    exact TransactionStatus.noConfusion
  simp only [Store.creditPendingDepositTx, claimDeposit_eq hD hPending, findOrCreateWallet_deposit]
  exact answered_credit (by simp [hT]) hNot

theorem transactionWallet_transaction {found : Store × WalletId}
    (h : s.transactionWallet t = some found) :
    found.1.transaction = s.transaction ∧ found.1.deposit = s.deposit := by
  unfold Store.transactionWallet at h
  split at h
  · cases h
    exact ⟨rfl, rfl⟩
  · obtain ⟨userId, -, rfl⟩ := Option.map_eq_some_iff.mp h
    exact ⟨by simp, by simp⟩

theorem creditPendingTransactionTx_eq (hT : s.transaction = some t) (hOpen : t.txPending = true) :
    (s.creditPendingTransactionTx service t).bind answered =
      payment (s.transactionWallet t) (transactionCreditAmount service t)
        (s.deposit.map Deposit.status) := by
  have hNot := not_completed_of_open (Bool.and_eq_true_iff.mp hOpen).2
  unfold Store.creditPendingTransactionTx
  cases hWallet : s.transactionWallet t with
  | none => rfl
  | some found =>
    obtain ⟨s', walletId⟩ := found
    obtain ⟨hSame, hDeposit⟩ := transactionWallet_transaction hWallet
    have hRow : s'.transaction = some t := hSame.trans hT
    simp only [hRow, hNot, if_false, Store.updateTransaction, Option.bind_eq_bind,
      Option.bind_some, payment, ← hDeposit]
    rw [credit_eq (t := t.completed (some walletId)) rfl]
    change (((s'.paid walletId (transactionCreditAmount service t)).map _).bind _).bind _ = _
    cases s'.paid walletId (transactionCreditAmount service t) <;> rfl

theorem settled_alone (hT : s.transaction = some t) :
    settled (program.advance o (n + 2) s
        (if t.txPending then .creditPendingTransaction service else .done false)) =
      settledAlone service s.deposit t s := by
  unfold settledAlone
  by_cases hOpen : t.txPending = true
  · obtain ⟨hDeposit, hStatus⟩ := Bool.and_eq_true_iff.mp hOpen
    have hStep : step o s (.creditPendingTransaction service) =
        some (s, .creditPendingTransactionTx service t) := by
      simp only [step, hT, hDeposit, not_completed_of_open hStatus, hStatus, if_true, if_false,
        Bool.true_eq_false]
    have hLast : step o s (.creditPendingTransactionTx service t) =
        (s.creditPendingTransactionTx service t).bind fun r => some (r.1, .done r.2) := rfl
    rw [if_pos hOpen, if_pos hOpen, advance_of_step hStep, settled_of_transaction hLast (by simp)]
    exact creditPendingTransactionTx_eq hT hOpen
  · rw [if_neg hOpen, if_neg hOpen, advance_done]
    rfl

theorem settled_pending (hD : s.deposit = some d) (hT : s.transaction = some t)
    (hPending : d.status = .pending) :
    settled (program.advance o (n + 1) s
        (if t.txPending then .finalizePendingDeposit service d t
          else .creditPendingDeposit service d t)) =
      if t.txPending ∨ t.status = .pending then
        payment (some (s.findOrCreateWallet d.userId)) (creditAmount service d t) (some .success)
      else none := by
  by_cases hOpen : t.txPending = true
  · have hLast : step o s (.finalizePendingDeposit service d t) =
        (s.finalizePendingDepositTx service d t o.now).bind fun r => some (r.1, .done r.2) := rfl
    rw [if_pos hOpen, if_pos (.inl hOpen), settled_of_transaction hLast (by simp)]
    exact finalizePendingDepositTx_eq hD hT hPending hOpen o.now
  · rw [if_neg hOpen]
    by_cases hStatus : t.status = .pending
    · have hLast : step o s (.creditPendingDeposit service d t) =
          (s.creditPendingDepositTx service d t o.now).bind fun r => some (r.1, .done r.2) :=
        if_pos hStatus
      rw [if_pos (.inr hStatus), settled_of_transaction hLast (by simp)]
      exact creditPendingDepositTx_eq hD hT hPending hStatus o.now
    · have hStep : step o s (.creditPendingDeposit service d t) = some (s, .done false) :=
        if_neg hStatus
      rw [if_neg (not_or.mpr ⟨hOpen, hStatus⟩), advance_of_step hStep, advance_done]
      rfl

theorem settled_success (hD : s.deposit = some d) (hT : s.transaction = some t)
    (hSuccess : d.status = .success) :
    settled (program.advance o (n + 3) s
        (if t.txComplete then .done true
          else if t.txPending then .completePendingTransaction t else .done false)) =
      if t.txPending ∨ t.txComplete then some ⟨s.bank, some .success, some .completed⟩
      else none := by
  by_cases hComplete : t.txComplete = true
  · have hStatus : t.status = .completed := by
      simpa [DepositTransaction.txComplete] using (Bool.and_eq_true_iff.mp hComplete).2
    rw [if_pos hComplete, if_pos (.inr hComplete), advance_done]
    simp [settled, Store.settlement, hD, hT, hSuccess, hStatus]
  · rw [if_neg hComplete]
    by_cases hOpen : t.txPending = true
    · rw [if_pos hOpen, if_pos (.inl hOpen)]
      -- Whether the receiver is filled in or not, the last step completes the row.
      have hLast : ∀ receiver m, settled (program.advance o (m + 1) s (.completeUpdate receiver)) =
          some ⟨s.bank, some .success, some .completed⟩ := by
        intro receiver m
        have hStep : step o s (.completeUpdate receiver) =
            some ({ s with transaction := some (t.completed (receiver <|> t.receiverWalletId)) },
              .done true) := by
          simp only [step, Store.updateTransaction, hT]
          rfl
        rw [advance_of_step hStep, advance_done]
        simp [settled, Store.settlement, hD, hSuccess, DepositTransaction.completed]
      cases hReceiver : t.receiverWalletId with
      | none =>
        have hStep : step o s (.completePendingTransaction t) =
            some (s, .receiverWallet d.userId) := by
          simp only [step, hReceiver, hD]
        rw [advance_of_step hStep, advance_of_step rfl]
        exact hLast _ _
      | some walletId =>
        have hStep : step o s (.completePendingTransaction t) =
            some (s, .completeUpdate none) := by
          simp only [step, hReceiver]
        rw [advance_of_step hStep]
        exact hLast _ _
    · rw [if_neg hOpen, if_neg (not_or.mpr ⟨hOpen, hComplete⟩), advance_done]
      rfl

theorem not_open_of_txFailed (h : t.txFailed = true) :
    t.txPending = false ∧ t.txComplete = false ∧ t.status ≠ .pending ∧ t.status ≠ .completed := by
  obtain ⟨-, hStatus⟩ := Bool.and_eq_true_iff.mp h
  cases hIs : t.status <;>
    simp_all [DepositTransaction.txPending, DepositTransaction.isOpen,
      DepositTransaction.txComplete]

theorem settledRegularly_eq_none {deposit : Option Deposit} (hOpen : t.txPending = false)
    (hPending : t.status ≠ .pending)
    (hComplete : ∀ d, deposit = some d → d.status = .success → t.txComplete = false) :
    settledRegularly service deposit t s = none := by
  have hAlone : ∀ deposit, settledAlone service deposit t s = none := by
    intro deposit
    simp [settledAlone, hOpen]
  unfold settledRegularly
  cases deposit with
  | none => exact hAlone none
  | some d =>
    cases hD : d.status with
    | pending => simp [hD, hOpen, hPending]
    | processing => simp [hD, hAlone]
    | success => simp [hD, hOpen, hComplete d rfl hD]
    | failed => simp [hD, hAlone]

/-- The branches that both finalisers share end as the table says. -/
theorem settled_route {deposit : Option Deposit} (hD : s.deposit = deposit)
    (hT : s.transaction = some t)
    (hRegular : service = .webhook ∨ t.metadata.qrGuestPayment = false) :
    settled (program.advance o (n + 3) s (route service deposit t)) =
      settledRegularly service deposit t s := by
  have hQr : ¬(service = .deposit ∧ t.metadata.qrGuestPayment = true) := by
    rintro ⟨rfl, hGuest⟩
    rcases hRegular with hWebhook | hNot
    · cases hWebhook
    · rw [hNot] at hGuest
      cases hGuest
  by_cases hFailed : t.txFailed = true
  · obtain ⟨hOpen, hComplete, hPending, -⟩ := not_open_of_txFailed hFailed
    have hRoute : route service deposit t = .done false := if_pos hFailed
    rw [settledRegularly_eq_none hOpen hPending (fun _ _ _ => hComplete), hRoute, advance_done]
    rfl
  · have hAlone : settled (program.advance o (n + 3) s
          (if t.txPending then .creditPendingTransaction service else .done false)) =
        settledAlone service deposit t s := hD ▸ settled_alone hT
    unfold route settledRegularly
    rw [if_neg hFailed, if_neg hQr]
    cases deposit with
    | none => exact hAlone
    | some d =>
      cases hStatus : d.status with
      | pending => simpa only [hStatus] using settled_pending hD hT hStatus
      | processing => simpa only [hStatus] using hAlone
      | success => simpa only [hStatus] using settled_success hD hT hStatus
      | failed => simpa only [hStatus] using hAlone

end Regular

/-! ### Guest payments by QR code -/

/-- The guest payment has been settled before. -/
def acknowledged (deposit : Option Deposit) (t : DepositTransaction) : Bool :=
  t.status == .completed &&
    (t.metadata.platformFeeType == some "merchant_sale" ||
      deposit.any fun d => d.status == .success)

/-- The deposit is in the name of the merchant's owner, and both wallets are there. -/
def merchantReady (d : Deposit) (t : DepositTransaction) (s : Store) : Bool :=
  (t.metadata.merchantId.bind s.merchantUser).any fun userId =>
    userId == d.userId && (s.userWallet userId).any (fun id => (s.bank.wallets id).isSome) &&
      s.bank.platform.any fun id => (s.bank.wallets id).isSome

def payableToMerchant (deposit : Option Deposit) (t : DepositTransaction) (s : Store) : Bool :=
  (t.txPending || t.txComplete) &&
    deposit.any fun d => d.status == .pending && merchantReady d t s

section Merchant
variable {o : Outcome} {n : ℕ} {s s' : Store} {t : DepositTransaction} {d : Deposit}

theorem paid_isSome (walletId : WalletId) (amount : ℚ) :
    (s.paid walletId amount).isSome = (s.bank.wallets walletId).isSome := by
  unfold Store.paid Bank.walletsUpdate
  cases s.bank.wallets walletId <;> rfl

theorem credit_eq_some_iff {walletId : WalletId} {amount : ℚ} :
    s.credit walletId amount = some s' ↔ s.transaction.isSome = true ∧
      ∃ bank, s.paid walletId amount = some bank ∧
        { s with bank := bank, credits := s.credits ++ [(walletId, toUnits amount)] } = s' := by
  cases hT : s.transaction with
  | none => simp [Store.credit, hT]
  | some t => simp only [credit_eq hT, Option.map_eq_some_iff, Option.isSome_some, true_and, hT]

/-- A guest payment that is settled finds the merchant ready, and has two entries: one for the
merchant and one for the platform. -/
theorem finalizeMerchantQrTx_answered {rule : FeeRule} {now : Time} {settlement : Settlement}
    {merchantId : ℕ} (hD : s.deposit = some d) (hPending : d.status = .pending)
    (hMerchant : t.metadata.merchantId = some merchantId)
    (h : (s.finalizeMerchantQrTx rule d t merchantId now).bind answered = some settlement) :
    merchantReady d t s = true ∧
      ∃ first second, settlement.bank.ledger = s.bank.ledger ++ [first, second] := by
  simp only [Store.finalizeMerchantQrTx, Option.bind_eq_bind, Option.bind_eq_some_iff,
    Option.ite_none_right_eq_some, claimDeposit_eq hD hPending, credit_eq_some_iff, Option.pure_def,
    Option.some.injEq, Store.updateTransaction_eq_some] at h
  obtain ⟨r, ⟨userId, hUser, walletId, hWallet, platform, hPlatform, rfl, s₁, ⟨-, bank, hPaid, rfl⟩,
    bank', hFee, s₂, ⟨row, -, rfl⟩, rfl⟩, hAnswer⟩ := h
  have hWalletRow : (s.bank.wallets walletId).isSome = true :=
    (paid_isSome walletId _).symm.trans (Option.isSome_of_eq_some hPaid)
  obtain ⟨before, hBefore, rfl⟩ := Option.map_eq_some_iff.mp hPaid
  obtain ⟨w, hW, rfl⟩ := Bank.walletsUpdate_eq_some.mp hFee
  have hPlatformRow : (s.bank.wallets platform).isSome = true := by
    rw [← Bank.isSome_walletsUpdate hBefore platform]
    exact Option.isSome_of_eq_some hW
  obtain ⟨w', -, rfl⟩ := Bank.walletsUpdate_eq_some.mp hBefore
  simp only [answered, if_true, Option.some.injEq] at hAnswer
  subst hAnswer
  refine ⟨?_, _, _, List.append_assoc _ [_] [_]⟩
  simp [merchantReady, hMerchant, hUser, hWallet, hPlatform, hWalletRow, hPlatformRow]

theorem finalizeMerchantQrTx_of_ready (hD : s.deposit = some d) (hT : s.transaction = some t)
    (hPending : d.status = .pending) (hReady : merchantReady d t s = true) (rule : FeeRule)
    (now : Time) :
    ∃ merchantId, t.metadata.merchantId = some merchantId ∧
      ((s.finalizeMerchantQrTx rule d t merchantId now).bind answered).isSome = true := by
  simp only [merchantReady, Option.any_eq_true, Option.bind_eq_some_iff, Bool.and_eq_true,
    beq_iff_eq] at hReady
  obtain ⟨userId, ⟨merchantId, hMerchant, hUser⟩, ⟨hOwner, walletId, hWallet, hWalletRow⟩, platform,
    hPlatform, hPlatformRow⟩ := hReady
  refine ⟨merchantId, hMerchant, ?_⟩
  have hPaid : ∀ amount, ∃ bank, s.paid walletId amount = some bank := by
    intro amount
    rw [← Option.isSome_iff_exists, paid_isSome]
    exact hWalletRow
  have hFee : ∀ amount bank f, s.paid walletId amount = some bank →
      ∃ bank', bank.walletsUpdate platform f = some bank' := by
    intro amount bank f hBank
    obtain ⟨before, hBefore, rfl⟩ := Option.map_eq_some_iff.mp hBank
    rw [← Bank.isSome_walletsUpdate hBefore platform] at hPlatformRow
    obtain ⟨w, hW⟩ := Option.isSome_iff_exists.mp hPlatformRow
    exact ⟨_, Bank.walletsUpdate_eq_some.mpr ⟨w, hW, rfl⟩⟩
  obtain ⟨bank, hBank⟩ := hPaid (normalizeAmount
    (normalizeAmount d.amount - normalizeAmount (computeFee rule (normalizeAmount d.amount) 8)))
  obtain ⟨bank', hBank'⟩ := hFee _ bank (Wallet.incrementBalance
    (normalizeAmount (computeFee rule (normalizeAmount d.amount) 8))) hBank
  rw [Option.isSome_iff_exists]
  simp only [Store.finalizeMerchantQrTx, Option.bind_eq_bind, Option.bind_eq_some_iff,
    Option.ite_none_right_eq_some, claimDeposit_eq hD hPending, credit_eq_some_iff, Option.pure_def,
    Option.some.injEq, Store.updateTransaction_eq_some]
  exact ⟨_, _, ⟨userId, hUser, walletId, hWallet, platform, hPlatform, hOwner, _,
    ⟨Option.isSome_of_eq_some hT, bank, hBank, rfl⟩, bank', hBank', _, ⟨t, hT, rfl⟩, rfl⟩, rfl⟩

theorem acknowledged_iff {deposit : Option Deposit} :
    acknowledged deposit t = true ↔ t.status = .completed ∧
      (t.metadata.platformFeeType = some "merchant_sale" ∨
        (deposit.any fun d => d.status == .success) = true) := by
  simp [acknowledged]

theorem settled_finalizeMerchantQr (hD : s.deposit = some d) (hT : s.transaction = some t)
    (hPending : d.status = .pending) :
    (settled (program.advance o (n + 1) s (.finalizeMerchantQr d t))).isSome =
        merchantReady d t s ∧
      ∀ settlement, settled (program.advance o (n + 1) s (.finalizeMerchantQr d t)) =
        some settlement →
          ∃ first second, settlement.bank.ledger = s.bank.ledger ++ [first, second] := by
  have hLast : step o s (.finalizeMerchantQr d t) =
      (t.metadata.merchantId.bind fun merchantId =>
        s.finalizeMerchantQrTx o.merchantRule d t merchantId o.now).bind
          fun r => some (r.1, .done r.2) := (Option.bind_assoc _ _ _).symm
  rw [settled_of_transaction hLast nofun, Option.bind_assoc]
  have hSettled : ∀ settlement, (t.metadata.merchantId.bind fun merchantId =>
      (s.finalizeMerchantQrTx o.merchantRule d t merchantId o.now).bind answered) =
        some settlement → merchantReady d t s = true ∧
          ∃ first second, settlement.bank.ledger = s.bank.ledger ++ [first, second] := by
    intro settlement hSome
    obtain ⟨merchantId, hMerchant, hTx⟩ := Option.bind_eq_some_iff.mp hSome
    exact finalizeMerchantQrTx_answered hD hPending hMerchant hTx
  refine ⟨?_, fun settlement hSome => (hSettled settlement hSome).2⟩
  rw [Bool.eq_iff_iff]
  constructor
  · intro hSome
    obtain ⟨settlement, hSome⟩ := Option.isSome_iff_exists.mp hSome
    exact (hSettled settlement hSome).1
  · intro hReady
    obtain ⟨merchantId, hMerchant, hTx⟩ :=
      finalizeMerchantQrTx_of_ready hD hT hPending hReady o.merchantRule o.now
    rw [hMerchant]
    exact hTx

theorem settled_acknowledged {deposit : Option Deposit} (hD : s.deposit = deposit)
    (hT : s.transaction = some t) (hGuest : t.metadata.qrGuestPayment = true)
    (hAck : acknowledged deposit t = true) :
    settled (program.advance o n s (route .deposit deposit t)) =
      some ⟨s.bank, deposit.map Deposit.status, some .completed⟩ := by
  have hStatus := (acknowledged_iff.mp hAck).1
  have hNot : ¬t.txFailed = true := fun hFailed => (not_open_of_txFailed hFailed).2.2.2 hStatus
  have hRoute : route .deposit deposit t = .done true := by
    unfold route routeMerchantQr
    rw [if_neg hNot, if_pos ⟨rfl, hGuest⟩]
    exact if_pos (acknowledged_iff.mp hAck)
  rw [hRoute, advance_done]
  simp [settled, Store.settlement, hD, hT, hStatus]

/-- Any other guest payment is settled where it can be, and then the platform has its entry. -/
theorem settled_guestPayment {deposit : Option Deposit} (hD : s.deposit = deposit)
    (hT : s.transaction = some t) (hGuest : t.metadata.qrGuestPayment = true)
    (hAck : acknowledged deposit t = false) :
    (settled (program.advance o (n + 1) s (route .deposit deposit t))).isSome =
        payableToMerchant deposit t s ∧
      ∀ settlement, settled (program.advance o (n + 1) s (route .deposit deposit t)) =
        some settlement →
          ∃ first second, settlement.bank.ledger = s.bank.ledger ++ [first, second] := by
  have hRefused : route .deposit deposit t = .done false →
      payableToMerchant deposit t s = false →
      (settled (program.advance o (n + 1) s (route .deposit deposit t))).isSome =
          payableToMerchant deposit t s ∧
        ∀ settlement, settled (program.advance o (n + 1) s (route .deposit deposit t)) =
          some settlement →
            ∃ first second, settlement.bank.ledger = s.bank.ledger ++ [first, second] := by
    intro hRoute hUnpayable
    rw [hRoute, advance_done, hUnpayable]
    refine ⟨rfl, ?_⟩
    intro settlement h
    cases h
  by_cases hFailed : t.txFailed = true
  · obtain ⟨hOpen, hComplete, -, -⟩ := not_open_of_txFailed hFailed
    exact hRefused (if_pos hFailed) (by simp [payableToMerchant, hOpen, hComplete])
  · have hRoute : route .deposit deposit t =
        match deposit.filter fun d => d.status == .pending with
        | none => .done false
        | some d => if t.txPending ∨ t.txComplete then .finalizeMerchantQr d t else .done false := by
      unfold route routeMerchantQr
      rw [if_neg hFailed, if_pos ⟨rfl, hGuest⟩]
      refine if_neg fun hBefore => ?_
      rw [acknowledged_iff.mpr hBefore] at hAck
      cases hAck
    cases hRow : deposit.filter fun d => d.status == .pending with
    | none =>
      rw [hRow] at hRoute
      refine hRefused hRoute ?_
      cases deposit with
      | none => simp [payableToMerchant]
      | some d =>
        have hOther : (d.status == .pending) = false := by simpa using hRow
        simp [payableToMerchant, hOther]
    | some d =>
      obtain ⟨rfl, hIs⟩ := Option.filter_eq_some_iff.mp hRow
      have hPending : d.status = .pending := by simpa using hIs
      rw [hRow] at hRoute
      by_cases hOpen : t.txPending = true ∨ t.txComplete = true
      · simp only [if_pos hOpen] at hRoute
        rw [hRoute]
        have hPayable : payableToMerchant (some d) t s = merchantReady d t s := by
          simp [payableToMerchant, hPending, hOpen]
        rw [hPayable]
        exact settled_finalizeMerchantQr hD hT hPending
      · simp only [if_neg hOpen] at hRoute
        have hClosed : (t.txPending || t.txComplete) = false := by simpa using hOpen
        exact hRefused hRoute (by simp [payableToMerchant, hClosed])

end Merchant

end FarmBackend.Deposits
