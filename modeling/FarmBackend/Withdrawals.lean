import FarmBackend.Rows
import FarmBackend.Wallets

/-!
# Withdrawals (`withdraw/withdraw.service.ts`)

The rows of a withdrawal and the transactions that lock, debit and unlock its funds. The amounts
of the `Withdrawal` row are JS numbers, those of its `transactions` row are columns. The two rows
are created together and never deleted, so they are kept side by side; the reference is their
position, and ledger entries name the `transactions` row by it. Reasons and other texts are left
out.
-/

namespace FarmBackend.Withdrawals
open Decimal Fees Wallets Rows

set_option autoImplicit false

inductive Method where
  | bankTransfer
  | mobileMoney
  | crypto
  deriving DecidableEq, Repr

inductive WithdrawalStatus where
  | pending
  | processing
  | completed
  | failed
  deriving DecidableEq, Repr

structure Withdrawal where
  userId : UserId
  amount : ℚ
  fee : ℚ
  settlement : ℚ
  method : Method
  accountName : Option String
  accountNumber : Option String
  bankName : Option String
  phoneNumber : Option String
  status : WithdrawalStatus
  createdAt : Time
  deriving DecidableEq

structure UserNames where
  firstName : Option String
  lastName : Option String
  deriving DecidableEq

inductive Provider where
  | paystack
  | nowpayments
  deriving DecidableEq, Repr

inductive ApprovalStatus where
  | pending
  | approved
  deriving DecidableEq, Repr

/-- `paystack_conversion_snapshot`. -/
structure ConversionSnapshot where
  farmKesRate : Option ℚ
  settlementKes : Option ℚ
  deriving DecidableEq

/-- The JSON of the `transactions` row. -/
structure Metadata where
  provider : Option Provider
  payoutApprovalStatus : Option ApprovalStatus
  payoutApprovedBy : Option String
  nowpaymentsPayoutId : Option String
  nowpaymentsPayoutStatus : Option String
  nowpaymentsPayoutAmount : ℚ
  nowpaymentsCurrency : String
  nowpaymentsAddress : String
  conversionSnapshot : Option ConversionSnapshot
  paystackTransferCode : Option String
  paystackTransferStatus : Option String
  paystackTransferRequiresOtp : Bool
  legacyStatus : Option String
  deriving DecidableEq

structure WithdrawalTransaction where
  senderWalletId : WalletId
  status : TransactionStatus
  amount : ℤ
  fee : ℤ
  netAmount : ℤ
  metadata : Metadata
  createdAt : Time
  deriving DecidableEq

structure Row where
  withdrawal : Withdrawal
  transaction : WithdrawalTransaction
  deriving DecidableEq

/-- `activeWallet` is the user's first active wallet. -/
structure WithdrawDb where
  bank : Bank
  activeWallet : UserId → Option WalletId
  userNames : UserId → UserNames
  rows : List Row

/-- `withdrawalDailyLimits`, read from the environment; 0 disables a limit. -/
structure DailyLimits where
  maxCount : ℚ
  maxAmount : ℚ

/-- `GREATEST(locked_balance - x, 0)`. -/
def unlock (x : ℚ) (w : Wallet) : Wallet :=
  { w with lockedBalance := toUnits (max (toNumber w.lockedBalance - x) 0) }

def WithdrawalStatus.isOpen (status : WithdrawalStatus) : Bool :=
  status == .pending || status == .processing

def successMetadata (method : Method) (metadata : Metadata) : Metadata :=
  match method with
  | .crypto =>
    if metadata.provider = some .nowpayments then
      { metadata with nowpaymentsPayoutStatus := some "finished" }
    else { metadata with legacyStatus := some "success" }
  | _ => { metadata with
      provider := some .paystack
      paystackTransferStatus := some "success" }

def failureMetadata (method : Method) (metadata : Metadata) : Metadata :=
  match method with
  | .crypto =>
    if metadata.provider = some .nowpayments then
      { metadata with nowpaymentsPayoutStatus := some "failed" }
    else { metadata with legacyStatus := some "failed" }
  | _ => { metadata with
      provider := some .paystack
      paystackTransferStatus := some "failed" }

def creditPlatformFeeInTx (platformFee : ℚ) (transactionId : Option ℕ) (bank : Bank) :
    Option Bank :=
  bank.creditPlatformInTx platformFee transactionId

namespace WithdrawDb

def setWithdrawal (reference : ℕ) (f : Withdrawal → Withdrawal) (db : WithdrawDb) : WithdrawDb :=
  { db with rows := db.rows.modify reference fun row => { row with withdrawal := f row.withdrawal } }

def setTransaction (reference : ℕ) (f : WithdrawalTransaction → WithdrawalTransaction)
    (db : WithdrawDb) : WithdrawDb :=
  { db with
    rows := db.rows.modify reference fun row => { row with transaction := f row.transaction } }

/-- The user's withdrawals of the last day that did not fail. -/
def recent (userId : UserId) (now : Time) (db : WithdrawDb) : List Withdrawal :=
  (db.rows.map Row.withdrawal).filter fun w => w.userId == userId &&
    decide (now ≤ w.createdAt + 24 * 60 * 60 * 1000) && w.status != .failed

/-- `lockFundsInTx`: the check and the increment are one `UPDATE`. -/
def lockFundsInTx (walletId : WalletId) (userId : UserId) (amount : ℚ) (limits : DailyLimits)
    (now : Time) (db : WithdrawDb) : Option WithdrawDb := do
  let wallet ← db.bank.wallets walletId
  let recent := db.recent userId now
  if wallet.isFrozen = false ∧ amount ≤ wallet.available ∧
      (0 < limits.maxCount → (recent.length : ℚ) + 1 ≤ limits.maxCount) ∧
      (0 < limits.maxAmount → (recent.map Withdrawal.amount).sum + amount ≤ limits.maxAmount) then
    let bank ← db.bank.walletsUpdate walletId (Wallet.incrementLocked amount)
    return { db with bank := bank }
  else none

/-- The transaction of `markAsSuccess`, with what was read before it: the withdrawal, its
transaction and the user's wallet. The answer is whether this call claimed the withdrawal. -/
def markAsSuccessTx (reference : ℕ) (withdrawal : Withdrawal) (transaction : WithdrawalTransaction)
    (walletId : WalletId) (db : WithdrawDb) : Option (WithdrawDb × Bool) := do
  let row ← db.rows[reference]?
  if row.withdrawal.status.isOpen then
    let wallet ← db.bank.wallets walletId
    -- Guarded debit: never takes the balance below zero.
    if withdrawal.amount ≤ toNumber wallet.balance then
      let bank ← db.bank.walletsUpdate walletId
        (Wallet.decrementBalance withdrawal.amount ∘ unlock withdrawal.amount)
      let bank := bank.ledgerCreate ⟨some reference, walletId, .debit, toUnits withdrawal.amount⟩
      let bank ← creditPlatformFeeInTx withdrawal.fee (some reference) bank
      let db := { db with bank := bank }
      let db := db.setWithdrawal reference ({ · with status := .completed })
      return (db.setTransaction reference ({ · with
        status := .completed
        metadata := successMetadata withdrawal.method transaction.metadata }), true)
    else none
  else return (db, false)

def rejectWithdrawalTx (reference : ℕ) (withdrawal : Withdrawal)
    (transaction : WithdrawalTransaction) (walletId : WalletId) (db : WithdrawDb) :
    Option (WithdrawDb × Bool) := do
  let row ← db.rows[reference]?
  if row.withdrawal.status.isOpen then
    let bank ← db.bank.walletsUpdate walletId (unlock withdrawal.amount)
    let db := { db with bank := bank }
    let db := db.setWithdrawal reference ({ · with status := .failed })
    return (db.setTransaction reference ({ · with
      status := .failed
      metadata := failureMetadata withdrawal.method transaction.metadata }), true)
  else return (db, false)

end WithdrawDb

end FarmBackend.Withdrawals
