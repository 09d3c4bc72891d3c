import FarmBackend.DepositReference
import FarmBackend.Fees

/-!
# Deposits (`deposit/deposit.service.ts`, `webhook/webhook.service.ts`)

The two rows of one deposit reference and the transactions that write them. Both references are
unique, so there is at most one row of each kind at a time. The `transactions` row is never
created again once it is deleted, and its id is kept beside it; a `Deposit` row can be deleted and
rebuilt, each time under a fresh id. Currencies, payment methods and the texts of ledger entries
and notifications are left out.
-/

namespace FarmBackend.Deposits
open Decimal Fees Wallets

set_option autoImplicit false

/-- The service a finaliser belongs to; each has its own copy. -/
inductive Service where
  | webhook
  | deposit
  deriving DecidableEq, Repr

/-- Any other provider reads as none. -/
inductive Provider where
  | paystack
  | nowpayments
  | ivorypay
  deriving DecidableEq, Repr

structure Deposit where
  id : ℕ
  userId : UserId
  amount : ℚ
  provider : Option Provider
  status : DepositStatus
  updatedAt : Time
  deriving DecidableEq

/-- The JSON of the `transactions` row. -/
structure Metadata where
  userId : Option UserId
  provider : Option Provider
  amountFiat : Option ℚ
  amountFarm : Option ℚ
  qrGuestPayment : Bool
  merchantId : Option ℕ
  platformFeeType : Option String
  platformFeePercent : Option ℚ
  platformFee : Option ℚ
  failureReason : Option String
  deriving DecidableEq

structure DepositTransaction where
  transactionType : TransactionType
  status : TransactionStatus
  amount : ℤ
  fee : ℤ
  netAmount : ℤ
  receiverWalletId : Option WalletId
  metadata : Metadata
  updatedAt : Option Time
  deriving DecidableEq

/-- The rows of one reference beside the wallets. `activeWallet` is the user's first active wallet,
`userWallet` the first of type `user`, `merchantUser` the owner of a merchant. `credits` is history:
the wallet and the amount of every credit of the deposit. -/
structure Store where
  deposit : Option Deposit
  transaction : Option DepositTransaction
  transactionId : ℕ
  nextDepositId : ℕ
  bank : Bank
  activeWallet : UserId → Option WalletId
  userWallet : UserId → Option WalletId
  nextWalletId : WalletId
  merchantUser : ℕ → Option UserId
  credits : List (WalletId × ℤ)

/-- `normalizeAmount`: two decimals. -/
def normalizeAmount (x : ℚ) : ℚ := mathRound (x * 100) / 100

def resolveDepositCreditAmount (t : DepositTransaction) (deposit : Option Deposit) : ℚ :=
  let amounts := [deposit.map Deposit.amount, t.metadata.amountFiat, t.metadata.amountFarm,
    some (toNumber t.amount)]
  ((amounts.reduceOption.map normalizeAmount).find? fun x => decide (0 < x)).getD 0

namespace DepositTransaction

def isDeposit (t : DepositTransaction) : Bool := t.transactionType == .deposit

/-- `pending` or `processing`. -/
def isOpen (t : DepositTransaction) : Bool := t.status == .pending || t.status == .processing

def txPending (t : DepositTransaction) : Bool := t.isDeposit && t.isOpen

def txComplete (t : DepositTransaction) : Bool := t.isDeposit && t.status == .completed

/-- The statuses the column can hold that finalising refuses. -/
def txFailed (t : DepositTransaction) : Bool :=
  t.isDeposit && (t.status == .failed || t.status == .cancelled || t.status == .reversed)

/-- `failDeposit` leaves the other statuses alone. -/
def canFail (t : DepositTransaction) : Bool :=
  !(t.status == .failed || t.status == .cancelled || t.status == .completed)

/-- The handler of NOWPayments events matches only its own payments. -/
def acceptsNowpayments (t : DepositTransaction) : Bool :=
  (t.transactionType == .deposit || t.transactionType == .merchantPayment) &&
    t.metadata.provider == some .nowpayments

def completed (receiver : Option WalletId) (t : DepositTransaction) : DepositTransaction :=
  { t with status := .completed, receiverWalletId := receiver }

end DepositTransaction

/-- What a finaliser of a pending deposit credits. -/
def creditAmount (service : Service) (d : Deposit) (t : DepositTransaction) : ℚ :=
  match service with
  | .webhook => normalizeAmount (resolveDepositCreditAmount t (some d))
  | .deposit => normalizeAmount d.amount

/-- What it credits when there is no deposit row. -/
def transactionCreditAmount (service : Service) (t : DepositTransaction) : ℚ :=
  match service with
  | .webhook => normalizeAmount (resolveDepositCreditAmount t none)
  | .deposit => normalizeAmount (toNumber t.amount)

/-- The deposit a finaliser rebuilds from the transaction. -/
def rebuilt (service : Service) (id : ℕ) (userId : UserId) (t : DepositTransaction) (now : Time) :
    Deposit where
  id := id
  userId := userId
  amount := toNumber t.amount
  provider := some <|
    match service, t.metadata.provider with
    | .webhook, some .ivorypay | .deposit, some .ivorypay => .ivorypay
    | .deposit, some .nowpayments => .nowpayments
    | _, _ => .paystack
  status := .pending
  updatedAt := now

namespace Store

def Credited (s : Store) : Prop := s.credits ≠ []

instance (s : Store) : Decidable s.Credited := inferInstanceAs (Decidable (_ ≠ _))

/-- The deposit row with this id, if it is still the row of the reference. -/
def depositAt (id : ℕ) (s : Store) : Option Deposit := s.deposit.filter fun d => d.id == id

/-- `deposit.updateMany({ where: { id, status: 'PENDING' }, data: { status: 'SUCCESS' } })`;
`none` when it counts no row. -/
def claimDeposit (id : ℕ) (now : Time) (s : Store) : Option Store :=
  match s.depositAt id with
  | none => none
  | some d =>
    if d.status = .pending then
      some { s with deposit := some { d with status := .success, updatedAt := now } }
    else none

/-- `transactions.update({ where: { id } })`, which throws when the row is missing. -/
def updateTransaction (f : DepositTransaction → DepositTransaction) (s : Store) : Option Store :=
  match s.transaction with
  | none => none
  | some t => some { s with transaction := some (f t) }

/-- `deposit.update({ where: { id } })` to `FAILED`. -/
def failDepositRow (id : ℕ) (now : Time) (s : Store) : Option Store :=
  match s.depositAt id with
  | none => none
  | some d => some { s with deposit := some { d with status := .failed, updatedAt := now } }

def createWallet (userId : UserId) (s : Store) : Store :=
  let id := s.nextWalletId
  { s with
    bank := { s.bank with wallets := Function.update s.bank.wallets id (some ⟨0, 0, false⟩) }
    activeWallet := Function.update s.activeWallet userId (some id)
    userWallet := Function.update s.userWallet userId (some id)
    nextWalletId := id + 1 }

/-- The user's active wallet, created when there is none. -/
def findOrCreateWallet (userId : UserId) (s : Store) : Store × WalletId :=
  match s.activeWallet userId with
  | some id => (s, id)
  | none => (s.createWallet userId, s.nextWalletId)

/-- Increment the wallet and write the ledger entry, whose transaction must exist. -/
def credit (walletId : WalletId) (amount : ℚ) (s : Store) : Option Store := do
  let _ ← s.transaction
  let bank ← s.bank.walletsUpdate walletId (Wallet.incrementBalance amount)
  return { s with
    bank := bank.ledgerCreate ⟨some s.transactionId, walletId, .credit, toUnits amount⟩
    credits := s.credits ++ [(walletId, toUnits amount)] }

/-- The end of a settlement: the transaction that was read is completed unless it was. -/
def completeTransaction (read : DepositTransaction) (receiver : Option WalletId) (s : Store) :
    Option Store :=
  if read.status ≠ .completed then s.updateTransaction (·.completed receiver) else some s

def finalizePendingDepositTx (service : Service) (d : Deposit) (t : DepositTransaction) (now : Time)
    (s : Store) : Option (Store × Bool) :=
  let (s, walletId) := s.findOrCreateWallet d.userId
  match s.claimDeposit d.id now with
  | none => some (s, false)
  | some s => do
    let s ← s.credit walletId (creditAmount service d t)
    match service, t.isDeposit with
    | .webhook, false => return (s, true)
    | _, _ =>
      let s ← s.completeTransaction t (t.receiverWalletId <|> some walletId)
      return (s, true)

def creditPendingDepositTx (service : Service) (d : Deposit) (t : DepositTransaction) (now : Time)
    (s : Store) : Option (Store × Bool) :=
  match s.claimDeposit d.id now with
  | none => some (s, false)
  | some s => do
    let (s, walletId) := s.findOrCreateWallet d.userId
    let s ← s.credit walletId (creditAmount service d t)
    let s ← s.completeTransaction t (some walletId)
    return (s, true)

/-- The wallet `creditPendingTransactionDeposit` looks for: the receiver's, else the user's. -/
def transactionWallet (t : DepositTransaction) (s : Store) : Option (Store × WalletId) :=
  match t.receiverWalletId.filter fun id => (s.bank.wallets id).isSome with
  | some id => some (s, id)
  | none => t.metadata.userId.map fun userId => s.findOrCreateWallet userId

def creditPendingTransactionTx (service : Service) (t : DepositTransaction) (s : Store) :
    Option (Store × Bool) :=
  match s.transactionWallet t with
  | none => some (s, false)
  | some (s, walletId) =>
    match s.transaction with
    | none => some (s, false)
    | some row =>
      -- The claim asks only that the transaction is not completed.
      if row.status = .completed then some (s, false)
      else do
        let s ← s.updateTransaction (·.completed (some walletId))
        let s ← s.credit walletId (transactionCreditAmount service t)
        return (s, true)

def finalizeMerchantQrTx (rule : FeeRule) (d : Deposit) (t : DepositTransaction) (merchantId : ℕ)
    (now : Time) (s : Store) : Option (Store × Bool) := do
  let userId ← s.merchantUser merchantId
  let walletId ← s.userWallet userId
  let platform ← s.bank.platform
  if userId = d.userId then
    match s.claimDeposit d.id now with
    | none => return (s, false)
    | some s =>
      let amount := normalizeAmount d.amount
      let fee := normalizeAmount (computeFee rule amount 8)
      let merchantNet := normalizeAmount (amount - fee)
      let s ← s.credit walletId merchantNet
      let bank ← s.bank.walletsUpdate platform (Wallet.incrementBalance fee)
      let bank := bank.ledgerCreate ⟨some s.transactionId, platform, .credit, toUnits fee⟩
      let s ← { s with bank := bank }.updateTransaction fun row =>
        { row.completed (some walletId) with
          transactionType := .merchantPayment
          fee := toUnits fee
          netAmount := toUnits merchantNet
          metadata := { t.metadata with
            platformFeeType := some "merchant_sale"
            platformFeePercent := some rule.percent
            platformFee := some fee } }
      return (s, true)
  else none

def failReadDeposit (deposit : Option Deposit) (now : Time) (s : Store) : Option Store :=
  match deposit.filter fun d => d.status == .pending with
  | none => some s
  | some d => s.failDepositRow d.id now

/-- The transaction, under the status that was read. -/
def failReadTransaction (reason : Option String) (transaction : Option DepositTransaction)
    (s : Store) : Option Store :=
  match transaction.filter DepositTransaction.canFail with
  | none => some s
  | some t => s.updateTransaction fun row =>
    { row with
      status := .failed
      metadata := { t.metadata with failureReason := reason <|> t.metadata.failureReason } }

/-- The transaction of `failDeposit`: both rows are written by id, under what was read of them. -/
def failDepositTx (reason : Option String) (deposit : Option Deposit)
    (transaction : Option DepositTransaction) (now : Time) (s : Store) : Option Store := do
  let s ← s.failReadDeposit deposit now
  s.failReadTransaction reason transaction

/-- `transactions.updateMany` on a pending or processing row, to `failed`. -/
def failOpenTransaction (s : Store) : Store :=
  { s with
    transaction := s.transaction.map fun t => if t.isOpen then { t with status := .failed } else t }

/-- `deposit.updateMany` on a `PENDING` row, to `FAILED`. -/
def failPendingDeposit (now : Time) (s : Store) : Store :=
  { s with
    deposit := s.deposit.map fun d =>
      if d.status = .pending then { d with status := .failed, updatedAt := now } else d }

/-- The failure transaction of `handleNowpaymentsWebhook`: both writes ask for the status. -/
def nowpaymentsFailureTx (now : Time) (s : Store) : Store :=
  s.failOpenTransaction.failPendingDeposit now

/-- The cleanup's first deletion: both rows by id. The ledger entries go with the transaction. -/
def deletePendingTx (id : ℕ) (s : Store) : Option Store := do
  let _ ← s.depositAt id
  let _ ← s.transaction
  return { s with
    deposit := none
    transaction := none
    bank := { s.bank with
      ledger := s.bank.ledger.filter fun e => e.transactionId != some s.transactionId } }

/-- The cleanup's second deletion: the deposit row by id. -/
def deleteFailed (id : ℕ) (s : Store) : Option Store := do
  let _ ← s.depositAt id
  return { s with deposit := none }

/-- Ten minutes. -/
def staleAge : Time := 10 * 60 * 1000

/-- The cleanup's first query, for this reference. -/
def staleTransaction (now : Time) (s : Store) : Option DepositTransaction :=
  s.transaction.filter fun t => t.txFailed && t.updatedAt.any fun at' => at' + staleAge < now

/-- Its second query. -/
def staleFailedDeposit (now : Time) (s : Store) : Option Deposit :=
  s.deposit.filter fun d => d.status == .failed && d.updatedAt + staleAge < now

end Store

end FarmBackend.Deposits
