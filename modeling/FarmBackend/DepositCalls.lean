import FarmBackend.Deposits
import FarmBackend.Interleaving

/-!
# The calls that settle a deposit

`WebhookService.finalizeDeposit`, `DepositService.finalizeSuccessfulDeposit`, `failDeposit`, the
failure transaction of `handleNowpaymentsWebhook` and `cleanupStaleFailedDeposits`, each cut at its
database calls. A transaction is one step: the rows it writes stay locked until it commits.
-/

namespace FarmBackend.Deposits
open Fees Wallets Interleaving

set_option autoImplicit false

/-- `verified`: the provider confirms the payment; `dbFails`: the statement throws where the
service catches it. -/
structure Outcome where
  now : Time
  merchantRule : FeeRule
  verified : Bool
  dbFails : Bool

inductive Request where
  | finalize (service : Service)
  | failDeposit (reason : Option String)
  | nowpaymentsFailure
  | cleanupStaleFailedDeposits

/-- A running call, named after its next step, with what it has read; `done` carries what a
finaliser or a failure returns. -/
inductive Call where
  | finalize (service : Service)
  | readTransaction (service : Service) (deposit : Option Deposit)
  | verify (deposit : Option Deposit) (t : DepositTransaction)
  | rebuild (service : Service) (userId : UserId) (t : DepositTransaction)
  | finalizePendingDeposit (service : Service) (d : Deposit) (t : DepositTransaction)
  | creditPendingDeposit (service : Service) (d : Deposit) (t : DepositTransaction)
  | completePendingTransaction (t : DepositTransaction)
  | receiverWallet (userId : UserId)
  | completeUpdate (receiver : Option WalletId)
  | creditPendingTransaction (service : Service)
  | creditPendingTransactionTx (service : Service) (t : DepositTransaction)
  | finalizeMerchantQr (d : Deposit) (t : DepositTransaction)
  | failDeposit (reason : Option String)
  | failReadTransaction (reason : Option String) (deposit : Option Deposit)
  | failDepositTx (reason : Option String) (deposit : Option Deposit)
      (transaction : Option DepositTransaction)
  | nowpaymentsFailure
  | nowpaymentsMetadata (metadata : Metadata)
  | nowpaymentsFailureTx
  | staleTransactions
  | stalePendingDeposit
  | deletePending (id : ℕ)
  | staleFailedDeposits
  | deleteFailed (id : ℕ)
  | done (answer : Bool)

def Call.settling : Call → Bool
  | .rebuild _ _ _ | .finalizePendingDeposit _ _ _ | .creditPendingDeposit _ _ _
  | .creditPendingTransaction _ | .creditPendingTransactionTx _ _ | .finalizeMerchantQr _ _ => true
  | _ => false

def enter : Request → Call
  | .finalize service => .finalize service
  | .failDeposit reason => .failDeposit reason
  | .nowpaymentsFailure => .nowpaymentsFailure
  | .cleanupStaleFailedDeposits => .staleTransactions

/-- The branch for guest payments by QR code, which only `DepositService` has. -/
def routeMerchantQr (deposit : Option Deposit) (t : DepositTransaction) : Call :=
  let complete := deposit.any fun d => d.status == .success
  if t.status = .completed ∧ (t.metadata.platformFeeType = some "merchant_sale" ∨ complete) then
    .done true
  else
    match deposit.filter fun d => d.status == .pending with
    | none => .done false
    | some d => if t.txPending ∨ t.txComplete then .finalizeMerchantQr d t else .done false

/-- What a finaliser decides on the rows it has read. -/
def route (service : Service) (deposit : Option Deposit) (t : DepositTransaction) : Call :=
  if t.txFailed then .done false
  else if service = .deposit ∧ t.metadata.qrGuestPayment then routeMerchantQr deposit t
  else
    match deposit with
    | none => if t.txPending then .creditPendingTransaction service else .done false
    | some d =>
      match d.status with
      | .pending =>
        if t.txPending then .finalizePendingDeposit service d t
        else .creditPendingDeposit service d t
      | .success =>
        if t.txComplete then .done true
        else if t.txPending then .completePendingTransaction t
        else .done false
      -- A deposit in any other status counts as absent here.
      | .processing | .failed =>
        if t.txPending then .creditPendingTransaction service else .done false

/-- A missing deposit is rebuilt when the transaction names its user. -/
def routeOrRebuild (service : Service) (deposit : Option Deposit) (t : DepositTransaction) : Call :=
  match deposit, t.metadata.userId with
  | none, some userId => .rebuild service userId t
  | _, _ => route service deposit t

/-- The provider `finalizeSuccessfulDeposit` asks before it credits. -/
def verifyingProvider (deposit : Option Deposit) (t : DepositTransaction) : Option Provider :=
  t.metadata.provider <|> deposit.bind Deposit.provider

def step (o : Outcome) (s : Store) : Call → Option (Store × Call)
  | .finalize service => some (s, .readTransaction service s.deposit)
  | .readTransaction service deposit => do
    let t ← s.transaction
    match service with
    | .webhook => return (s, routeOrRebuild .webhook deposit t)
    | .deposit => return (s, .verify deposit t)
  | .verify deposit t =>
    let asked := verifyingProvider deposit t
    if (asked = some .paystack ∨ asked = some .nowpayments) ∧ o.verified = false then
      some (s, .done false)
    else some (s, routeOrRebuild .deposit deposit t)
  -- The reference is unique: the insert throws when a deposit exists by now.
  | .rebuild service userId t =>
    match s.deposit with
    | some _ => none
    | none =>
      let d := rebuilt service s.nextDepositId userId t o.now
      some ({ s with deposit := some d, nextDepositId := s.nextDepositId + 1 },
        route service (some d) t)
  | .finalizePendingDeposit service d t => do
    let (s, ok) ← s.finalizePendingDepositTx service d t o.now
    return (s, .done ok)
  | .creditPendingDeposit service d t =>
    if t.status = .pending then do
      let (s, ok) ← s.creditPendingDepositTx service d t o.now
      return (s, .done ok)
    else some (s, .done false)
  | .completePendingTransaction t =>
    match t.receiverWalletId, s.deposit with
    | none, some d => some (s, .receiverWallet d.userId)
    | _, _ => some (s, .completeUpdate none)
  | .receiverWallet userId => some (s, .completeUpdate (s.activeWallet userId))
  | .completeUpdate receiver => do
    let s ← s.updateTransaction fun row => row.completed (receiver <|> row.receiverWalletId)
    return (s, .done true)
  | .creditPendingTransaction service =>
    match s.transaction with
    | none => some (s, .done false)
    | some t =>
      if t.isDeposit = false then some (s, .done false)
      else if t.status = .completed then some (s, .done true)
      else if t.isOpen then some (s, .creditPendingTransactionTx service t)
      else some (s, .done false)
  | .creditPendingTransactionTx service t => do
    let (s, ok) ← s.creditPendingTransactionTx service t
    return (s, .done ok)
  | .finalizeMerchantQr d t => do
    let merchantId ← t.metadata.merchantId
    let (s, ok) ← s.finalizeMerchantQrTx o.merchantRule d t merchantId o.now
    return (s, .done ok)
  | .failDeposit reason => some (s, .failReadTransaction reason s.deposit)
  | .failReadTransaction reason deposit =>
    if deposit.isNone ∧ s.transaction.isNone then some (s, .done false)
    else some (s, .failDepositTx reason deposit s.transaction)
  | .failDepositTx reason deposit transaction => do
    let s ← s.failDepositTx reason deposit transaction o.now
    return (s, .done true)
  | .nowpaymentsFailure =>
    match s.transaction with
    | none => some (s, .done false)
    | some t =>
      if t.acceptsNowpayments ∧ o.verified then some (s, .nowpaymentsMetadata t.metadata)
      else some (s, .done false)
  | .nowpaymentsMetadata metadata => do
    let s ← s.updateTransaction fun row => { row with metadata := metadata }
    return (s, .nowpaymentsFailureTx)
  | .nowpaymentsFailureTx => some (s.nowpaymentsFailureTx o.now, .done true)
  | .staleTransactions =>
    match s.staleTransaction o.now with
    | none => some (s, .staleFailedDeposits)
    | some _ => some (s, .stalePendingDeposit)
  | .stalePendingDeposit =>
    match s.deposit.filter fun d => d.status == .pending with
    | none => some (s, .staleFailedDeposits)
    | some d => some (s, .deletePending d.id)
  -- Both deletions are tried: an error is logged and the cleanup goes on.
  | .deletePending id =>
    if o.dbFails then some (s, .staleFailedDeposits)
    else some ((s.deletePendingTx id).getD s, .staleFailedDeposits)
  | .staleFailedDeposits =>
    match s.staleFailedDeposit o.now with
    | none => some (s, .done true)
    | some d => some (s, .deleteFailed d.id)
  | .deleteFailed id =>
    if o.dbFails then some (s, .done true)
    else some ((s.deleteFailed id).getD s, .done true)
  | .done _ => none

def program : Program Store Call Request Outcome := ⟨enter, step⟩

end FarmBackend.Deposits
