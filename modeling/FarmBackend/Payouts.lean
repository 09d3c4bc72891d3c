import FarmBackend.PayoutCalls
import FarmBackend.Ticket

/-!
# One payout per withdrawal

The calls of `WithdrawService` interleaved over one store at READ COMMITTED. The log keeps, in
order, every committed lock and every invocation of a provider's payout-creating call.
-/

namespace FarmBackend.Payouts
open Decimal Wallets Rows Withdrawals Interleaving Awaiting WithdrawCalls PayoutCalls

set_option autoImplicit false

inductive LogEntry where
  | locked (reference : ℕ) (amount : ℚ)
  | initiateTransfer (payload : TransferPayload)
  | createPayout (payload : PayoutPayload)
  deriving DecidableEq

/-- The provider is asked to pay the withdrawal out. -/
def LogEntry.pays (reference : ℕ) (entry : LogEntry) : Bool :=
  match entry with
  | .locked _ _ => false
  | .initiateTransfer payload => payload.reference == reference
  | .createPayout payload => payload.reference == reference

structure PayoutStore where
  db : WithdrawDb
  log : List LogEntry

/-- The time, the limits, what the services and providers answer, and whether a statement fails:
then its write has not happened, or it has and its answer is lost. -/
structure Outcome where
  now : Time
  limits : DailyLimits
  service : (α : Type) → ServiceCall α → Reply α
  initiateTransfer : Except Thrown TransferData
  createPayout : Reply PayoutResponse
  failure : Option (Failure × Bool)

section Exec

def runQuery {α : Type} (now : Time) (db : WithdrawDb) (query : Query α) : α :=
  match query with
  | .withdrawalFindUnique reference => db.rows[reference]?.map Row.withdrawal
  | .withdrawalWithUser reference =>
    db.rows[reference]?.map fun row => (row.withdrawal, db.userNames row.withdrawal.userId)
  | .transactionFindUnique reference => db.rows[reference]?.map Row.transaction
  | .activeWallet userId => do
    let walletId ← db.activeWallet userId
    let wallet ← db.bank.wallets walletId
    return (walletId, wallet)
  | .transactionByPayoutId payoutId => do
    let reference ← db.rows.findIdx? fun row =>
      row.transaction.metadata.nowpaymentsPayoutId == some payoutId
    let row ← db.rows[reference]?
    return (reference, row.transaction)
  | .payoutCandidates =>
    let candidates := db.rows.zipIdx.filter fun (row, _) =>
      (row.transaction.status == .pending || row.transaction.status == .processing) &&
        decide (row.transaction.createdAt + 2 * 60000 < now) &&
        row.transaction.metadata.provider == some .nowpayments
    (candidates.take 50).map fun (row, reference) => (reference, row.transaction.metadata)

def newRow (now : Time) (new : NewWithdrawal) : Row where
  withdrawal := ⟨new.userId, new.amount, new.fee, new.settlement, new.method, new.accountName,
    new.accountNumber, new.bankName, new.phoneNumber, .pending, now⟩
  transaction := ⟨new.walletId, .pending, toUnits new.amount, toUnits new.fee,
    toUnits new.settlement, new.metadata, now⟩

/-- The claim of both submissions: `updateMany` where the status is `PENDING`. -/
def claimPending (reference : ℕ) (db : WithdrawDb) : WithdrawDb × ℕ :=
  match db.rows[reference]? with
  | none => (db, 0)
  | some row =>
    if row.withdrawal.status = .pending then
      (db.setWithdrawal reference ({ · with status := .processing }), 1)
    else (db, 0)

/-- A statement's result, unless it fails. -/
def attempt {α : Type} (o : Outcome) (store : PayoutStore) (result : PayoutStore × Reply α) :
    PayoutStore × Reply α :=
  match o.failure with
  | none => result
  | some (e, committed) => (if committed then result.1 else store, .error e)

def createWithdrawalTx (o : Outcome) (store : PayoutStore) (new : NewWithdrawal) :
    PayoutStore × Reply ℕ :=
  match store.db.lockFundsInTx new.walletId new.userId new.amount o.limits o.now with
  | none => (store, .error (.badRequest "Insufficient balance for this withdrawal"))
  | some db =>
    (⟨{ db with rows := db.rows ++ [newRow o.now new] },
      store.log ++ [.locked db.rows.length new.amount]⟩, .ok db.rows.length)

/-- The two rows are created together, so the transaction is never missing. -/
def settleTx (store : PayoutStore) (transaction : Option WithdrawalTransaction)
    (tx : WithdrawalTransaction → WithdrawDb → Option (WithdrawDb × Bool)) :
    PayoutStore × Reply Bool :=
  match transaction.bind fun transaction => tx transaction store.db with
  | none => (store, .error (.badRequest "Wallet balance is insufficient to finalize withdrawal"))
  | some (db, claimed) => ({ store with db := db }, .ok claimed)

def exec (o : Outcome) (store : PayoutStore) {γ : Type} (op : Op γ) : PayoutStore × γ :=
  match op with
  | .query query => attempt o store (store, .ok (runQuery o.now store.db query))
  | .service call => (store, o.service _ call)
  | .createWithdrawalTx new => attempt o store (createWithdrawalTx o store new)
  | .claimProcessing reference =>
    let (db, count) := claimPending reference store.db
    attempt o store ({ store with db := db }, .ok count)
  | .claimPayoutTx reference metadata =>
    let (db, count) := claimPending reference store.db
    if count = 1 then
      attempt o store ({ store with
        db := db.setTransaction reference ({ · with metadata := metadata }) }, .ok true)
    else attempt o store (store, .ok false)
  | .updateMetadata reference metadata =>
    match store.db.rows[reference]? with
    | none => (store, .error (.other "Record to update not found."))
    | some _ => attempt o store ({ store with
        db := store.db.setTransaction reference ({ · with metadata := metadata }) }, .ok ())
  | .markAsSuccessTx reference withdrawal transaction walletId =>
    attempt o store (settleTx store transaction fun transaction =>
      WithdrawDb.markAsSuccessTx reference withdrawal transaction walletId)
  | .rejectWithdrawalTx reference withdrawal transaction walletId =>
    attempt o store (settleTx store transaction fun transaction =>
      WithdrawDb.rejectWithdrawalTx reference withdrawal transaction walletId)
  | .initiateTransfer payload =>
    ({ store with log := store.log ++ [.initiateTransfer payload] }, o.initiateTransfer)
  | .createPayout payload =>
    ({ store with log := store.log ++ [.createPayout payload] }, o.createPayout)
  | .rejectWithdrawal _ _ => (store, ())

end Exec

/-- Who may ask; the reconciler runs by the clock. -/
inductive Request where
  | createWithdrawal (userId : UserId) (dto : CreateWithdrawDto) (preAuthorized : Bool)
  | processWithdrawal (reference : ℕ)
  | approve (reference : ℕ) (adminId : String)
  | verify (reference : ℕ) (verificationCode : String)
  | webhook (payload : PayoutWebhook)
  | reconcile

def entry (request : Request) : AsyncFn Unit :=
  match request with
  | .createWithdrawal userId dto preAuthorized => createWithdrawal userId dto preAuthorized
  | .processWithdrawal reference => processWithdrawal reference
  | .approve reference adminId => do
    let _ ← approveNowpaymentsCryptoWithdrawal reference adminId
  | .verify reference verificationCode => do
    let _ ← verifyNowpaymentsCryptoWithdrawal reference verificationCode
  | .webhook payload => do
    let _ ← reconcileNowpaymentsPayoutWebhook payload
  | .reconcile => reconcileNowpaymentsPayouts

abbrev program : Program PayoutStore (Running Thrown Op) Request Outcome :=
  asyncProgram entry exec

end FarmBackend.Payouts
