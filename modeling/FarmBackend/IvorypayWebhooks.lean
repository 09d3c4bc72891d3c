import FarmBackend.DepositOutcomes
import FarmBackend.FinalizeWithdrawal
import FarmBackend.IvorypayDeposits

/-!
# An IvoryPay webhook on its way to the wallets

The guard `verifyIvorypay`, `handleIvorypayWebhook` and the processings that it starts, on the rows of
all references beside the wallets. Logs, alerts, events and the reasons of failures are left out.
-/

namespace FarmBackend.IvorypayWebhooks
open Decimal Fees Wallets
open WithdrawCalls (trim)
open Deposits (DepositStatus)
open IvorypayPayloads IvorypayVerification
open IvorypayCredits (Exit Resolved handleResolved amountMismatch verifiedPayment)
open IvorypayDeposits (DepositRow TransactionRow Found incomingRefs incomingColumns recordVerified
  resolveIvorypayDepositAndTransaction)

set_option autoImplicit false

/-- A `data` member: what the handler reads of it, and what `JSON.stringify` makes of it. -/
structure Data where
  view : Json
  text : String

/-- A body. `dataText` is its own `data` member as text; `eventGiven` says that `event` or `status` is
truthy, `eventIsText` that neither stands for an event that is no string. -/
structure Body where
  payload : Json
  dataText : Option String
  eventGiven : Bool
  eventIsText : Bool

def Body.Carries (b : Body) (d : Data) : Prop :=
  b.dataText = some d.text ∧ data b.payload = d.view

/-- One processing: whether it gets the lock of the reference, what the provider answers, and what
else the finalisers depend on. -/
structure Processing where
  locked : Bool
  api : Api
  deposit : Deposits.Outcome

/-- `mac` is missing without a secret, `maxAmount` where the setting is no number. -/
structure Settings where
  mac : Option (String → List UInt8)
  maxAmount : Option ℚ

/-- `signature` is missing without a header; `processed` are the events in Redis. After the processing
that the handler waits for come those of the queue and of the fallback. -/
structure Env where
  signature : Option (List UInt8)
  processed : String × String × String → Bool
  first : Processing
  later : List Processing

/-! ## The rows -/

/-- The `Withdrawal` row of a reference, and what its finalisers read of the `transactions` row beside
the columns of all transactions. -/
structure WithdrawalPart where
  withdrawal : Withdrawals.Withdrawal
  senderWalletId : WalletId
  metadata : Withdrawals.Metadata
  createdAt : Time

/-- The same for a QR sale. -/
structure SalePart where
  qrPayment : QrPayments.QrPayment
  receipt : Option QrPayments.Receipt
  crypto : Option String
  payCurrency : Option String
  nowpaymentsPaymentId : Option String

structure Db where
  rows : IvorypayDeposits.Store
  withdrawals : String → Option WithdrawalPart
  sales : String → Option SalePart
  transactionId : String → ℕ
  nextDepositId : ℕ
  bank : Bank
  activeWallet : UserId → Option WalletId
  userWallet : UserId → Option WalletId
  nextWalletId : WalletId
  merchantUser : ℕ → Option UserId
  walletUser : WalletId → Option UserId
  totalSales : ℕ → Option ℤ

/-- Balances, locks and statuses. -/
structure Visible where
  wallets : WalletId → Option (ℤ × ℤ)
  deposits : List (String × DepositStatus)
  withdrawals : String → Option Withdrawals.WithdrawalStatus
  transactions : List (String × TransactionStatus)

namespace Db

def visible (db : Db) : Visible where
  wallets := fun id => (db.bank.wallets id).map fun w => (w.balance, w.lockedBalance)
  deposits := db.rows.deposits.map fun d => (d.reference, d.row.status)
  withdrawals := fun reference => (db.withdrawals reference).map fun p => p.withdrawal.status
  transactions := db.rows.transactions.map fun t => (t.reference, t.row.status)

def transaction (db : Db) (reference : String) : Option TransactionRow :=
  db.rows.transactions.find? (·.reference == reference)

def deposit (db : Db) (reference : String) : Option DepositRow :=
  db.rows.deposits.find? (·.reference == reference)

def updateTransaction (db : Db) (reference : String)
    (f : Deposits.DepositTransaction → Deposits.DepositTransaction) : Db :=
  { db with rows := db.rows.updateTransaction reference fun t => { t with row := f t.row } }

/-! ### What the finalisers of deposits see and write -/

def depositStore (db : Db) (reference : String) : Deposits.Store where
  deposit := (db.deposit reference).map DepositRow.row
  transaction := (db.transaction reference).map TransactionRow.row
  transactionId := db.transactionId reference
  nextDepositId := db.nextDepositId
  bank := db.bank
  activeWallet := db.activeWallet
  userWallet := db.userWallet
  nextWalletId := db.nextWalletId
  merchantUser := db.merchantUser
  credits := []

/-- The deposit row, which the finaliser may have rebuilt. -/
def writeDepositRow (db : Db) (reference : String) (d : Deposits.Deposit) : Db :=
  match db.deposit reference with
  | some _ => { db with rows := db.rows.updateDeposit reference fun row => { row with row := d } }
  | none => { db with rows := { db.rows with
      deposits := db.rows.deposits ++ [⟨reference, d, ⟨none, none, none, none, none, none⟩⟩] } }

def writeDeposit (db : Db) (reference : String) (s : Deposits.Store) : Db :=
  let db := match s.transaction with
    | none => db
    | some t => db.updateTransaction reference fun _ => t
  let db := match s.deposit with
    | none => db
    | some d => db.writeDepositRow reference d
  { db with
    nextDepositId := s.nextDepositId
    bank := s.bank
    activeWallet := s.activeWallet
    userWallet := s.userWallet
    nextWalletId := s.nextWalletId }

/-- A finaliser of deposits run to its end, and whether it has answered. -/
def runDeposit (db : Db) (o : Deposits.Outcome) (request : Deposits.Request) (reference : String) :
    Db × Bool :=
  let (s, call) := Deposits.program.advance o 7 (db.depositStore reference) (Deposits.enter request)
  (db.writeDeposit reference s, call.isDone)

/-! ### Those of withdrawals -/

/-- The one withdrawal, at the position 0. -/
def withdrawDb (db : Db) (t : TransactionRow) (p : WithdrawalPart) : Withdrawals.WithdrawDb where
  bank := db.bank
  activeWallet := db.activeWallet
  userNames := fun _ => ⟨none, none⟩
  rows := [⟨p.withdrawal, ⟨p.senderWalletId, t.row.status, t.row.amount, t.row.fee, t.row.netAmount,
    p.metadata, p.createdAt⟩⟩]

/-- The new entries of the ledger name the `transactions` row by its id. -/
def writeBank (db : Db) (reference : String) (bank : Bank) : Db :=
  { db with bank := { bank with
      ledger := db.bank.ledger ++ (bank.ledger.drop db.bank.ledger.length).map fun entry =>
        { entry with transactionId := some (db.transactionId reference) } } }

def writeWithdrawal (db : Db) (reference : String) (p : WithdrawalPart) (w : Withdrawals.WithdrawDb) :
    Db :=
  match w.rows with
  | [] => db
  | row :: _ =>
    let db := db.writeBank reference w.bank
    { db.updateTransaction reference fun t => { t with status := row.transaction.status } with
      withdrawals := Function.update db.withdrawals reference
        (some { p with withdrawal := row.withdrawal, metadata := row.transaction.metadata }) }

/-- The transaction of a withdrawal and its `Withdrawal` row are created together, so without the latter
there is nothing to finalise. -/
def finalizeWithdrawal (db : Db) (reference : String) (success : Bool) : Db × Bool :=
  match db.transaction reference, db.withdrawals reference with
  | some t, some p =>
    match FinalizeWithdrawal.finalizeWithdrawal 0 success (db.withdrawDb t p) with
    | none => (db, false)
    | some (w, _) => (db.writeWithdrawal reference p w, true)
  | _, _ => (db, true)

/-! ### Those of QR sales -/

def qrProvider : Deposits.Provider → QrPayments.QrProvider
  | .paystack => .paystack
  | .nowpayments => .nowpayments
  | .ivorypay => .ivorypay

def sale (db : Db) (reference : String) : Option QrPayments.Sale := do
  let t ← db.transaction reference
  let p ← db.sales reference
  return {
    transaction := {
      id := db.transactionId reference
      transactionType := t.row.transactionType
      status := t.row.status
      amount := t.row.amount
      fee := t.row.fee
      netAmount := t.row.netAmount
      receiverWalletId := t.row.receiverWalletId
      metadata := {
        isQrSale := t.isQrSale
        provider := t.row.metadata.provider.map qrProvider
        amountFiat := t.row.metadata.amountFiat
        amountUsd := t.amountUsd
        crypto := p.crypto
        payCurrency := p.payCurrency
        nowpaymentsPaymentId := p.nowpaymentsPaymentId } }
    qrPayment := p.qrPayment
    receipt := p.receipt }

def saleStore (db : Db) (reference : String) : QrPayments.Store :=
  ⟨db.sale reference, ⟨db.bank, db.walletUser, db.totalSales⟩⟩

def writeSale (db : Db) (reference : String) (s : QrPayments.Store) : Db :=
  match s.sale with
  | none => db
  | some sale =>
    let db := db.updateTransaction reference fun t =>
      { t with
        status := sale.transaction.status
        fee := sale.transaction.fee
        netAmount := sale.transaction.netAmount }
    { db with
      sales := Function.update db.sales reference ((db.sales reference).map fun p =>
        { p with qrPayment := sale.qrPayment, receipt := sale.receipt })
      bank := s.till.bank
      totalSales := s.till.totalSales }

def completeQr (db : Db) (rule : FeeRule) (reference : String) (v : Verified) : Db × Bool :=
  match QrPayments.settlementOf reference .ivorypay (verifiedPayment v) (db.sale reference) with
  | none => (db, true)
  | some p =>
    match QrPayments.completeTx rule p (db.saleStore reference) with
    | none => (db, false)
    | some (s, _) => (db.writeSale reference s, true)

def markFailedQr (db : Db) (reference : String) : Db :=
  db.writeSale reference (QrPayments.markFailedTx (db.saleStore reference)).1

end Db

/-! ## The processing -/

/-- What the handler ends with, and whether that goes through. -/
def finish (o : Processing) (db : Db) (reference : String) : Exit → Db × Bool
  | .nothing => (db, true)
  | .completeQr v => db.completeQr o.deposit.merchantRule reference v
  | .markFailedQr => (db.markFailedQr reference, true)
  | .finalizeDeposit => db.runDeposit o.deposit (.finalize .webhook) reference
  | .finalizeWithdrawal success => db.finalizeWithdrawal reference success
  | .failDeposit => db.runDeposit o.deposit (.failDeposit none) reference

/-- The handler throws before its end: where the record of the verification cannot be written, and at
the check of the amount in the webhook. -/
def throwsOnTheWay (payload : Json) (r : Resolved) (verified : Option Verified) : Bool :=
  isIvorypaySuccessEvent payload &&
    match verified, r.transaction with
    | none, _ => false
    | some _, none => true
    | some v, some t => !t.isQrSale && (!r.deposit ||
        (isIvorypayVerifiedAmountAcceptable t.expected v.data && amountMismatch payload t))

/-- `handleIvorypayWebhookProcessing`, and whether it returns. The finaliser that runs where nothing is
verified is caught. -/
def handleIvorypayWebhookProcessing (o : Processing) (payload : Json) (db : Db) : Db × Bool :=
  match rawReference payload with
  | none => (db, true)
  | some reference =>
    if o.locked = false then (db, true)
    else
      let found := resolveIvorypayDepositAndTransaction db.rows payload reference
      let written := db.rows.write found (incomingRefs payload) (incomingColumns payload)
      let verified := IvorypayCredits.verify payload found.resolved o.api
      let recorded := { db with rows := recordVerified written payload found verified }
      let (ended, answered) :=
        finish o recorded found.reference (handleResolved payload found.resolved verified)
      (ended, !throwsOnTheWay payload found.resolved verified && (answered || verified.isNone &&
        isIvorypaySuccessEvent payload))

/-! ## The handler -/

/-- `normalizeAmount`, which makes 0 of what is no number. -/
def normalizeAmount (amount : Json) : ℚ := (amount.number.map Deposits.normalizeAmount).getD 0

section Handler
variable (payload : Json)

/-- The key of an event. -/
def getEventId : Option (String × String × String) :=
  let identity := Json.firstOf [payload.get "id", payload.get "event_id", payload.get "eventId",
    (data payload).get "id", (data payload).get "event_id", (data payload).get "eventId",
    (data payload).get "reference", payload.get "reference"]
  let event := Json.firstOf [payload.get "event", payload.get "type"]
  let status := Json.firstOf [(data payload).get "status", (data payload).get "state",
    payload.get "status"]
  (identity.text.filter (· ≠ "")).map fun identity =>
    (identity, (trim (event.text.getD "")).toLower, (trim (status.text.getD "")).toLower)

/-- A channel is given that is not `crypto`. -/
def routedElsewhere : Bool :=
  (Json.firstOf [payload.get "channel", (data payload).get "channel"]).text.any fun channel =>
    channel ≠ "" && channel.toLower ≠ "crypto"

def detectPotentialFraud (settings : Settings) : Bool :=
  settings.maxAmount.any fun limit =>
    limit < normalizeAmount (Json.firstOf [(data payload).get "amount", payload.get "amount"])

/-- The first check of the amount, on the row of the incoming reference itself. -/
def amountDiffers (db : Db) (reference : String) : Bool :=
  match db.transaction reference, webhookAmount payload with
  | some t, some amount =>
    let expected := (t.amountUsd <|> t.row.metadata.amountFiat).getD (toNumber t.row.amount)
    decide (1 / 100 < |amount - expected|)
  | _, _ => false

end Handler

/-- A reference and some event. -/
def verifyProviderPayload (b : Body) : Bool :=
  (getIvorypayReference b.payload).isSome && b.eventGiven

/-! What `tryProcessWebhookSynchronously` asks afterwards. -/

def endsWith (words : List String) (s : String) : Bool :=
  words.any fun word => word.toList.isSuffixOf s.toList

def mentions (words : List String) (s : String) : Bool :=
  words.any fun word => s.toList.tails.any fun rest => word.toList.isPrefixOf rest

def finalized (b : Body) (db : Db) (reference : String) : Bool :=
  let event := eventName b.payload
  let status := ((Json.firstOf [(data b.payload).get "status", b.payload.get "status"]).text.getD
    "").toLower
  let transaction := (db.transaction reference).map fun t => t.row
  let deposit := (db.deposit reference).map fun d => d.row.status
  let withdrawal := (db.withdrawals reference).map fun p => p.withdrawal.status
  let isSuccess := endsWith ["success", "completed"] event ||
    ["success", "completed"].contains status
  let isFailure :=
    endsWith ["failed", "failure", "cancelled", "canceled", "expired", "reversed"] event ||
      ["failed", "failure", "cancelled", "canceled", "expired", "reversed"].contains status
  let isWithdrawal := transaction.any (fun t => t.transactionType == .withdrawal) ||
    mentions ["transfer", "payout", "withdrawal"] event
  -- On an event that is no string this throws, and is caught.
  b.eventIsText &&
    if isSuccess then
      if isWithdrawal then withdrawal == some .completed
      else deposit == some .success || transaction.any fun t => t.status == .completed
    else if isFailure then
      if isWithdrawal then withdrawal == some .failed
      else deposit == some .failed || transaction.any fun t =>
        t.status == .failed || t.status == .cancelled || t.status == .reversed
    else false

def handleIvorypayWebhook (settings : Settings) (env : Env) (b : Body) (db : Db) : Db :=
  if (getEventId b.payload).any env.processed then db
  else if verifyProviderPayload b = false then db
  else if routedElsewhere b.payload then db
  else if detectPotentialFraud b.payload settings then db
  else
    match getIvorypayReference b.payload with
    | none => db
    | some reference =>
      if isIvorypaySuccessEvent b.payload && amountDiffers b.payload db reference then db
      else
        let found := resolveIvorypayDepositAndTransaction db.rows b.payload reference
        let (ended, answered) := handleIvorypayWebhookProcessing env.first b.payload db
        if answered && finalized b ended found.reference then ended
        else env.later.foldl (fun db o => (handleIvorypayWebhookProcessing o b.payload db).1) ended

/-- The guard. -/
def verifyIvorypay (settings : Settings) (env : Env) (b : Body) : Bool :=
  match settings.mac, env.signature, b.dataText with
  | some mac, some signature, some text => signature == mac text
  | _, _, _ => false

/-- What a webhook does to the rows. -/
def receive (settings : Settings) (env : Env) (b : Body) (db : Db) : Db :=
  if verifyIvorypay settings env b then handleIvorypayWebhook settings env b db else db

/-! ## The claim and its condition -/

/-- The signature over these data covers what is done. -/
def Covered (settings : Settings) (d : Data) : Prop :=
  ∀ (env : Env) (db : Db) (b b' : Body), b.Carries d → b'.Carries d →
    (receive settings env b db).visible = (receive settings env b' db).visible

/-- The places in the data where the reference may stand. -/
def referencesOf (view : Json) : List Json :=
  ["reference", "provider_reference", "payment_reference", "transaction_reference", "tx_ref",
    "trxref", "payment_id", "transaction_id", "id"].map view.get

/-- The data name an amount above the limit. -/
def Excessive (settings : Settings) (d : Data) : Prop :=
  ¬(d.view.get "amount").isNull ∧
    ∃ limit, settings.maxAmount = some limit ∧ limit < normalizeAmount (d.view.get "amount")

/-- The data name a blank reference. -/
def Nameless (d : Data) : Prop :=
  ∃ text, (Json.firstOf (referencesOf d.view)).text = some text ∧ trim text = ""

/-- The data are refused whatever stands beside them. -/
def Refused (settings : Settings) (d : Data) : Prop :=
  settings.mac = none ∨ Excessive settings d ∨ Nameless d

end FarmBackend.IvorypayWebhooks
