import FarmBackend.DepositAgreement
import FarmBackend.IvorypayVerification

/-!
# Where an IvoryPay webhook is led (`handleIvorypayWebhookProcessing`)

The rows of one reference, which the webhook has been resolved to, and the ways in which the handler
ends. A throw ends it without a credit, as an early return does. The identifiers that it writes to the
rows on its way change nothing here.
-/

namespace FarmBackend.IvorypayCredits
open Decimal Fees Wallets
open IvorypayPayloads IvorypayVerification

set_option autoImplicit false

/-- What the handler reads of the `transactions` row. -/
structure Transaction where
  transactionType : TransactionType
  amount : ℤ
  isQrSale : Bool
  ofIvorypay : Bool
  amountUsd : Option ℚ
  amountFiat : Option ℚ
  amountFarm : Option ℚ
  refs : Refs

def Transaction.expected (t : Transaction) : Expected where
  usd := t.amountUsd <|> t.amountFiat
  farm := t.amountFarm <|> some (toNumber t.amount)

/-- What `resolveIvorypayDepositAndTransaction` returns; `deposit` says that there is a deposit row. -/
structure Resolved where
  reference : String
  transaction : Option Transaction
  deposit : Bool

/-- How the handler ends. -/
inductive Exit where
  | nothing
  | completeQr (v : Verified)
  | markFailedQr
  | finalizeDeposit
  | finalizeWithdrawal (success : Bool)
  | failDeposit

section Handler
variable (payload : Json) (r : Resolved)

/-- The exit for QR sales. -/
def handleQrSale (t : Transaction) (verified : Option Verified) : Exit :=
  if t.ofIvorypay = false then .nothing
  else if isIvorypaySuccessEvent payload then
    match verified with
    | none => .nothing
    | some v =>
      if isIvorypayVerifiedAmountAcceptable t.expected v.data then .completeQr v else .nothing
  else if isIvorypayFailureEvent payload then .markFailedQr
  else .nothing

/-- The check of the amount in the webhook, which throws only for USD. -/
def amountMismatch (t : Transaction) : Bool :=
  match t.amountUsd, webhookAmount payload with
  | some x, some y => decide (1 / 100 < |y - x|)
  | _, _ => false

def isWithdrawal : Bool :=
  r.transaction.any (fun t => t.transactionType == .withdrawal) || isWithdrawalEvent payload

/-- After the verification, whose record is written first: that throws without both rows. -/
def handleVerified (v : Verified) : Exit :=
  match r.transaction with
  | none => .nothing
  | some t =>
    if r.deposit = false then .nothing
    else if isIvorypayVerifiedAmountAcceptable t.expected v.data = false then .nothing
    else if amountMismatch payload t then .nothing
    else if isWithdrawal payload r then .finalizeWithdrawal (!isIvorypayFailureEvent payload)
    else .finalizeDeposit

/-- Where the verification did not confirm a success. -/
def handleUnverified : Exit :=
  match r.transaction with
  | some t => if t.transactionType = .deposit then .finalizeDeposit else .nothing
  | none => if r.deposit then .finalizeDeposit else .nothing

def handleRegular (verified : Option Verified) : Exit :=
  if isIvorypaySuccessEvent payload then
    match verified with
    | none => handleUnverified r
    | some v => handleVerified payload r v
  else if isIvorypayFailureEvent payload then
    if isWithdrawal payload r then .finalizeWithdrawal false else .failDeposit
  else .nothing

/-- The exit, given what the verification returns. -/
def handleResolved (verified : Option Verified) : Exit :=
  match r.transaction.filter Transaction.isQrSale with
  | some t => handleQrSale payload t verified
  | none => handleRegular payload r verified

/-- The first of the payload's identifiers that names the provider's side. -/
def incomingProviderRef : Option String :=
  (["transaction_id", "payment_id", "provider_reference", "transaction_reference", "reference",
    "id", "tx_ref", "trxref"].findSome? (identifier payload))

def refs : Refs := (r.transaction.map Transaction.refs).getD Refs.empty

def resolverProviderRef : Option String :=
  (refs r).providerRef <|> (refs r).providerTransactionId <|> (refs r).providerReference <|>
    incomingProviderRef payload

def verify (api : Api) : Option Verified :=
  verifyIvorypayWebhookTransaction api r.reference (resolverProviderRef payload r)
    (buildIvorypayReferenceCandidates payload (refs r))

/-- `locked` says that the lock of the reference was acquired. -/
def handleIvorypayWebhookProcessing (api : Api) (locked : Bool) : Exit :=
  if (rawReference payload).isNone ∨ locked = false then .nothing
  else handleResolved payload r (verify payload r api)

end Handler

/-! The rows, and what a wallet is credited with. -/

/-- The rows of the reference beside the wallets: of a deposit, or of a QR sale. `otherDeposit` says
that an identifier has found the deposit row of another reference. -/
inductive Rows where
  | deposit (reference : String) (s : Deposits.Store) (amountUsd : Option ℚ) (refs : Refs)
      (otherDeposit : Bool)
  | qrSale (reference : String) (sale : QrPayments.Sale) (till : QrPayments.Till)
      (amountFarm : Option ℚ) (refs : Refs) (hasDeposit : Bool)
      (hSale : sale.transaction.metadata.isQrSale = true)

namespace Rows

def transaction : Rows → Option Transaction
  | .deposit _ s amountUsd refs _ => s.transaction.map fun t =>
    { transactionType := t.transactionType
      amount := t.amount
      isQrSale := false
      ofIvorypay := t.metadata.provider == some .ivorypay
      amountUsd := amountUsd
      amountFiat := t.metadata.amountFiat
      amountFarm := t.metadata.amountFarm
      refs := refs }
  | .qrSale _ sale _ amountFarm refs _ _ => some
    { transactionType := sale.transaction.transactionType
      amount := sale.transaction.amount
      isQrSale := true
      ofIvorypay := sale.transaction.metadata.provider == some .ivorypay
      amountUsd := sale.transaction.metadata.amountUsd
      amountFiat := sale.transaction.metadata.amountFiat
      amountFarm := amountFarm
      refs := refs }

def resolved (rows : Rows) : Resolved :=
  match rows with
  | .deposit reference s _ _ otherDeposit =>
    ⟨reference, rows.transaction, s.deposit.isSome || otherDeposit⟩
  | .qrSale reference _ _ _ _ hasDeposit _ => ⟨reference, rows.transaction, hasDeposit⟩

end Rows

/-- What `complete` reads of the record. -/
def verifiedPayment (v : Verified) : QrPayments.VerifiedPayment :=
  let field (key : String) : Option (Option ℚ) :=
    if (v.data.get key).isNull then none else some (v.data.get key).number
  { paymentId := none
    status := (v.data.get "status").text
    reference := some v.reference
    amount := field "amount"
    paymentStatus := none
    orderId := none
    payCurrency := none
    priceCurrency := none
    priceAmount := none
    token := (v.data.get "token").text
    crypto := (v.data.get "crypto").text
    currency := (v.data.get "currency").text
    expectedAmountInCrypto := field "expectedAmountInCrypto"
    amountUsd := field "amount_usd" }

/-- What `qrPaymentsService.complete` does. -/
def completed (rule : FeeRule) (reference : String) (sale : QrPayments.Sale)
    (till : QrPayments.Till) (v : Verified) : Option (QrPayments.Store × Bool) :=
  (QrPayments.settlementOf reference .ivorypay (verifiedPayment v) (some sale)).bind fun p =>
    QrPayments.completeTx rule p ⟨some sale, till⟩

/-- The exit credits a wallet for the rows: the finaliser leaves an entry in the ledger, or the sale
is settled. -/
def Credits (o : Deposits.Outcome) (rows : Rows) : Exit → Prop
  | .finalizeDeposit =>
    match rows with
    | .deposit _ s _ _ _ => ∃ settlement, Deposits.finalized .webhook o s = some settlement ∧
      settlement.bank.ledger ≠ s.bank.ledger
    | .qrSale _ _ _ _ _ _ _ => False
  | .completeQr v =>
    match rows with
    | .deposit _ _ _ _ _ => False
    | .qrSale reference sale till _ _ _ _ =>
      ∃ s, completed o.merchantRule reference sale till v = some (s, true)
  | .nothing | .markFailedQr | .finalizeWithdrawal _ | .failDeposit => False

end FarmBackend.IvorypayCredits
