import FarmBackend.Interleaving
import FarmBackend.IvorypayCredits

/-!
# The rows that IvoryPay webhooks are resolved to

Any set of deposits and their transactions, and the calls of the handler. The reads that resolve a
webhook are one step, each transaction is one, the verification is one, and so is what the handler ends
with. The lock can expire while a call still runs, so it is an outcome.
-/

namespace FarmBackend.IvorypayDeposits
open Interleaving Wallets
open IvorypayPayloads IvorypayVerification IvorypayCredits

set_option autoImplicit false

/-- A transaction at the provider, with the reference that was sent when it was created. -/
structure ProviderTransaction where
  id : String
  createdFor : String
  deriving DecidableEq

/-- What does not change: the URL parser and the transaction that the provider knows under an
identifier. -/
structure Provider where
  parseUrl : String → Option (Option String × List String)
  owner : String → Option ProviderTransaction

/-- The columns of a deposit that are identifiers of its payment. -/
structure Columns where
  providerRef : Option String
  providerTransactionId : Option String
  providerReference : Option String
  checkoutId : Option String
  paymentReference : Option String
  merchantReference : Option String

structure DepositRow where
  reference : String
  row : Deposits.Deposit
  columns : Columns

structure TransactionRow where
  reference : String
  row : Deposits.DepositTransaction
  amountUsd : Option ℚ
  isQrSale : Bool
  refs : Refs

/-- `credits` is history: the reference of each credit, and the provider's transaction that was
verified for it. -/
structure Store where
  deposits : List DepositRow
  transactions : List TransactionRow
  credits : List (String × Option ProviderTransaction)

/-- What `resolveIvorypayDepositAndTransaction` returns. -/
structure Found where
  reference : String
  transaction : Option TransactionRow
  deposit : Option DepositRow

/-- `get` is what the provider answers about a transaction that it knows, and there is no key where it
is none; `commits` says that the transaction of the finaliser goes through. -/
structure Outcome where
  locked : Bool
  get : Option (String → Endpoint → Response)
  commits : Bool

inductive Call where
  | resolve (payload : Json)
  | persist (payload : Json) (found : Found)
  | verify (payload : Json) (found : Found)
  | record (payload : Json) (found : Found) (verified : Option Verified)
  | finish (reference : String) (exit : Exit) (verified : Option ProviderTransaction)
  | done

/-! Matching. -/

def Columns.values (columns : Columns) : List (Option String) :=
  [columns.providerRef, columns.providerTransactionId, columns.providerReference,
    columns.checkoutId, columns.paymentReference, columns.merchantReference]

/-- The paths of the metadata that are searched. -/
def refValues (refs : Refs) : List (Option String) :=
  [refs.providerRef, refs.providerTransactionId, refs.providerReference, refs.providerPaymentId,
    refs.providerCheckoutId, refs.paymentReference, refs.merchantReference, refs.txRef, refs.trxref,
    refs.transactionReference, refs.ivorypayWithdrawalId, refs.withdrawalId, refs.transferId,
    refs.payoutId]

def TransactionRow.matches (t : TransactionRow) (candidate : String) : Bool :=
  t.reference == candidate || (refValues t.refs).contains (some candidate)

def DepositRow.matches (d : DepositRow) (candidate : String) : Bool :=
  d.reference == candidate || d.columns.values.contains (some candidate)

def resolveCandidate (s : Store) (candidate : String) : Option Found :=
  match s.transactions.find? (·.matches candidate) with
  | some t => some
    { reference := t.reference
      transaction := some t
      deposit := s.deposits.find? fun d => d.reference == t.reference || d.matches candidate }
  | none => (s.deposits.find? (·.matches candidate)).map fun d =>
    { reference := d.reference
      transaction := s.transactions.find? fun t => t.reference == d.reference
      deposit := some d }

/-- The candidates, the first of them `rawReference`. -/
def resolveCandidates (payload : Json) (reference : String) : List String :=
  distinct (some reference :: getIvorypayReference payload ::
    (buildIvorypayReferenceCandidates payload Refs.empty).map some ++
      extractProviderIdentifiers payload)

def resolveIvorypayDepositAndTransaction (s : Store) (payload : Json) (reference : String) : Found :=
  ((resolveCandidates payload reference).findSome? (resolveCandidate s)).getD ⟨reference, none, none⟩

def TransactionRow.view (t : TransactionRow) : IvorypayCredits.Transaction where
  transactionType := t.row.transactionType
  amount := t.row.amount
  isQrSale := t.isQrSale
  ofIvorypay := t.row.metadata.provider == some .ivorypay
  amountUsd := t.amountUsd
  amountFiat := t.row.metadata.amountFiat
  amountFarm := t.row.metadata.amountFarm
  refs := t.refs

def Found.resolved (f : Found) : Resolved :=
  ⟨f.reference, f.transaction.map TransactionRow.view, f.deposit.isSome⟩

/-! What is written. -/

namespace Store

def updateTransaction (s : Store) (reference : String) (f : TransactionRow → TransactionRow) :
    Store :=
  { s with transactions := s.transactions.map fun t => if t.reference = reference then f t else t }

def updateDeposit (s : Store) (reference : String) (f : DepositRow → DepositRow) : Store :=
  { s with deposits := s.deposits.map fun d => if d.reference = reference then f d else d }

/-- The metadata of the transaction and the columns of the deposit that were found, as they were read
apart from what is new. -/
def write (s : Store) (f : Found) (refs : Refs → Refs) (columns : Columns → Columns) : Store :=
  let s := match f.transaction with
    | none => s
    | some t => s.updateTransaction t.reference fun row => { row with refs := refs t.refs }
  match f.deposit with
  | none => s
  | some d => s.updateDeposit d.reference fun row => { row with columns := columns row.columns }

end Store

/-- `incomingProviderReference`. -/
def incomingProviderReference (payload : Json) : Option String :=
  identifier payload "provider_reference" <|> identifier payload "reference" <|>
    identifier payload "transaction_reference"

def incomingRefs (payload : Json) (refs : Refs) : Refs :=
  { refs with
    providerRef := incomingProviderRef payload <|> refs.providerRef
    providerTransactionId := incomingProviderRef payload <|> refs.providerTransactionId
    providerReference := incomingProviderReference payload <|> refs.providerReference
    providerCheckoutId := identifier payload "checkout_id" <|> refs.providerCheckoutId
    providerPaymentId := identifier payload "payment_reference" <|> refs.providerPaymentId
    merchantReference := identifier payload "merchant_reference" <|> refs.merchantReference }

def incomingColumns (payload : Json) (columns : Columns) : Columns where
  providerRef := incomingProviderRef payload <|> columns.providerRef
  providerTransactionId := incomingProviderRef payload <|> columns.providerTransactionId
  providerReference := incomingProviderReference payload <|> columns.providerReference
  checkoutId := identifier payload "checkout_id" <|> columns.checkoutId
  paymentReference := identifier payload "payment_reference" <|> columns.paymentReference
  merchantReference := identifier payload "merchant_reference" <|> columns.merchantReference

section Record
variable (payload : Json) (v : Verified)

/-- `payload?.data?.key`. -/
def dataText (key : String) : Option String := ((data payload).get key).text

def recordCheckoutId : Option String :=
  identifier v.data "checkout_id" <|> dataText payload "checkout_id" <|>
    dataText payload "checkoutId"

def recordPaymentReference : Option String :=
  identifier v.data "payment_reference" <|> identifier v.data "reference" <|>
    dataText payload "payment_reference" <|> dataText payload "reference" <|>
      (payload.get "reference").text

def recordMerchantReference : Option String :=
  identifier v.data "merchant_reference" <|> dataText payload "merchant_reference" <|>
    dataText payload "merchantReference"

/-- `nextMetadata`; the record is known by the candidate that has found it. -/
def recordRefs (refs : Refs) : Refs :=
  { refs with
    providerRef := some v.candidate
    providerTransactionId := some v.candidate
    providerReference := identifier v.data "provider_reference" <|> some v.candidate
    providerCheckoutId := recordCheckoutId payload v <|> refs.providerCheckoutId
    paymentReference := recordPaymentReference payload v <|> refs.paymentReference
    merchantReference := recordMerchantReference payload v <|> refs.merchantReference
    providerPaymentId := identifier v.data "payment_id" <|> refs.providerPaymentId
    txRef := identifier v.data "tx_ref" <|> refs.txRef
    trxref := identifier v.data "trxref" <|> refs.trxref
    transactionReference := identifier v.data "transaction_reference" <|> refs.transactionReference }

def recordColumns (columns : Columns) : Columns where
  providerRef := some v.candidate
  providerTransactionId := some v.candidate
  providerReference := identifier v.data "provider_reference" <|> some v.candidate
  checkoutId := recordCheckoutId payload v <|> columns.checkoutId
  paymentReference := recordPaymentReference payload v <|> columns.paymentReference
  merchantReference := recordMerchantReference payload v <|> columns.merchantReference

end Record

/-- The transaction that writes the record: not for QR sales, and it throws without both rows. -/
def recordVerified (s : Store) (payload : Json) (f : Found) (verified : Option Verified) : Store :=
  match verified, f.transaction, f.deposit with
  | some v, some t, some _ =>
    if isIvorypaySuccessEvent payload && !t.isQrSale then
      s.write f (recordRefs payload v) (recordColumns payload v)
    else s
  | _, _, _ => s

/-! The provider. -/

variable (provider : Provider)

/-- It answers an identifier with the transaction that it knows under it. -/
def respond (get : String → Endpoint → Response) (id : String) (endpoint : Endpoint) : Response :=
  if (provider.owner id).isSome then get id endpoint else .notFound

def apiOf (o : Outcome) : Api := ⟨provider.parseUrl, o.get.map (respond provider)⟩

/-- The provider's transaction that a candidate is looked up as. -/
def ownerOf (candidate : String) : Option ProviderTransaction :=
  (extractLookupIdentifier ⟨provider.parseUrl, none⟩ candidate).bind provider.owner

/-! The calls. -/

/-- A row whose finaliser goes through is credited and settled. -/
def finalizeDeposit (o : Outcome) (s : Store) (reference : String)
    (verified : Option ProviderTransaction) : Store :=
  match s.transactions.find? (·.reference == reference) with
  | none => s
  | some t =>
    let deposit := s.deposits.find? (·.reference == reference)
    if (Deposits.routeOrRebuild .webhook (deposit.map DepositRow.row) t.row).settling && o.commits then
      { (s.updateTransaction reference fun t => { t with row := { t.row with status := .completed } })
          with
        deposits := s.deposits.map fun d =>
          if d.reference = reference then { d with row := { d.row with status := .success } } else d
        credits := (reference, verified) :: s.credits }
    else s

/-- `qrPaymentsService.complete`, where its checks and its transaction go through. -/
def completeQr (o : Outcome) (s : Store) (reference : String)
    (verified : Option ProviderTransaction) : Store :=
  match s.transactions.find? (·.reference == reference) with
  | none => s
  | some t =>
    if QrPayments.isSettleable t.row.status && o.commits then
      { (s.updateTransaction reference fun t => { t with row := { t.row with status := .completed } })
          with credits := (reference, verified) :: s.credits }
    else s

def failDeposit (s : Store) (reference : String) : Store :=
  (s.updateTransaction reference fun t =>
    if t.row.canFail then { t with row := { t.row with status := .failed } } else t).updateDeposit
      reference fun d =>
        if d.row.status = .pending then { d with row := { d.row with status := .failed } } else d

/-- The ends that credit nothing to a deposit: those of a withdrawal are left out. -/
def finish (o : Outcome) (s : Store) (reference : String) (verified : Option ProviderTransaction) :
    Exit → Store
  | .finalizeDeposit => finalizeDeposit o s reference verified
  | .completeQr _ => completeQr o s reference verified
  | .failDeposit | .markFailedQr => failDeposit s reference
  | .nothing | .finalizeWithdrawal _ => s

def step (o : Outcome) (s : Store) : Call → Option (Store × Call)
  | .resolve payload =>
    match rawReference payload with
    | none => some (s, .done)
    | some reference =>
      some (s, if o.locked then
        .persist payload (resolveIvorypayDepositAndTransaction s payload reference) else .done)
  | .persist payload found =>
    some (s.write found (incomingRefs payload) (incomingColumns payload), .verify payload found)
  | .verify payload found =>
    some (s, .record payload found (IvorypayCredits.verify payload found.resolved (apiOf provider o)))
  | .record payload found verified =>
    some (recordVerified s payload found verified,
      .finish found.reference (handleResolved payload found.resolved verified)
        (verified.bind fun v => ownerOf provider v.candidate))
  | .finish reference exit verified => some (finish o s reference verified exit, .done)
  | .done => none

def program : Program Store Call Json Outcome := ⟨.resolve, step provider⟩

/-! The claim and its condition. -/

/-- An identifier is no other transaction's than that of this reference. -/
def own (identifier reference : String) : Bool :=
  (ownerOf provider identifier).all fun p => p.createdFor == reference

/-- The identifiers that the handler takes from a payload. -/
def names (payload : Json) : List String :=
  buildIvorypayReferenceCandidates payload Refs.empty ++
    (extractProviderIdentifiers payload ++
      [dataText payload "checkout_id", dataText payload "checkoutId",
        dataText payload "payment_reference", dataText payload "reference",
        (payload.get "reference").text, dataText payload "merchant_reference",
        dataText payload "merchantReference"]).reduceOption

/-- The rows as they are when a deposit has been created: what the provider knows by their reference
and their identifiers was created for them. -/
structure Opened (s : Store) : Prop where
  reference : ∀ t ∈ s.transactions, own provider t.reference t.reference = true
  refs : ∀ t ∈ s.transactions, ∀ x, some x ∈ refValues t.refs → own provider x t.reference = true
  credits : s.credits = []

/-- Each credit is of the deposit that its payment was made for, so no payment is credited to two. -/
structure Consistent (s : Store) : Prop where
  own : ∀ credit ∈ s.credits, ∀ p, credit.2 = some p → p.createdFor = credit.1
  once : ∀ credit ∈ s.credits, ∀ other ∈ s.credits, ∀ p,
    credit.2 = some p → other.2 = some p → credit.1 = other.1

/-- The provider answers with the transaction's own record: its identifiers are of that transaction. -/
def Honest (_ : Outcome) (_ : Store) : Call → Prop
  | .record _ _ (some v) => ∀ x ∈ (extractProviderIdentifiers v.data).reduceOption,
    ((ownerOf provider v.candidate).all fun p => own provider x p.createdFor) = true
  | _ => True

/-- A webhook that is resolved to a transaction names no identifier of another one's payment. -/
def Heeds (_ : Outcome) (s : Store) : Call → Prop
  | .resolve payload => ∀ x ∈ names payload,
    (((rawReference payload).bind fun reference =>
      (resolveIvorypayDepositAndTransaction s payload reference).transaction).all fun t =>
        own provider x t.reference) = true
  | _ => True

instance (o : Outcome) (s : Store) (call : Call) : Decidable (Honest provider o s call) :=
  match call with
  | .record _ _ (some _) => inferInstanceAs (Decidable (∀ x ∈ _, _))
  | .record _ _ none | .resolve _ | .persist _ _ | .verify _ _ | .finish _ _ _ | .done =>
    .isTrue trivial

instance (o : Outcome) (s : Store) (call : Call) : Decidable (Heeds provider o s call) :=
  match call with
  | .resolve _ => inferInstanceAs (Decidable (∀ x ∈ _, _))
  | .record _ _ _ | .persist _ _ | .verify _ _ | .finish _ _ _ | .done => .isTrue trivial

end FarmBackend.IvorypayDeposits
