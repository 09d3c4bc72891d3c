import FarmBackend.WithdrawCalls

/-!
# What an IvoryPay webhook names

A payload is any JSON. The identifiers are taken from the places that the handler knows, or are
searched for in all of it.
-/

namespace FarmBackend.IvorypayPayloads
open WithdrawCalls (trim)

set_option autoImplicit false

/-! A scalar carries its text and what `Number` makes of it, unless that is not finite. -/

mutual

inductive Json where
  | null
  | scalar (text : String) (number : Option ℚ)
  | object (fields : Fields)

inductive Fields where
  | nil
  | cons (key : String) (value : Json) (rest : Fields)

end

namespace Json

def Fields.get (key : String) : Fields → Json
  | .nil => .null
  | .cons name value rest => if name = key then value else Fields.get key rest

/-- `x?.key`. -/
def get (key : String) : Json → Json
  | .object fields => Fields.get key fields
  | _ => .null

/-- `x?.toString()`. -/
def text : Json → Option String
  | .null => none
  | .scalar text _ => some text
  | .object _ => some "[object Object]"

/-- `Number(x)` of what is not null. -/
def number : Json → Option ℚ
  | .scalar _ number => number
  | _ => none

def isNull : Json → Bool
  | .null => true
  | _ => false

/-- `a ?? b ?? …`. -/
def firstOf (values : List Json) : Json := (values.find? fun value => !value.isNull).getD .null

theorem firstOf_cons (x : Json) (values : List Json) :
    firstOf (x :: values) = if x.isNull then firstOf values else x := by
  unfold firstOf
  cases hNull : x.isNull <;> simp [hNull]

theorem firstOf_append (xs values : List Json) :
    firstOf (xs ++ values) = if (firstOf xs).isNull then firstOf values else firstOf xs := by
  induction xs with
  | nil => rfl
  | cons x xs ih =>
    rw [List.cons_append, firstOf_cons, firstOf_cons, ih]
    cases hNull : x.isNull <;> simp [hNull]

theorem isNull_of_text {x : Json} {text : String} (h : x.text = some text) : x.isNull = false := by
  cases x with
  | null => cases h
  | scalar _ _ | object _ => rfl

end Json

/-- The strings of a list that are not blank, trimmed, each once. -/
def distinct (values : List (Option String)) : List String :=
  ((values.reduceOption.map trim).filter (· ≠ "")).eraseDups

/-! Identifiers that are searched for. -/

def normalizeKey (key : String) : String :=
  String.ofList (key.toLower.toList.filter fun c => ('a' ≤ c && c ≤ 'z') || ('0' ≤ c && c ≤ '9'))

def matchKey (key : String) : Option String :=
  match normalizeKey key with
  | "transactionid" | "txnid" => some "transaction_id"
  | "paymentid" => some "payment_id"
  | "checkoutid" => some "checkout_id"
  | "providerreference" => some "provider_reference"
  | "merchantreference" => some "merchant_reference"
  | "invoiceid" => some "invoice_id"
  | "paymentreference" => some "payment_reference"
  | "txref" => some "tx_ref"
  | "trxref" => some "trxref"
  | "transactionreference" => some "transaction_reference"
  | "checkouturl" => some "checkout_url"
  | "paymentlink" => some "payment_link"
  | "paymenturl" => some "payment_url"
  | "reference" => some "reference"
  | "id" => some "id"
  | _ => none

mutual

/-- The entries of an object and of the objects in it, in the order in which `scan` meets them. -/
def scan : Json → List (String × Json)
  | .object fields => scanFields fields
  | _ => []

def scanFields : Fields → List (String × Json)
  | .nil => []
  | .cons key value rest => (key, value) :: (scan value ++ scanFields rest)

end

/-- The keys of `identifiers`, in their order. -/
def identifierNames : List String :=
  ["transaction_id", "payment_id", "checkout_id", "provider_reference", "merchant_reference",
    "invoice_id", "tx_ref", "trxref", "transaction_reference", "payment_reference", "reference",
    "id", "checkout_url", "payment_link", "payment_url"]

/-- `scanProviderIdentifiers(data)[name]`. -/
def identifier (data : Json) (name : String) : Option String :=
  ((scan data).find? fun entry =>
    matchKey entry.1 = some name && entry.2.text.any (· ≠ "")).bind fun entry => entry.2.text

def extractProviderIdentifiers (data : Json) : List (Option String) :=
  identifierNames.map (identifier data)

/-! Identifiers that are looked up. -/

def isHex (c : Char) : Bool :=
  ('0' ≤ c && c ≤ '9') || ('a' ≤ c && c ≤ 'f') || ('A' ≤ c && c ≤ 'F')

def uuidPattern : List (Char → Bool) :=
  let hex (n : ℕ) := List.replicate n isHex
  let dash : Char → Bool := (· == '-')
  hex 8 ++ dash :: hex 4 ++ dash :: (fun c => '1' ≤ c && c ≤ '5') :: hex 3 ++
    dash :: (fun c => ['8', '9', 'a', 'b', 'A', 'B'].contains c) :: hex 3 ++ dash :: hex 12

def matchesPattern : List (Char → Bool) → List Char → Bool
  | [], _ => true
  | _ :: _, [] => false
  | p :: pattern, c :: text => p c && matchesPattern pattern text

/-- The first place where the pattern matches. -/
def findUuid : List Char → Option (List Char)
  | [] => none
  | c :: text =>
    if matchesPattern uuidPattern (c :: text) then some ((c :: text).take uuidPattern.length)
    else findUuid text

def extractUuidFromString (value : String) : Option String :=
  (findUuid value.toList).map String.ofList

/-- The metadata of a transaction that are identifiers of its payment. -/
structure Refs where
  providerRef : Option String
  providerTransactionId : Option String
  providerReference : Option String
  providerPaymentId : Option String
  providerCheckoutId : Option String
  paymentReference : Option String
  merchantReference : Option String
  txRef : Option String
  trxref : Option String
  transactionReference : Option String
  ivorypayWithdrawalId : Option String
  withdrawalId : Option String
  transferId : Option String
  payoutId : Option String

namespace Refs

def empty : Refs := ⟨none, none, none, none, none, none, none, none, none, none, none, none, none, none⟩

def candidates (refs : Refs) : List (Option String) :=
  [refs.providerRef, refs.providerTransactionId, refs.providerReference, refs.ivorypayWithdrawalId,
    refs.ivorypayWithdrawalId <|> refs.withdrawalId, refs.withdrawalId, refs.transferId,
    refs.payoutId]

end Refs

section Payload
variable (payload : Json)

def data : Json := payload.get "data"

def getIvorypayReference : Option String :=
  ((Json.firstOf
    ((["reference", "provider_reference", "payment_reference", "transaction_reference", "tx_ref",
        "trxref", "payment_id", "transaction_id", "id"].map fun key => (data payload).get key) ++
      [payload.get "reference", payload.get "id"])).text.map trim).filter (· ≠ "")

/-- The places where a checkout URL may stand. -/
def checkoutUrls : List Json :=
  [(data payload).get "checkoutUrl", (data payload).get "payment_link",
    (data payload).get "paymentUrl", ((data payload).get "collectionDetails").get "checkoutUrl",
    payload.get "checkoutUrl", payload.get "payment_link", payload.get "paymentUrl"]

def buildIvorypayReferenceCandidates (refs : Refs) : List String :=
  distinct
    (([(data payload).get "id", payload.get "id", (data payload).get "transaction_id",
        (data payload).get "payment_id", (data payload).get "tx_ref", (data payload).get "trxref",
        (data payload).get "transaction_reference", (data payload).get "transactionReference",
        (data payload).get "reference", payload.get "reference",
        (data payload).get "withdrawal_id", (data payload).get "withdrawalId",
        (data payload).get "transfer_id", (data payload).get "transferId",
        (data payload).get "payout_id", (data payload).get "payoutId"] ++
          checkoutUrls payload).map Json.text ++ refs.candidates ++
      (checkoutUrls payload).map fun url => url.text.bind extractUuidFromString)

/-- `rawReference`. -/
def rawReference : Option String :=
  getIvorypayReference payload <|> (buildIvorypayReferenceCandidates payload Refs.empty).head?

/-! What the webhook reports. -/

def eventName : String :=
  ((Json.firstOf [payload.get "event", payload.get "status"]).text.getD "").toLower

def statusName : String :=
  ((Json.firstOf [(data payload).get "status", payload.get "status",
    (data payload).get "state"]).text.getD "unknown").toLower

def isIvorypaySuccessEvent : Bool :=
  ["payment.success", "transaction.completed", "cryptocollection.success",
    "fiatcollection.success", "cryptopayout.success", "fiatpayout.success", "payment.completed",
    "transaction.success", "withdrawal.success", "withdrawal.completed", "transfer.success",
    "transfer.completed", "payout.success", "payout.completed", "completed", "success"].contains
      (eventName payload) ||
    ["success", "completed"].contains (statusName payload)

def isIvorypayFailureEvent : Bool :=
  ["payment.failed", "transaction.failed", "cryptocollection.failed", "fiatcollection.failed",
    "cryptopayout.failed", "fiatpayout.failed", "payment.cancelled", "transaction.cancelled",
    "cancelled", "failed", "withdrawal.failed", "transfer.failed", "payout.failed"].contains
      (eventName payload) ||
    ["failed", "cancelled", "expired", "abandoned", "declined", "reversed", "incomplete",
      "mismatch"].contains (statusName payload)

def isWithdrawalEvent : Bool :=
  ["cryptopayout.success", "cryptopayout.failed", "fiatpayout.success", "fiatpayout.failed",
    "withdrawal.success", "withdrawal.failed", "withdrawal.completed", "transfer.success",
    "transfer.failed", "transfer.completed", "payout.success", "payout.failed",
    "payout.completed"].contains (eventName payload)

/-- `Number(payload.data?.amount ?? payload.amount)`. -/
def webhookAmount : Option ℚ :=
  (Json.firstOf [(data payload).get "amount", payload.get "amount"]).number

end Payload

end FarmBackend.IvorypayPayloads
