import FarmBackend.DepositRuns

/-!
# Crypto deposits by NOWPayments

`createNowpaymentsCryptoDeposit`, the webhooks of its payment and `getNowpaymentsCryptoDepositStatus`,
interleaved, where each await of the first may throw. The JSON column of the transaction is kept beside
the rows: what finalising reads of it is in the rows, and finalising writes none of it, since a crypto
deposit is no QR payment. Texts of the provider are in lower case.
-/

namespace FarmBackend.Nowpayments
open Wallets Interleaving

set_option autoImplicit false

/-- The answer of `createPayment`. -/
structure Payment where
  status : Option String
  address : String
  amount : ℚ
  currency : String
  deriving DecidableEq

/-- The answer of `getPayment`. -/
structure Verified where
  paymentId : ℕ
  orderId : ℕ
  priceCurrency : String
  payCurrency : String
  priceAmount : ℚ
  status : Option String
  deriving DecidableEq

/-- The JSON of the `transactions` row, but for what is in `Deposits.Metadata`. -/
structure PaymentJson where
  amountUsd : ℚ
  payCurrency : String
  currencyFiat : Option String
  farmUsdRate : Option ℚ
  nowpaymentsPaymentId : Option ℕ
  nowpaymentsPaymentStatus : Option String
  nowpaymentsAddress : Option String
  nowpaymentsAmount : Option ℚ
  nowpaymentsCurrency : Option String
  nowpaymentsInitializationError : Bool
  nowpaymentsLastWebhookAt : Option Time
  nowpaymentsLastCheckedAt : Option Time
  nowpaymentsPaymentResponse : Option Verified
  deriving DecidableEq

/-- The deposit: who makes it, its reference, and the id that the provider gives its payment. -/
structure Order where
  userId : UserId
  reference : ℕ
  paymentId : ℕ

/-- The request, trimmed and in lower case. -/
structure DepositDto where
  priceAmount : ℚ
  priceCurrency : String
  payCurrency : String

def MIN_NOWPAYMENTS_CRYPTO_DEPOSIT_USD : ℚ := 2

/-- `/^[a-z0-9]{2,20}$/`. -/
def isCurrencyCode (code : String) : Bool :=
  let chars := code.toList
  decide (2 ≤ chars.length ∧ chars.length ≤ 20) &&
    chars.all fun c => decide ('a' ≤ c ∧ c ≤ 'z' ∨ '0' ≤ c ∧ c ≤ '9')

def DepositDto.allowed (dto : DepositDto) : Prop :=
  MIN_NOWPAYMENTS_CRYPTO_DEPOSIT_USD ≤ dto.priceAmount ∧ dto.priceCurrency = "usd" ∧
    isCurrencyCode dto.payCurrency = true

instance (dto : DepositDto) : Decidable dto.allowed := inferInstanceAs (Decidable (_ ∧ _ ∧ _))

/-- What the awaits before the rows are created bring: the wallet, the FARM and the rate. -/
structure Quote where
  walletId : WalletId
  amountFarm : ℚ
  farmUsdRate : ℚ

/-- What is known when the rows are created. -/
structure Init where
  dto : DepositDto
  quote : Quote

def Init.json (i : Init) : PaymentJson where
  amountUsd := i.dto.priceAmount
  payCurrency := i.dto.payCurrency
  currencyFiat := some "USD"
  farmUsdRate := some i.quote.farmUsdRate
  nowpaymentsPaymentId := none
  nowpaymentsPaymentStatus := none
  nowpaymentsAddress := none
  nowpaymentsAmount := none
  nowpaymentsCurrency := none
  nowpaymentsInitializationError := false
  nowpaymentsLastWebhookAt := none
  nowpaymentsLastCheckedAt := none
  nowpaymentsPaymentResponse := none

def Init.paidJson (i : Init) (paymentId : ℕ) (payment : Payment) : PaymentJson :=
  { i.json with
    currencyFiat := some i.dto.priceCurrency
    nowpaymentsPaymentId := some paymentId
    nowpaymentsPaymentStatus := some (payment.status.getD "waiting")
    nowpaymentsAddress := some payment.address
    nowpaymentsAmount := some payment.amount
    nowpaymentsCurrency := some payment.currency }

/-- The JSON that the catch writes: nothing of the payment is in it. -/
def Init.failedJson (i : Init) : PaymentJson :=
  { i.json with
    currencyFiat := none
    farmUsdRate := none
    nowpaymentsInitializationError := true }

/-- `returned` and `abandoned` are history: that `createPayment` returned, and that the catch committed. -/
structure Store where
  deposits : Deposits.Store
  json : Option PaymentJson
  returned : Bool
  abandoned : Bool

/-- `fails`: the statement throws. `payment` and `verified` are the provider's answers, unless it throws. -/
structure Outcome where
  now : Time
  fails : Bool
  quote : Option Quote
  payment : Option Payment
  verified : Option Verified
  deposits : Deposits.Outcome

namespace Store

def createRows (order : Order) (i : Init) (now : Time) (s : Store) : Store :=
  { s with
    deposits := { s.deposits with
      deposit := some
        { id := s.deposits.nextDepositId
          userId := order.userId
          amount := i.quote.amountFarm
          provider := some .nowpayments
          status := .pending
          updatedAt := now }
      transaction := some
        { transactionType := .deposit
          status := .pending
          amount := toUnits i.quote.amountFarm
          fee := 0
          netAmount := toUnits i.quote.amountFarm
          receiverWalletId := some i.quote.walletId
          metadata :=
            { userId := some order.userId
              provider := some .nowpayments
              amountFiat := none
              amountFarm := some i.quote.amountFarm
              qrGuestPayment := false
              merchantId := none
              platformFeeType := none
              platformFeePercent := none
              platformFee := none
              failureReason := none }
          updatedAt := some now }
      nextDepositId := s.deposits.nextDepositId + 1 }
    json := some i.json }

def setJson (json : PaymentJson) (s : Store) : Store := { s with json := s.json.map fun _ => json }

/-- The transaction of the catch: both rows by id, whatever they are by now. -/
def markFailed (i : Init) (now : Time) (s : Store) : Store :=
  { s with
    deposits := { s.deposits with
      deposit := s.deposits.deposit.map fun d => { d with status := .failed, updatedAt := now }
      transaction := s.deposits.transaction.map fun t => { t with status := .failed } }
    json := s.json.map fun _ => i.failedJson
    abandoned := true }

end Store

/-- The amounts agree to a cent. -/
def amountsAgree (expected actual : ℚ) : Bool := decide (|expected - actual| ≤ 1 / 100)

/-- What the webhook asks of the authenticated status. -/
def webhookMatches (order : Order) (json : PaymentJson) (v : Verified) : Bool :=
  decide (v.paymentId = order.paymentId ∧ v.orderId = order.reference ∧ v.priceCurrency = "usd" ∧
    v.payCurrency ≠ "" ∧ (json.payCurrency ≠ "" → v.payCurrency = json.payCurrency)) &&
    amountsAgree json.amountUsd v.priceAmount

/-- What the status check asks of it. -/
def statusMatches (order : Order) (json : PaymentJson) (v : Verified) : Bool :=
  decide (v.orderId = order.reference ∧ v.payCurrency = json.payCurrency ∧ v.priceCurrency = "usd") &&
    amountsAgree json.amountUsd v.priceAmount

inductive Request where
  | createNowpaymentsCryptoDeposit (dto : DepositDto)
  | handleNowpaymentsWebhook
  | getNowpaymentsCryptoDepositStatus (userId : UserId)

/-- A running call, named after its next step. -/
inductive Call where
  | checks (dto : DepositDto)
  | createRows (i : Init)
  | createPayment (i : Init)
  | updateRows (i : Init) (payment : Payment)
  | auditLog (i : Init)
  | markFailed (i : Init)
  | webhook
  | webhookPayment (json : PaymentJson)
  | webhookMetadata (json : PaymentJson) (v : Verified)
  | status (userId : UserId)
  | statusPayment (json : PaymentJson)
  | statusMetadata (json : PaymentJson) (v : Verified)
  | settle (call : Deposits.Call)
  | done

def enter : Request → Call
  | .createNowpaymentsCryptoDeposit dto => .checks dto
  | .handleNowpaymentsWebhook => .webhook
  | .getNowpaymentsCryptoDepositStatus userId => .status userId

/-- What the payment's status leads to. -/
def settlement (status : Option String) : Call :=
  if status = some "finished" ∨ status = some "confirmed" then .settle (.finalize .deposit)
  else if status = some "failed" ∨ status = some "refunded" ∨ status = some "expired" then
    .settle .nowpaymentsFailureTx
  else .done

def step (order : Order) (o : Outcome) (s : Store) : Call → Option (Store × Call)
  | .checks dto => do
    let quote ← o.quote
    if dto.allowed ∧ 0 < quote.amountFarm then return (s, .createRows ⟨dto, quote⟩) else none
  -- The reference is new: the insert throws when the rows exist.
  | .createRows i =>
    if o.fails = false ∧ s.json = none then
      some (s.createRows order i o.now, .createPayment i)
    else none
  | .createPayment i =>
    match o.payment with
    | none => some (s, .markFailed i)
    | some payment => some ({ s with returned := true }, .updateRows i payment)
  | .updateRows i payment =>
    if o.fails then some (s, .markFailed i)
    else some (s.setJson (i.paidJson order.paymentId payment), .auditLog i)
  | .auditLog i => if o.fails then some (s, .markFailed i) else some (s, .done)
  | .markFailed i => if o.fails then none else some (s.markFailed i o.now, .done)
  | .webhook =>
    match s.deposits.transaction, s.json with
    | some t, some json => some (s, if t.acceptsNowpayments then .webhookPayment json else .done)
    | _, _ => some (s, .done)
  | .webhookPayment json => do
    let v ← o.verified
    return (s, if webhookMatches order json v then .webhookMetadata json v else .done)
  | .webhookMetadata json v =>
    if o.fails then none
    else some (s.setJson { json with
      nowpaymentsPaymentId := some order.paymentId
      nowpaymentsPaymentStatus := some ((v.status.filter fun status => status != "").getD "unknown")
      nowpaymentsLastWebhookAt := some o.now
      nowpaymentsPaymentResponse := some v }, settlement v.status)
  | .status userId => do
    let t ← s.deposits.transaction
    let json ← s.json
    if json.nowpaymentsPaymentId = some order.paymentId ∧ t.transactionType = .deposit ∧
        t.metadata.provider = some .nowpayments ∧ t.metadata.userId = some userId then
      return (s, .statusPayment json)
    else none
  | .statusPayment json => do
    let v ← o.verified
    if statusMatches order json v then return (s, .statusMetadata json v) else none
  | .statusMetadata json v =>
    if o.fails then none
    else some (s.setJson { json with
      nowpaymentsPaymentStatus := some (v.status.getD "unknown")
      nowpaymentsLastCheckedAt := some o.now }, settlement v.status)
  | .settle call => do
    let (deposits, call) ← Deposits.step o.deposits s.deposits call
    return ({ s with deposits := deposits }, .settle call)
  | .done => none

def program (order : Order) : Program Store Call Request Outcome := ⟨enter, step order⟩

/-! ### The claim and its condition -/

/-- The deposit is credited: `SUCCESS` and `completed`. -/
def Store.Credited (s : Store) : Prop := Deposits.Reference.Settled true s.deposits.reference

/-- The column names the payment. -/
def Store.Names (order : Order) (s : Store) : Prop :=
  ∃ json, s.json = some json ∧ json.nowpaymentsPaymentId = some order.paymentId

/-- What holds once `createPayment` has returned, there and from there on. -/
structure Survives (order : Order) (ok : Guard Store Call Outcome) (c : Config Store Call) : Prop where
  unfailed : c.store.abandoned = false
  credited : c.store.Credited → ∀ later, (program order).Reaches ok c later → later.store.Credited
  named : c.store.Names order → ∀ later, (program order).Reaches ok c later → later.store.Names order

/-- The two awaits after `createPayment` succeed. -/
def unfailing (o : Outcome) : Call → Bool
  | .updateRows _ _ | .auditLog _ => !o.fails
  | _ => true

abbrev Unfailing : Guard Store Call Outcome := fun o _ call => unfailing o call = true

end FarmBackend.Nowpayments
