import FarmBackend.WithdrawCalls

/-!
# Creating withdrawals and paying NOWPayments withdrawals out

The functions of `WithdrawService` that make a withdrawal, submit its payout, look an unknown
payout up and settle it. `createWithdrawal` and `createNowpaymentsCryptoWithdrawal` start the
payout themselves when their transaction has committed.
-/

namespace FarmBackend.PayoutCalls
open Decimal Fees Wallets Withdrawals Awaiting WithdrawCalls

set_option autoImplicit false

/-! NOWPayments payouts. -/

structure SubmitResult where
  payoutId : String
  status : Option String
  requiresProviderVerification : Bool
  deriving DecidableEq

def payoutIdOf (payout : PayoutResponse) : String :=
  ((payout.id.or payout.batchWithdrawalId).or payout.withdrawalId).getD ""

def payoutStatusOf (payout : PayoutResponse) (unset : String) : String :=
  ((payout.status.or payout.withdrawalStatus).getD unset).toLower

def verifyNowpaymentsCryptoWithdrawal (reference : ℕ) (verificationCode : String) :
    AsyncFn SubmitResult := do
  let transaction ← find (.transactionFindUnique reference)
  match transaction.map WithdrawalTransaction.metadata with
  | none => throw (.failure (.badRequest
      "An approved NOWPayments payout is required before verification"))
  | some metadata =>
    let payoutId := metadata.nowpaymentsPayoutId.getD ""
    if metadata.provider ≠ some .nowpayments ∨ metadata.payoutApprovalStatus ≠ some .approved ∨
        payoutId = "" then
      throw (.failure (.badRequest
        "An approved NOWPayments payout is required before verification"))
    else
      let response ← ask (.verifyPayout payoutId verificationCode)
      let status := payoutStatusOf response "creating"
      await (.updateMetadata reference { metadata with nowpaymentsPayoutStatus := some status })
      return ⟨payoutId, some status, status == "creating"⟩

/-- The status after an attempt to verify a payout that is still `creating`. -/
def verifiedStatus (reference : ℕ) (payoutStatus : String) : AsyncFn (Option String) := do
  if payoutStatus = "creating" then
    match truthy (← ask .generatePayoutVerificationCode) with
    | none => return some payoutStatus
    | some code =>
      try
        let verified ← verifyNowpaymentsCryptoWithdrawal reference code
        pure verified.status
      catch _ => pure (some payoutStatus)
  else return some payoutStatus

def recordPayoutCreated (reference : ℕ) (payout : PayoutResponse) (adminId : String) :
    AsyncFn SubmitResult := do
  let payoutId := payoutIdOf payout
  if payoutId = "" then
    throw (.failure (.badRequest ("NOWPayments payout was submitted but did not return a payout " ++
      "ID; funds remain reserved for reconciliation")))
  else
    let payoutStatus := payoutStatusOf payout "creating"
    match ← find (.transactionFindUnique reference) with
    -- Without the row the update throws.
    | none => throw (.failure (.other "Record to update not found."))
    | some current =>
      await (.updateMetadata reference { current.metadata with
        payoutApprovalStatus := some .approved
        payoutApprovedBy := current.metadata.payoutApprovedBy.or (some adminId)
        nowpaymentsPayoutId := some payoutId
        nowpaymentsPayoutStatus := some payoutStatus })
      let status ← verifiedStatus reference payoutStatus
      return ⟨payoutId, status, status == some "creating"⟩

def retriesUnknownPayout (withdrawal : Withdrawal) (metadata : Metadata) : Bool :=
  withdrawal.status == .processing && metadata.payoutApprovalStatus == some .approved &&
    ["creating", "unknown"].contains (metadata.nowpaymentsPayoutStatus.getD "").toLower

/-- An earlier submission whose outcome is unknown is looked up, never made again. -/
def lookUpPayout (reference : ℕ) (metadata : Metadata) (adminId : String) :
    AsyncFn SubmitResult := do
  match ← ask (.findPayoutByExternalId reference) with
  | none =>
    await (.updateMetadata reference metadata)
    throw (.failure (.badRequest ("No NOWPayments payout exists for this reference yet. It will " ++
      "not be re-submitted automatically; confirm in the NOWPayments dashboard, then reject the " ++
      "withdrawal to refund it.")))
  | some found => recordPayoutCreated reference found adminId

/-- The payout whose outcome is unknown keeps the funds reserved. -/
def payoutUnknown (reference : ℕ) (metadata : Metadata) : AsyncFn PayoutResponse := do
  let current ← find (.transactionFindUnique reference)
  let currentMetadata := (current.map WithdrawalTransaction.metadata).getD metadata
  await (.updateMetadata reference { currentMetadata with
    payoutApprovalStatus := some .approved
    nowpaymentsPayoutStatus := some "unknown" })
  throw (.failure (.badGateway ("NOWPayments payout status is not yet known. Funds remain " ++
    "reserved; it will be looked up (never re-submitted) by the reconciler.")))

/-- The claim and the one submission that follows it; `metadata` was read before the claim. -/
def claimAndCreatePayout (reference : ℕ) (metadata : Metadata) (adminId : String) :
    AsyncFn SubmitResult := do
  let claimed ← await (.claimPayoutTx reference { metadata with
    payoutApprovalStatus := some .approved
    payoutApprovedBy := some adminId
    nowpaymentsPayoutStatus := some "creating" })
  if claimed = false then
    throw (.failure (.badRequest "This crypto withdrawal was already approved"))
  else
    let payout ←
      try await (.createPayout ⟨metadata.nowpaymentsAddress, metadata.nowpaymentsCurrency,
        metadata.nowpaymentsPayoutAmount, reference⟩)
      catch _ => payoutUnknown reference metadata
    recordPayoutCreated reference payout adminId

def submitNowpaymentsPayout (reference : ℕ) (adminId : String) : AsyncFn SubmitResult := do
  let withdrawal ← find (.withdrawalFindUnique reference)
  let transaction ← find (.transactionFindUnique reference)
  match withdrawal, transaction with
  | some withdrawal, some transaction =>
    let metadata := transaction.metadata
    if metadata.provider ≠ some .nowpayments ∨ withdrawal.method ≠ .crypto then
      throw (.failure (.badRequest "NOWPayments withdrawal was not found"))
    else
      match truthy metadata.nowpaymentsPayoutId with
      | some payoutId => return ⟨payoutId, metadata.nowpaymentsPayoutStatus,
          metadata.nowpaymentsPayoutStatus == some "creating"⟩
      | none =>
        if retriesUnknownPayout withdrawal metadata then lookUpPayout reference metadata adminId
        else if withdrawal.status ≠ .pending ∨ metadata.payoutApprovalStatus ≠ some .pending then
          throw (.failure (.badRequest "This crypto withdrawal is no longer awaiting approval"))
        else claimAndCreatePayout reference metadata adminId
  | _, _ => throw (.failure (.badRequest "NOWPayments withdrawal was not found"))

def approveNowpaymentsCryptoWithdrawal (reference : ℕ) (adminId : String) :
    AsyncFn SubmitResult :=
  submitNowpaymentsPayout reference adminId

def reconcileNowpaymentsPayoutWebhook (payload : PayoutWebhook) : AsyncFn Bool := do
  let payoutId := (((payload.id.or payload.payoutId).or payload.batchWithdrawalId).or
    payload.withdrawalId).getD ""
  if payoutId = "" then return false
  else
    match ← find (.transactionByPayoutId payoutId) with
    | none => return false
    | some (reference, transaction) =>
      let verified ← ask (.getPayout payoutId)
      let status := payoutStatusOf verified ""
      await (.updateMetadata reference { transaction.metadata with
        nowpaymentsPayoutStatus := some (if status = "" then "unknown" else status) })
      if ["finished", "success", "completed"].contains status then markAsSuccess reference
      else if ["failed", "rejected", "cancelled", "canceled"].contains status then
        rejectWithdrawal reference (verified.failureReason.getD "NOWPayments payout failed")
      else return false

/-- One turn of the reconciler's loop, which goes on after an error. -/
def reconcileCandidate (candidate : ℕ × Metadata) : AsyncFn Unit := do
  let (reference, metadata) := candidate
  try
    match truthy metadata.nowpaymentsPayoutId with
    | some payoutId =>
      let _ ← reconcileNowpaymentsPayoutWebhook ⟨some payoutId, none, none, none⟩
    | none =>
      if metadata.payoutApprovalStatus = some .pending then
        let _ ← submitNowpaymentsPayout reference "system:reconciler"
      else
        match ← ask (.findPayoutByExternalId reference) with
        | none => pure ()
        | some found =>
          match ← find (.transactionFindUnique reference) with
          | none => pure ()
          | some _ =>
            let _ ← recordPayoutCreated reference found "system:reconciler"
  catch _ => pure ()

def reconcileNowpaymentsPayouts : AsyncFn Unit := do
  try
    let candidates ← find .payoutCandidates
    Async.forEach reconcileCandidate candidates
  catch _ => pure ()

/-! Creating a withdrawal. -/

/-- The bounds of a bank or mobile-money withdrawal, and what exceeding them throws. -/
def checkAmount (method : Method) (amount : ℚ) : Except String Unit :=
  if amount ≤ 0 then .error "Invalid withdrawal amount"
  else match method with
    | .bankTransfer =>
      if amount < 4999 then
        .error "Minimum withdrawal amount for bank transfer is 4,999 FARM"
      else if 999999 < amount then
        .error "Maximum withdrawal amount for bank transfer is 999,999 FARM"
      else .ok ()
    | .mobileMoney =>
      if amount < 1499 then
        .error "Minimum withdrawal amount for mobile money is 1,499 FARM"
      else if 249999 < amount then
        .error "Maximum withdrawal amount for mobile money is 249,999 FARM"
      else .ok ()
    | .crypto => .ok ()

/-- Where the money goes to. -/
def checkDestination (dto : CreateWithdrawDto) : Except String Unit :=
  match dto.method with
  | .mobileMoney =>
    if (truthy dto.phoneNumber).isNone then
      .error "Phone number is required for mobile money withdrawals"
    else .ok ()
  | .bankTransfer =>
    if (truthy dto.accountNumber).isNone || (truthy dto.bankName).isNone then
      .error "Account number and bank name are required for bank transfer withdrawals"
    else .ok ()
  | .crypto => .error "Unsupported withdrawal method: CRYPTO"

/-- By PIN or by device, unless trusted code has authorised the request before. -/
def authorize (userId : UserId) (preAuthorized : Bool) : AsyncFn Unit :=
  if preAuthorized then pure () else ask (.authorize userId)

def orThrow (checked : Except String Unit) : AsyncFn Unit :=
  match checked with
  | .ok () => pure ()
  | .error message => throw (.failure (.badRequest message))

/-- The active wallet with the available balance for the amount. -/
def walletFor (userId : UserId) (amount : ℚ) : AsyncFn WalletId := do
  match ← find (.activeWallet userId) with
  | none => throw (.failure (.badRequest "Active wallet not found"))
  | some (walletId, wallet) =>
    if wallet.available < amount then
      throw (.failure (.badRequest "Insufficient balance for this withdrawal"))
    else return walletId

def paystackMetadata (snapshot : ConversionSnapshot) : Metadata where
  provider := some .paystack
  payoutApprovalStatus := none
  payoutApprovedBy := none
  nowpaymentsPayoutId := none
  nowpaymentsPayoutStatus := none
  nowpaymentsPayoutAmount := 0
  nowpaymentsCurrency := ""
  nowpaymentsAddress := ""
  conversionSnapshot := some snapshot
  paystackTransferCode := none
  paystackTransferStatus := none
  paystackTransferRequiresOtp := false
  legacyStatus := none

def nowpaymentsMetadata (currency address : String) (payoutAmount : ℚ) : Metadata where
  provider := some .nowpayments
  payoutApprovalStatus := some .pending
  payoutApprovedBy := none
  nowpaymentsPayoutId := none
  nowpaymentsPayoutStatus := some "queued"
  nowpaymentsPayoutAmount := payoutAmount
  nowpaymentsCurrency := currency
  nowpaymentsAddress := address
  conversionSnapshot := none
  paystackTransferCode := none
  paystackTransferStatus := none
  paystackTransferRequiresOtp := false
  legacyStatus := none

/-- `createWithdrawal` for a bank or a phone. -/
def createPaystackWithdrawal (userId : UserId) (dto : CreateWithdrawDto) (preAuthorized : Bool) :
    AsyncFn Unit := do
  authorize userId preAuthorized
  orThrow (checkAmount dto.method dto.amount)
  let walletId ← walletFor userId dto.amount
  orThrow (checkDestination dto)
  let rule ← ask (.feeRule .withdrawal)
  let fee := computeFee rule dto.amount 8
  let settlement := toFixed 8 (dto.amount - fee)
  let rate ← ask .farmKesRate
  let farmKesRate := rate.getD 0
  if farmKesRate ≤ 0 then
    throw (.failure (.badRequest "A valid FARM to KES exchange rate is unavailable"))
  else
    let reference ← await (.createWithdrawalTx
      { walletId := walletId
        userId := userId
        amount := dto.amount
        fee := fee
        settlement := settlement
        method := dto.method
        accountName := dto.accountName
        accountNumber := dto.accountNumber
        bankName := dto.bankName
        phoneNumber := dto.phoneNumber
        metadata := paystackMetadata ⟨some farmKesRate, some (roundKes (settlement * farmKesRate))⟩ })
    processWithdrawal reference

def MIN_NOWPAYMENTS_CRYPTO_WITHDRAWAL_USD : ℚ := 2

/-- `/^[a-z0-9]{2,20}$/`, its braces written out. -/
def isCurrencyCode (currency : String) : Bool :=
  2 ≤ currency.length && currency.length ≤ 20 &&
    currency.toList.all fun c => ('a' ≤ c && c ≤ 'z') || ('0' ≤ c && c ≤ '9')

/-- The amounts of a crypto withdrawal in dollars: `settlementUsd`, or what is thrown. -/
def settlementUsdOf (amount settlement farmUsdRate : ℚ) : Except String ℚ :=
  if toFixed 8 (amount * farmUsdRate) < MIN_NOWPAYMENTS_CRYPTO_WITHDRAWAL_USD then
    .error "Minimum crypto withdrawal is USD 2.00 before the 1.5% withdrawal fee"
  else if toFixed 2 (settlement * farmUsdRate) ≤ 0 then
    .error "The crypto withdrawal amount is too small after the withdrawal fee"
  else .ok (toFixed 2 (settlement * farmUsdRate))

/-- What NOWPayments will pay out for the settlement. -/
def estimatePayout (settlementUsd : ℚ) (currency : String) : AsyncFn ℚ := do
  let payoutAmount ← ask (.estimateAmount settlementUsd currency)
  let minimumPayout ← ask (.getPayoutMinimum currency)
  if payoutAmount < minimumPayout then
    -- The text also names the minimum.
    throw (.failure (.badRequest "NOWPayments minimum payout is"))
  else
    let _ ← ask (.estimatePayoutFee currency payoutAmount)
    return payoutAmount

def createNowpaymentsCryptoWithdrawal (userId : UserId) (dto : CreateWithdrawDto)
    (preAuthorized : Bool) : AsyncFn Unit := do
  authorize userId preAuthorized
  let address := trim (dto.cryptoAddress.getD "")
  let currency := (trim (dto.cryptoAsset.getD "")).toLower
  if dto.amount ≤ 0 then throw (.failure (.badRequest "Enter a valid crypto withdrawal amount"))
  else if dto.method ≠ .crypto ∨ address = "" ∨ isCurrencyCode currency = false then
    throw (.failure (.badRequest "A valid crypto currency and destination address are required"))
  else
    let supportedCurrencies ← ask .getAvailableCurrencies
    if supportedCurrencies.contains currency = false then
      throw (.failure (.badRequest "The selected cryptocurrency is not currently available"))
    else
      let walletId ← walletFor userId dto.amount
      let rule ← ask (.feeRule .withdrawal)
      let fee := computeFee rule dto.amount 8
      let settlement := toFixed 8 (dto.amount - fee)
      let rate ← ask .farmUsdRate
      match settlementUsdOf dto.amount settlement (rate.getD 0) with
      | .error message => throw (.failure (.badRequest message))
      | .ok settlementUsd =>
        let payoutAmount ← estimatePayout settlementUsd currency
        let addressValid ← ask (.validatePayoutAddress address currency dto.extraId)
        if addressValid = false then
          throw (.failure (.badRequest
            ("The destination address is not a valid " ++ currency.toUpper ++ " address")))
        else
          let reference ← await (.createWithdrawalTx
            { walletId := walletId
              userId := userId
              amount := dto.amount
              fee := fee
              settlement := settlement
              method := .crypto
              accountName := none
              accountNumber := none
              bankName := none
              phoneNumber := none
              metadata := nowpaymentsMetadata currency address payoutAmount })
          ask (.invalidateCaches userId)
          -- The error of an automatic submission is only logged.
          try
            let _ ← submitNowpaymentsPayout reference "system:auto"
          catch _ => pure ()

def createWithdrawal (userId : UserId) (dto : CreateWithdrawDto) (preAuthorized : Bool) :
    AsyncFn Unit :=
  if dto.method = .crypto then createNowpaymentsCryptoWithdrawal userId dto preAuthorized
  else createPaystackWithdrawal userId dto preAuthorized

end FarmBackend.PayoutCalls
