import FarmBackend.Awaiting
import FarmBackend.Withdrawals
import Mathlib.Data.List.DropRight

/-!
# The async functions of `WithdrawService`

What one of them awaits is an operation: a statement or a transaction of the database, or a call
of another service. Times and reasons that are only stored are left out, and so are the log, the
websocket and the flag that keeps the reconciler of one process from overlapping with itself.
-/

namespace FarmBackend.WithdrawCalls
open Decimal Fees Wallets Withdrawals Awaiting

set_option autoImplicit false

inductive TransferOutcome where
  | rejected
  | unknown
  deriving DecidableEq, Repr

/-- What any await may throw. -/
inductive Failure where
  | badRequest (message : String)
  | badGateway (message : String)
  | other (message : String)
  deriving DecidableEq, Repr

/-- `initiation` is a `PaystackTransferInitiationError`; only `initiateTransfer` makes one. -/
inductive Thrown where
  | failure (e : Failure)
  | initiation (message : String) (outcome : TransferOutcome)
  deriving DecidableEq, Repr

def Failure.message : Failure → String
  | .badRequest message => message
  | .badGateway message => message
  | .other message => message

def Thrown.message : Thrown → String
  | .failure e => e.message
  | .initiation message _ => message

def Thrown.outcomeUnknown : Thrown → Bool
  | .initiation _ .unknown => true
  | _ => false

/-! Strings. -/

/-- `a || undefined`. -/
def truthy (s : Option String) : Option String := s.filter (· ≠ "")

/-- White space and line ends, as `String.prototype.trim` takes them. -/
def isSpace (c : Char) : Bool :=
  c.toNat ∈ [9, 10, 11, 12, 13, 32, 160, 5760, 8232, 8233, 8239, 8287, 12288, 65279] ||
    (8192 ≤ c.toNat && c.toNat ≤ 8202)

def trim (s : String) : String :=
  String.ofList ((s.toList.dropWhile isSpace).reverse.dropWhile isSpace).reverse

theorem dropWhile_trimmed (l : List Char) :
    ((l.dropWhile isSpace).rdropWhile isSpace).dropWhile isSpace =
      (l.dropWhile isSpace).rdropWhile isSpace := by
  rw [List.dropWhile_eq_self_iff]
  intro hPos
  have hPrefix := List.rdropWhile_prefix isSpace (l.dropWhile isSpace)
  have hLong : 0 < (l.dropWhile isSpace).length := Nat.lt_of_lt_of_le hPos hPrefix.length_le
  have hHead : ((l.dropWhile isSpace).rdropWhile isSpace)[0] = (l.dropWhile isSpace)[0] :=
    hPrefix.getElem hPos
  rw [hHead]
  exact List.dropWhile_eq_self_iff.mp (List.dropWhile_idempotent _ _) _

theorem trim_trim (s : String) : trim (trim s) = trim s := by
  have hTrim : ∀ l : List Char, trim (String.ofList l) =
      String.ofList ((l.dropWhile isSpace).rdropWhile isSpace) := by
    intro l
    rw [trim, String.toList_ofList]
    rfl
  have hSelf : trim s = String.ofList ((s.toList.dropWhile isSpace).rdropWhile isSpace) := rfl
  rw [hSelf, hTrim, dropWhile_trimmed, List.rdropWhile_idempotent]

theorem trim_eq_self {s : String} (hFirst : ∀ c, s.toList.head? = some c → isSpace c = false)
    (hLast : ∀ c, s.toList.getLast? = some c → isSpace c = false) : trim s = s := by
  have hKeeps : ∀ l : List Char, (∀ c, l.head? = some c → isSpace c = false) →
      l.dropWhile isSpace = l := by
    rintro (_ | ⟨c, l⟩) h
    · rfl
    · exact List.dropWhile_cons_of_neg (by simp [h c rfl])
  rw [trim, hKeeps _ hFirst, hKeeps _ (by simpa [List.head?_reverse] using hLast),
    List.reverse_reverse, String.ofList_toList]

/-! What the providers are sent and what they answer. -/

inductive RecipientType where
  | mobileMoney
  | kepss
  deriving DecidableEq, Repr

/-- Always in KES. -/
structure RecipientPayload where
  type : RecipientType
  name : String
  accountNumber : String
  bankCode : String
  deriving DecidableEq

structure Recipient where
  recipientCode : Option String
  deriving DecidableEq

/-- `source: 'balance'`, `currency: 'KES'`. -/
structure TransferPayload where
  amount : ℚ
  recipient : Option String
  reference : ℕ
  deriving DecidableEq

/-- `transferResponse?.data ?? {}`. -/
structure TransferData where
  transferCode : Option String
  id : Option String
  status : Option String
  deriving DecidableEq

structure PayoutPayload where
  address : String
  currency : String
  amount : ℚ
  reference : ℕ
  deriving DecidableEq

/-- A payout as NOWPayments answers it; the last two are of its first withdrawal. -/
structure PayoutResponse where
  id : Option String
  batchWithdrawalId : Option String
  status : Option String
  failureReason : Option String
  withdrawalId : Option String
  withdrawalStatus : Option String
  deriving DecidableEq

structure PayoutWebhook where
  id : Option String
  payoutId : Option String
  batchWithdrawalId : Option String
  withdrawalId : Option String
  deriving DecidableEq

structure CreateWithdrawDto where
  amount : ℚ
  method : Method
  accountName : Option String
  accountNumber : Option String
  bankName : Option String
  phoneNumber : Option String
  cryptoAddress : Option String
  cryptoAsset : Option String
  extraId : Option String
  deriving DecidableEq

/-- The two rows of a new withdrawal; their reference is given by the insert. -/
structure NewWithdrawal where
  walletId : WalletId
  userId : UserId
  amount : ℚ
  fee : ℚ
  settlement : ℚ
  method : Method
  accountName : Option String
  accountNumber : Option String
  bankName : Option String
  phoneNumber : Option String
  metadata : Metadata
  deriving DecidableEq

/-! Operations. -/

/-- What a database or a service answers, unless it throws. -/
abbrev Reply (α : Type) := Except Failure α

/-- Reads of the database. -/
inductive Query : Type → Type where
  | withdrawalFindUnique (reference : ℕ) : Query (Option Withdrawal)
  | withdrawalWithUser (reference : ℕ) : Query (Option (Withdrawal × UserNames))
  | transactionFindUnique (reference : ℕ) : Query (Option WithdrawalTransaction)
  | activeWallet (userId : UserId) : Query (Option (WalletId × Wallet))
  | transactionByPayoutId (payoutId : String) : Query (Option (ℕ × WithdrawalTransaction))
  | payoutCandidates : Query (List (ℕ × Metadata))

/-- Calls of other services that send no money. A number that is not finite is `none`. -/
inductive ServiceCall : Type → Type where
  | authorize (userId : UserId) : ServiceCall Unit
  | feeRule (key : FeeKey) : ServiceCall FeeRule
  | farmKesRate : ServiceCall (Option ℚ)
  | farmUsdRate : ServiceCall (Option ℚ)
  | farmToKes (amount : ℚ) : ServiceCall (Option ℚ)
  | invalidateCaches (userId : UserId) : ServiceCall Unit
  | sendNotification (userId : UserId) : ServiceCall Unit
  -- Paystack
  | getBankCodeByName (bankName : String) : ServiceCall String
  | createTransferRecipient (payload : RecipientPayload) : ServiceCall (Option Recipient)
  -- NOWPayments
  | getAvailableCurrencies : ServiceCall (List String)
  | estimateAmount (amountUsd : ℚ) (currency : String) : ServiceCall ℚ
  | getPayoutMinimum (currency : String) : ServiceCall ℚ
  | estimatePayoutFee (currency : String) (amount : ℚ) : ServiceCall ℚ
  | validatePayoutAddress (address currency : String) (extraId : Option String) : ServiceCall Bool
  | findPayoutByExternalId (reference : ℕ) : ServiceCall (Option PayoutResponse)
  | getPayout (payoutId : String) : ServiceCall PayoutResponse
  | verifyPayout (payoutId code : String) : ServiceCall PayoutResponse
  | generatePayoutVerificationCode : ServiceCall (Option String)

/-- What a function may await. The writes are statements or whole transactions. -/
inductive Op : Type → Type 1 where
  | query {α : Type} (query : Query α) : Op (Reply α)
  | service {α : Type} (call : ServiceCall α) : Op (Reply α)
  -- writes
  | createWithdrawalTx (new : NewWithdrawal) : Op (Reply ℕ)
  | claimProcessing (reference : ℕ) : Op (Reply ℕ)
  | claimPayoutTx (reference : ℕ) (metadata : Metadata) : Op (Reply Bool)
  | updateMetadata (reference : ℕ) (metadata : Metadata) : Op (Reply Unit)
  | markAsSuccessTx (reference : ℕ) (withdrawal : Withdrawal)
      (transaction : Option WithdrawalTransaction) (walletId : WalletId) : Op (Reply Bool)
  | rejectWithdrawalTx (reference : ℕ) (withdrawal : Withdrawal)
      (transaction : Option WithdrawalTransaction) (walletId : WalletId) : Op (Reply Bool)
  -- the providers' calls that send money
  | initiateTransfer (payload : TransferPayload) : Op (Except Thrown TransferData)
  | createPayout (payload : PayoutPayload) : Op (Reply PayoutResponse)
  -- no await: the call of `rejectWithdrawal`
  | rejectWithdrawal (reference : ℕ) (reason : String) : Op Unit

abbrev AsyncFn := Async Thrown Op

def await {α : Type} (op : Op (Reply α)) : AsyncFn α := do
  match ← Async.perform op with
  | .ok value => return value
  | .error e => throw (.failure e)

def find {α : Type} (query : Query α) : AsyncFn α := await (.query query)

def ask {α : Type} (call : ServiceCall α) : AsyncFn α := await (.service call)

def initiateTransfer (payload : TransferPayload) : AsyncFn TransferData := do
  match ← Async.perform (.initiateTransfer payload) with
  | .ok data => return data
  | .error e => throw e

section Rules
variable {S α : Type} {M : Monitor Op S} {s : S}

@[simp] theorem ensures_await {op : Op (Reply α)} {Q : Except Thrown α → S → Prop} :
    M.Ensures Q s (await op) ↔ M.allows s op ∧ (∀ value, Q (.ok value) (M.after s op (.ok value))) ∧
      ∀ e, Q (.error (.failure e)) (M.after s op (.error e)) := by
  simp only [await, Monitor.ensures_bind, Monitor.ensures_perform]
  refine and_congr_right fun _ => ⟨fun h => ⟨fun value => h (.ok value), fun e => h (.error e)⟩, ?_⟩
  rintro ⟨hOk, hError⟩ (e | value)
  · exact hError e
  · exact hOk value

@[simp] theorem ensures_find {query : Query α} {Q : Except Thrown α → S → Prop} :
    M.Ensures Q s (find query) ↔ M.allows s (.query query) ∧
      (∀ value, Q (.ok value) (M.after s (.query query) (.ok value))) ∧
      ∀ e, Q (.error (.failure e)) (M.after s (.query query) (.error e)) := ensures_await

@[simp] theorem ensures_ask {call : ServiceCall α} {Q : Except Thrown α → S → Prop} :
    M.Ensures Q s (ask call) ↔ M.allows s (.service call) ∧
      (∀ value, Q (.ok value) (M.after s (.service call) (.ok value))) ∧
      ∀ e, Q (.error (.failure e)) (M.after s (.service call) (.error e)) := ensures_await

@[simp] theorem ensures_initiateTransfer {payload : TransferPayload}
    {Q : Except Thrown TransferData → S → Prop} :
    M.Ensures Q s (initiateTransfer payload) ↔ M.allows s (.initiateTransfer payload) ∧
      ∀ answer, Q answer (M.after s (.initiateTransfer payload) answer) := by
  simp only [initiateTransfer, Monitor.ensures_bind, Monitor.ensures_perform]
  refine and_congr_right fun _ => forall_congr' fun answer => ?_
  cases answer <;> exact Iff.rfl

theorem permits_await {op : Op (Reply α)} (h : ∀ s, M.allows s op) : M.Permits (await op) :=
  fun s => ensures_await.mpr ⟨h s, fun _ => trivial, fun _ => trivial⟩

end Rules

/-! Settling. -/

def markAsSuccess (reference : ℕ) : AsyncFn Bool := do
  match ← find (.withdrawalFindUnique reference) with
  | none => return false
  | some withdrawal =>
    if withdrawal.status = .completed then return true
    else if withdrawal.status = .failed then return false
    else
      let transaction ← find (.transactionFindUnique reference)
      match ← find (.activeWallet withdrawal.userId) with
      | none => return false
      | some (walletId, _) =>
        let finalized ← await
          (.markAsSuccessTx reference withdrawal transaction walletId)
        if finalized = false then return false
        else
          ask (.invalidateCaches withdrawal.userId)
          ask (.sendNotification withdrawal.userId)
          return true

def rejectWithdrawal (reference : ℕ) (reason : String) : AsyncFn Bool := do
  Async.perform (.rejectWithdrawal reference reason)
  match ← find (.withdrawalFindUnique reference) with
  | none => return false
  | some withdrawal =>
    if withdrawal.status = .failed then return true
    else if withdrawal.status = .completed then return false
    else
      let transaction ← find (.transactionFindUnique reference)
      match ← find (.activeWallet withdrawal.userId) with
      | none => return false
      | some (walletId, _) =>
        let rejected ← await
          (.rejectWithdrawalTx reference withdrawal transaction walletId)
        if rejected = false then return false
        else
          ask (.invalidateCaches withdrawal.userId)
          ask (.sendNotification withdrawal.userId)
          return true

/-! `processWithdrawal`. -/

def formatMpesaNumber (phone : Option String) : String :=
  match truthy phone with
  | none => ""
  | some phone => if phone.startsWith "+254" then "0" ++ (phone.drop 4).toString else phone

/-- The account's name, else the user's, else `FARM User`. -/
def recipientName (withdrawal : Withdrawal) (user : UserNames) : String :=
  ((truthy withdrawal.accountName).or (truthy (some (trim
    (user.firstName.getD "" ++ " " ++ user.lastName.getD ""))))).getD "FARM User"

/-- `Math.round((x + Number.EPSILON) * 100) / 100`. -/
def roundKes (x : ℚ) : ℚ := mathRound ((x + EPSILON) * 100) / 100

/-- The settlement of the snapshot, or what its rate makes of the settlement; `none` is `NaN`. -/
def snapshotSettlementKes (settlement : ℚ) (snapshot : Option ConversionSnapshot) : Option ℚ :=
  match snapshot.bind ConversionSnapshot.settlementKes with
  | some settlementKes => some settlementKes
  | none =>
    let farmKesRate := (snapshot.bind ConversionSnapshot.farmKesRate).getD 0
    if 0 < farmKesRate then some (roundKes (settlement * farmKesRate)) else none

def payoutAmountOf (settlement : ℚ) (snapshot : Option ConversionSnapshot) :
    AsyncFn (Option ℚ) :=
  match snapshotSettlementKes settlement snapshot with
  | some settlementKes =>
    if 0 < settlementKes then return some settlementKes
    else ask (.farmToKes settlement)
  | none => ask (.farmToKes settlement)

/-- The metadata after the transfer was accepted. -/
def transferMetadata (data : TransferData) (metadata : Metadata) : Metadata :=
  { metadata with
    paystackTransferCode :=
      ((truthy data.transferCode).or (truthy data.id)).or metadata.paystackTransferCode
    paystackTransferStatus :=
      (truthy data.status).or ((truthy metadata.paystackTransferStatus).or (some "pending"))
    paystackTransferRequiresOtp := (data.status.getD "").toLower == "otp" }

def createRecipient (withdrawal : Withdrawal) (user : UserNames) :
    AsyncFn (Option Recipient) :=
  match withdrawal.method with
  | .mobileMoney => ask (.createTransferRecipient
      ⟨.mobileMoney, recipientName withdrawal user, formatMpesaNumber withdrawal.phoneNumber,
        "MPESA"⟩)
  | .bankTransfer => do
    let bankCode ← ask (.getBankCodeByName (withdrawal.bankName.getD ""))
    ask (.createTransferRecipient ⟨.kepss, recipientName withdrawal user,
      withdrawal.accountNumber.getD "", bankCode⟩)
  | .crypto => throw (.failure <| .badRequest "Unsupported withdrawal method for transfer processing")

def payOut (reference : ℕ) (withdrawal : Withdrawal) (user : UserNames) : AsyncFn Unit := do
  match ← createRecipient withdrawal user with
  | none => return
  | some recipient =>
    let transaction ← find (.transactionFindUnique reference)
    let snapshot := transaction.bind fun t => t.metadata.conversionSnapshot
    match ← payoutAmountOf withdrawal.settlement snapshot with
    | none => throw (.failure <| .badRequest "Invalid KES payout amount")
    | some payoutAmount =>
      if payoutAmount ≤ 0 then throw (.failure <| .badRequest "Invalid KES payout amount")
      else
        let transferData ← initiateTransfer ⟨payoutAmount, recipient.recipientCode, reference⟩
        match transaction with
        | none => return
        | some t => await (.updateMetadata reference (transferMetadata transferData t.metadata))

def payOutFailed (reference : ℕ) (e : Thrown) : AsyncFn Unit := do
  if e.outcomeUnknown then
    match ← find (.transactionFindUnique reference) with
    | none => return
    | some t =>
      await (.updateMetadata reference
        { t.metadata with paystackTransferStatus := some "unknown" })
  else
    let _ ← rejectWithdrawal reference
      ((truthy (some e.message)).getD "Withdrawal transfer failed")

def processWithdrawal (reference : ℕ) : AsyncFn Unit := do
  match ← find (.withdrawalWithUser reference) with
  | none => return
  | some (withdrawal, user) =>
    if withdrawal.status ≠ .pending then return
    else
      let claimCount ← await (.claimProcessing reference)
      if claimCount ≠ 1 then return
      else
        try payOut reference withdrawal user
        catch e => payOutFailed reference e

end FarmBackend.WithdrawCalls
