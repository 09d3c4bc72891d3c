import FarmBackend.Wallets

/-!
# Public QR sales (`qr-payments/qr-payments.service.ts`)

A sale is its `transactions` row, the one `qr_payments` row made with it and its receipt. The
transactions that settle and fail it are here, and what the providers' answers are checked for.
Websocket events, caches, notifications and the PDF of the receipt come after the commit, throw
nothing and are left out.
-/

namespace FarmBackend.QrPayments
open Decimal Fees Wallets

set_option autoImplicit false

/-- `transaction_reference`. -/
abbrev Reference := String

inductive QrProvider where
  | paystack
  | ivorypay
  | nowpayments
  deriving DecidableEq, Repr

/-- The JSON of the `transactions` row. `isQrSale` is `type = 'qr_sale'` with the flag set; a number
that is missing or not finite is `none`. -/
structure Metadata where
  isQrSale : Bool
  provider : Option QrProvider
  amountFiat : Option ℚ
  amountUsd : Option ℚ
  crypto : Option String
  payCurrency : Option String
  nowpaymentsPaymentId : Option String
  deriving DecidableEq

structure SaleTransaction where
  id : ℕ
  transactionType : TransactionType
  status : TransactionStatus
  amount : ℤ
  fee : ℤ
  netAmount : ℤ
  receiverWalletId : Option WalletId
  metadata : Metadata
  deriving DecidableEq

structure QrPayment where
  merchantId : Option ℕ
  status : TransactionStatus
  deriving DecidableEq

structure Receipt where
  merchantId : ℕ
  amount : ℤ
  fee : ℤ
  deriving DecidableEq

structure Sale where
  transaction : SaleTransaction
  qrPayment : QrPayment
  receipt : Option Receipt
  deriving DecidableEq

/-- What the sales are paid into. `walletUser` is a wallet's owner, `totalSales` a merchant's total. -/
structure Till where
  bank : Bank
  walletUser : WalletId → Option UserId
  totalSales : ℕ → Option ℤ

/-- The rows of one reference beside the till. -/
structure Store where
  sale : Option Sale
  till : Till

/-- A provider's payment. A number is missing, or what `Number` makes of it when that is finite. -/
structure VerifiedPayment where
  paymentId : Option String
  status : Option String
  reference : Option String
  amount : Option (Option ℚ)
  paymentStatus : Option String
  orderId : Option String
  payCurrency : Option String
  priceCurrency : Option String
  priceAmount : Option (Option ℚ)
  token : Option String
  crypto : Option String
  currency : Option String
  expectedAmountInCrypto : Option (Option ℚ)
  amountUsd : Option (Option ℚ)

def Sale.isPublicQrSale (sale : Sale) : Bool :=
  sale.transaction.metadata.isQrSale ||
    (sale.transaction.transactionType == .merchantPayment && sale.qrPayment.merchantId.isSome)

/-- `x?.toString().toLowerCase() ?? ''`. -/
def lower (x : Option String) : String := (x.getD "").toLower

/-- Both amounts are numbers, and no further apart than `tolerance`. -/
def close (tolerance : ℚ) (expected verified : Option ℚ) : Bool :=
  match expected, verified with
  | some x, some y => decide (|x - y| ≤ tolerance)
  | _, _ => false

/-- The pattern of a currency: two to twenty characters of `[a-z0-9]`. -/
def isCurrency (s : String) : Bool :=
  decide (2 ≤ s.length) && decide (s.length ≤ 20) &&
    s.toList.all fun c => ('a' ≤ c && c ≤ 'z') || ('0' ≤ c && c ≤ '9')

section Checks
variable (reference : Reference) (m : Metadata) (v : VerifiedPayment)

def paystackMatches : Bool :=
  let expectedKobo := m.amountFiat.map fun x => (mathRound (x * 100) : ℚ)
  lower v.status == "success" && v.reference == some reference && v.amount.join.isSome &&
    v.amount.join == expectedKobo

def nowpaymentsMatches : Bool :=
  let expectedCurrency := lower (m.crypto <|> m.payCurrency)
  let verifiedCurrency := lower v.payCurrency
  ["finished", "confirmed"].contains (lower v.paymentStatus) && v.orderId == some reference &&
    isCurrency verifiedCurrency &&
    (expectedCurrency.isEmpty || verifiedCurrency == expectedCurrency) &&
    lower v.priceCurrency == "usd" && close (1 / 100) m.amountUsd v.priceAmount.join

def ivorypayMatches : Bool :=
  let verifiedToken := ((v.token <|> v.crypto <|> v.currency).getD "").toUpper
  let expectedToken := (m.crypto.getD "").toUpper
  let verifiedAmount := (v.expectedAmountInCrypto <|> v.amountUsd <|> v.amount).join
  ["success", "completed"].contains (lower v.status) && v.reference == some reference &&
    !expectedToken.isEmpty && verifiedToken == expectedToken &&
    verifiedAmount.any (fun x => decide (0 < x)) && m.amountUsd.any (fun x => decide (0 < x)) &&
    close (1 / 10 ^ 8) m.amountUsd verifiedAmount

def verificationMatches : QrProvider → Bool
  | .paystack => paystackMatches reference m v
  | .nowpayments => nowpaymentsMatches reference m v
  | .ivorypay => ivorypayMatches reference m v

/-- What `handleNowpaymentsWebhook` asks of the payment it has fetched. -/
def nowpaymentsWebhookMatches (paymentId : String) : Bool :=
  let expectedCurrency := lower (m.crypto <|> m.payCurrency)
  let receivedCurrency := lower v.payCurrency
  m.provider == some .nowpayments && v.paymentId == some paymentId &&
    v.orderId == some reference && lower v.priceCurrency == "usd" && !receivedCurrency.isEmpty &&
    (expectedCurrency.isEmpty || receivedCurrency == expectedCurrency) &&
    close (1 / 100) m.amountUsd v.priceAmount.join

end Checks

/-- What a provider's answer asks for. -/
inductive Verdict where
  | complete
  | markFailed
  | nothing
  deriving DecidableEq, Repr

def verdict (provider : QrProvider) (v : VerifiedPayment) : Verdict :=
  let (status, success, failure) := match provider with
    | .paystack => (lower v.status, ["success"], ["failed", "abandoned", "reversed"])
    | .ivorypay => (lower v.status, ["success", "completed"],
        ["failed", "cancelled", "expired", "reversed"])
    | .nowpayments => (lower v.paymentStatus, ["finished", "confirmed"],
        ["failed", "refunded", "expired"])
  if success.contains status then .complete
  else if failure.contains status then .markFailed
  else .nothing

def Sale.pollProvider (sale : Sale) : Option QrProvider :=
  let t := sale.transaction
  let canVerify := t.status == .pending ||
    (t.metadata.provider != some .paystack && t.status == .failed)
  t.metadata.provider.filter fun provider => canVerify &&
    (provider != .nowpayments || t.metadata.nowpaymentsPaymentId.isSome)

/-- What `verify` answers about the status it has read last. -/
inductive SaleStatus where
  | completed
  | failed
  | pending
  deriving DecidableEq, Repr

def saleStatus (status : Option TransactionStatus) : SaleStatus :=
  match status with
  | some .completed => .completed
  | some .failed | some .cancelled | some .reversed => .failed
  | _ => .pending

/-- What `complete` takes from its reads into its transaction. -/
structure Settlement where
  id : ℕ
  amount : ℤ
  merchantId : ℕ
  walletId : WalletId
  deriving DecidableEq

/-- `complete` up to its transaction; `none` where it answers `false`. -/
def settlementOf (reference : Reference) (provider : QrProvider) (v : VerifiedPayment)
    (sale : Option Sale) : Option Settlement := do
  let sale ← sale
  let t := sale.transaction
  if sale.isPublicQrSale && t.metadata.provider == some provider &&
      verificationMatches reference t.metadata v provider then
    let merchantId ← sale.qrPayment.merchantId
    let walletId ← t.receiverWalletId
    return ⟨t.id, t.amount, merchantId, walletId⟩
  else none

/-- `status: { in: ['pending', 'failed'] }`. -/
def isSettleable (status : TransactionStatus) : Bool := status == .pending || status == .failed

namespace Sale

def status (sale : Sale) : TransactionStatus := sale.transaction.status

def claim (saleFee merchantNet : ℚ) (sale : Sale) : Option Sale :=
  if isSettleable sale.transaction.status then
    some { sale with transaction := { sale.transaction with
      status := .completed
      fee := toUnits saleFee
      netAmount := toUnits merchantNet } }
  else none

/-- `qr_payments.updateMany` to `completed`, which must count one row. -/
def completeQrPayment (merchantId : ℕ) (sale : Sale) : Option Sale :=
  if sale.qrPayment.merchantId = some merchantId ∧ isSettleable sale.qrPayment.status then
    some { sale with qrPayment := { sale.qrPayment with status := .completed } }
  else none

/-- `createForTransaction`: a transaction has one receipt. -/
def createReceipt (receipt : Receipt) (sale : Sale) : Option Sale :=
  match sale.receipt with
  | none => some { sale with receipt := some receipt }
  | some _ => none

/-- The two `updateMany` of a failure, each on the statuses it asks for. -/
def fail (from' : TransactionStatus → Bool) (sale : Sale) : Sale :=
  { sale with
    transaction := if from' sale.transaction.status then
      { sale.transaction with status := .failed } else sale.transaction
    qrPayment := if from' sale.qrPayment.status then
      { sale.qrPayment with status := .failed } else sale.qrPayment }

end Sale

namespace Till

/-- Increment one wallet and write the credit. -/
def credit (transactionId : ℕ) (walletId : WalletId) (amount : ℚ) (t : Till) : Option Till := do
  let bank ← t.bank.walletsUpdate walletId (Wallet.incrementBalance amount)
  return { t with bank := bank.ledgerCreate ⟨some transactionId, walletId, .credit, toUnits amount⟩ }

/-- `merchants.update`, which throws when there is no such merchant. -/
def addSales (merchantId : ℕ) (amount : ℚ) (t : Till) : Option Till :=
  match t.totalSales merchantId with
  | none => none
  | some total => some { t with
      totalSales := Function.update t.totalSales merchantId
        (some (toUnits (toNumber total + amount))) }

end Till

/-- The transaction of `complete`; the answer is whether the sale was settled. -/
def completeTx (rule : FeeRule) (p : Settlement) (s : Store) : Option (Store × Bool) :=
  let amount := toNumber p.amount
  let saleFee := computeFee rule amount 8
  let merchantNet := amount - saleFee
  if amount ≤ 0 then none
  else
    match s.sale.bind (Sale.claim saleFee merchantNet) with
    | none => some (s, false)
    | some sale => do
      let _ ← s.till.walletUser p.walletId
      let till ← s.till.credit p.id p.walletId merchantNet
      let platform ← till.bank.platform
      let till ← till.credit p.id platform saleFee
      let sale ← sale.completeQrPayment p.merchantId
      let till ← till.addSales p.merchantId amount
      let sale ← sale.createReceipt ⟨p.merchantId, p.amount, toUnits saleFee⟩
      return (⟨some sale, till⟩, true)

def markFailedTx (s : Store) : Store × Bool :=
  match s.sale with
  | none => (s, false)
  | some sale =>
    if sale.status = .pending then ({ s with sale := some (sale.fail (· == .pending)) }, true)
    else (s, false)

/-- `status: { in: ['pending', 'processing'] }`. -/
def isOpen (status : TransactionStatus) : Bool := status == .pending || status == .processing

def nowpaymentsFailureTx (s : Store) : Store :=
  { s with sale := s.sale.map (Sale.fail isOpen) }

/-! ## What the transactions do -/

/-- The two rows of the sale have the same status. -/
def Sale.Agrees (sale : Sale) : Prop := sale.transaction.status = sale.qrPayment.status

/-- The fee of a sale under a rule. -/
def saleFeeUnits (rule : FeeRule) (amount : ℤ) : ℤ := feeUnits rule (toNumber amount) 8

def Sale.settled (rule : FeeRule) (p : Settlement) (sale : Sale) : Sale where
  transaction := { sale.transaction with
    status := .completed
    fee := saleFeeUnits rule p.amount
    netAmount := p.amount - saleFeeUnits rule p.amount }
  qrPayment := { sale.qrPayment with status := .completed }
  receipt := some ⟨p.merchantId, p.amount, saleFeeUnits rule p.amount⟩

/-- The till after one settlement: the merchant's wallet has the net, the platform's the fee, and
the merchant's total the whole amount. -/
structure Till.Settled (rule : FeeRule) (p : Settlement) (t t' : Till) : Prop where
  platform : ∃ platform, t.bank.platform = some platform ∧
    (∀ w, t'.bank.balanceOf w = t.bank.balanceOf w +
      (if w = p.walletId then p.amount - saleFeeUnits rule p.amount else 0) +
      if w = platform then saleFeeUnits rule p.amount else 0) ∧
    t'.bank.ledger = t.bank.ledger ++
      [⟨some p.id, p.walletId, .credit, p.amount - saleFeeUnits rule p.amount⟩,
        ⟨some p.id, platform, .credit, saleFeeUnits rule p.amount⟩]
  totalSales : ∃ total, t.totalSales p.merchantId = some total ∧
    t'.totalSales = Function.update t.totalSales p.merchantId (some (total + p.amount))

section Effects
variable {sale sale' : Sale} {t t' : Till} {rule : FeeRule} {p : Settlement} {s s' : Store}

theorem credit_eq_some {id : ℕ} {walletId : WalletId} {units : ℤ}
    (h : t.credit id walletId (toNumber units) = some t') :
    t'.totalSales = t.totalSales ∧ t'.bank.platform = t.bank.platform ∧
      t'.bank.ledger = t.bank.ledger ++ [⟨some id, walletId, .credit, units⟩] ∧
      ∀ w, t'.bank.balanceOf w = t.bank.balanceOf w + if w = walletId then units else 0 := by
  simp only [Till.credit, Option.bind_eq_bind, Option.bind_eq_some_iff, Option.pure_def,
    Option.some.injEq] at h
  obtain ⟨bank, hUpdate, rfl⟩ := h
  obtain ⟨hPlatform, _, hLedger⟩ := Bank.rest_walletsUpdate hUpdate
  obtain ⟨w, hWallet, hBalance⟩ := Bank.balanceOf_walletsUpdate hUpdate
  refine ⟨rfl, hPlatform, ?_, ?_⟩
  · rw [toUnits_toNumber, Bank.ledgerCreate, hLedger]
  · intro other
    have hOld := Bank.balanceOf_eq hWallet
    have hSame : ∀ b : Bank, ∀ e, (b.ledgerCreate e).balanceOf other = b.balanceOf other :=
      fun _ _ => rfl
    rw [hSame, hBalance]
    split
    · rename_i hId
      rw [hId, hOld, Wallet.incrementBalance_toNumber]
    · rw [add_zero]

theorem addSales_eq_some {merchantId : ℕ} {units : ℤ}
    (h : t.addSales merchantId (toNumber units) = some t') :
    t'.bank = t.bank ∧ ∃ total, t.totalSales merchantId = some total ∧
      t'.totalSales = Function.update t.totalSales merchantId (some (total + units)) := by
  unfold Till.addSales at h
  split at h
  · cases h
  · rename_i total hTotal
    cases h
    exact ⟨rfl, total, hTotal, by rw [value_add, toUnits_toNumber]⟩

/-- A transaction of `complete` that commits leaves everything, or settles a sale whose rows are
both pending or failed. -/
theorem completeTx_eq_some {answer : Bool} (h : completeTx rule p s = some (s', answer)) :
    (answer = false ∧ s' = s ∧ ∀ sale, s.sale = some sale → isSettleable sale.status = false) ∨
      ∃ sale, answer = true ∧ s.sale = some sale ∧ isSettleable sale.status = true ∧
        isSettleable sale.qrPayment.status = true ∧
        s'.sale = some (sale.settled rule p) ∧ s.till.Settled rule p s'.till := by
  have hFee : computeFee rule (toNumber p.amount) 8 = toNumber (saleFeeUnits rule p.amount) :=
    computeFee_eq_value _ _ _
  simp only [completeTx, hFee, value_sub] at h
  split at h
  · cases h
  · split at h
    · rename_i hClaim
      cases h
      refine .inl ⟨rfl, rfl, ?_⟩
      intro sale hSale
      simpa [hSale, Sale.claim, Sale.status] using hClaim
    · rename_i claimed hClaim
      obtain ⟨sale, hSale, hClaim⟩ := Option.bind_eq_some_iff.mp hClaim
      simp only [Sale.claim, Option.ite_none_right_eq_some, Option.some.injEq] at hClaim
      obtain ⟨hStatus, rfl⟩ := hClaim
      simp only [Option.bind_eq_bind, Option.bind_eq_some_iff, Option.pure_def,
        Option.some.injEq, Prod.mk.injEq, Sale.completeQrPayment,
        Option.ite_none_right_eq_some] at h
      obtain ⟨_, _, till₁, hNet, platform, hPlatform, till₂, hSaleFee, _, ⟨⟨_, hQr⟩, rfl⟩, till₃,
        hSales, sale', hReceipt, rfl, rfl⟩ := h
      obtain ⟨hTotals₁, hPlatform₁, hLedger₁, hBalance₁⟩ := credit_eq_some hNet
      obtain ⟨hTotals₂, _, hLedger₂, hBalance₂⟩ := credit_eq_some hSaleFee
      obtain ⟨hBank, total, hTotal, hTotals⟩ := addSales_eq_some hSales
      refine .inr ⟨sale, rfl, hSale, hStatus, hQr, ?_, ?_, ?_⟩
      · unfold Sale.createReceipt at hReceipt
        split at hReceipt
        · cases hReceipt
          simp only [toUnits_toNumber]
          rfl
        · cases hReceipt
      · refine ⟨platform, by rw [← hPlatform₁, hPlatform], ?_, ?_⟩
        · intro w
          rw [hBank, hBalance₂, hBalance₁]
        · rw [hBank, hLedger₂, hLedger₁, List.append_assoc]
          rfl
      · exact ⟨total, by rw [← hTotals₁, ← hTotals₂, hTotal], by rw [hTotals, hTotals₂, hTotals₁]⟩

end Effects

end FarmBackend.QrPayments
