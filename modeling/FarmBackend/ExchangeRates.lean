import FarmBackend.NowpaymentsDeposits
import FarmBackend.WithdrawCalls

/-!
# What a deposit is worth

The rate tables, and the three services that turn money into FARM: `PaymentsService.initiateDeposit`,
`DepositService.createDeposit` and `createNowpaymentsCryptoDeposit`. Both tables are listed as the
queries order them, the latest row first. A number divided by 0 is 0 here: none of the services
records or charges what it is there.
-/

namespace FarmBackend.ExchangeRates
open Decimal Wallets
open WithdrawCalls (trim truthy)

set_option autoImplicit false

/-- The methods of JavaScript's strings. -/
structure Text where
  toUpperCase : String → String
  toLowerCase : String → String

structure ExchangeRate where
  baseCurrency : Option String
  targetCurrency : Option String
  rate : Option ℚ

/-- `Number(row.rate)`. -/
def ExchangeRate.number (row : ExchangeRate) : ℚ := row.rate.getD 0

structure CurrencyRate where
  usdKesRate : ℚ
  farmKesRate : ℚ
  isActive : Bool

structure Rates where
  exchangeRates : List ExchangeRate
  currencyRates : List CurrencyRate
  cache : String → String → Option ℚ

structure CurrentRate where
  usdKesRate : ℚ
  farmKesRate : ℚ
  farmUsdRate : ℚ

namespace Rates

def findFirst (base target : String) (r : Rates) : Option ExchangeRate :=
  r.exchangeRates.find? fun row =>
    row.baseCurrency == some base && row.targetCurrency == some target

def activeRate (r : Rates) : Option CurrencyRate := r.currencyRates.find? CurrencyRate.isActive

def cacheSet (base target : String) (rate : ℚ) (r : Rates) : Rates :=
  { r with cache := Function.update r.cache base (Function.update (r.cache base) target (some rate)) }

/-- The direct row, else the reverse row, else 1. -/
def lookUp (base target : String) (r : Rates) : ℚ :=
  match r.findFirst base target with
  | some row => row.number
  | none =>
    match (r.findFirst target base).filter fun row => row.number ≠ 0 with
    | some row => 1 / row.number
    | none => 1

/-- `getExchangeRate`, from the codes in upper case. -/
def getExchangeRate (base target : String) (r : Rates) : ℚ × Rates :=
  if base = target then (1, r)
  else
    match r.cache base target with
    | some cached => (cached, r)
    | none => (r.lookUp base target, r.cacheSet base target (r.lookUp base target))

def getCurrentRate (r : Rates) : CurrentRate :=
  let usdKesRate := (r.activeRate.map CurrencyRate.usdKesRate).getD 150
  let farmKesRate := (r.activeRate.map CurrencyRate.farmKesRate).getD 1
  ⟨usdKesRate, farmKesRate, toFixed 8 (farmKesRate / usdKesRate)⟩

def usdToFarm (amount : ℚ) (r : Rates) : ℚ :=
  toFixed 8 (amount * r.getCurrentRate.usdKesRate / r.getCurrentRate.farmKesRate)

end Rates

/-! ### The three services -/

inductive PaymentMethod where
  | card
  | mobileMoney
  | crypto
  | applePay
  | bankTransfer
  deriving DecidableEq, Repr

structure User where
  email : Option String
  phone : Option String

/-- What else the services ask for: `answered` says that the provider takes the request and the rows
are written. -/
structure Outcome where
  user : Option User
  fraudBlock : Bool
  hasWallet : Bool
  currencies : List String
  minimumAmount : ℚ
  estimatedAmount : ℚ
  answered : Bool

/-- The money that the provider is told to charge, under the currency's code, and the FARM in the
two rows. An invoice is in cents, at a rate of eight decimals. -/
structure Deposited where
  charged : ℚ
  currency : String
  invoiced : Bool
  depositAmount : ℚ
  transactionAmount : ℤ

def Deposited.of (charged : ℚ) (currency : String) (amountFarm : ℚ) : Deposited :=
  ⟨charged, currency, false, amountFarm, toUnits amountFarm⟩

/-- A method, where it is given, is a text in upper case; another text is refused. -/
structure DepositDto where
  amountFiat : ℚ
  currency : String
  paymentMethod : Option PaymentMethod
  phone : Option String
  email : Option String
  crypto : Option String
  merchantQrCheckout : Bool

section Services
variable (text : Text)

/-- The branch `CRYPTO` of `initiateDeposit`. -/
def createInvoice (o : Outcome) (r : Rates) (dto : DepositDto) (user : User) (amountFarm : ℚ) :
    Option Deposited :=
  let crypto := text.toLowerCase (trim ((truthy dto.crypto).getD "usdttrc20"))
  let email := truthy (dto.email.map trim) <|> truthy (user.email.map trim)
  let amountUsd := toFixed 2 (amountFarm * r.getCurrentRate.farmUsdRate)
  if email.isSome ∧ crypto ∈ o.currencies ∧ 0 < r.getCurrentRate.farmUsdRate ∧ 0 < amountUsd ∧
      o.answered = true then
    some { Deposited.of amountUsd "USD" amountFarm with invoiced := true }
  else none

def initiateDeposit (o : Outcome) (r : Rates) (dto : DepositDto) : Option Deposited :=
  let method := dto.paymentMethod.getD .card
  if method = .bankTransfer ∧ text.toUpperCase (trim dto.currency) ≠ "KES" then none
  else do
    let user ← o.user
    let code := text.toUpperCase dto.currency
    let rate := (r.getExchangeRate code "FARM").1
    let amountFarm := dto.amountFiat / rate
    if o.fraudBlock = true ∨ rate = 0 then none
    else
      match method with
      | .card | .bankTransfer =>
        if o.answered then some (.of dto.amountFiat code amountFarm) else none
      | .mobileMoney =>
        let phone := truthy dto.phone <|> if dto.merchantQrCheckout then none else truthy user.phone
        if (phone.isSome ∨ dto.merchantQrCheckout = true) ∧ o.answered = true then
          some (.of dto.amountFiat code amountFarm)
        else none
      | .crypto => createInvoice text o r dto user amountFarm
      | .applePay => none

structure CreateDepositDto where
  amountFiat : ℚ
  currency : Option String
  paymentMethod : Option PaymentMethod
  phone : Option String

/-- `dto.currency || 'KES'`. -/
def currencyOrKes (currency : Option String) : String := (truthy currency).getD "KES"

/-- What is charged is in KES for each method; `APPLE_PAY` is refused after the rows are written. -/
def createDeposit (o : Outcome) (dto : CreateDepositDto) : Option Deposited :=
  let method := dto.paymentMethod.getD .card
  if method = .crypto ∨ method = .applePay ∨ dto.amountFiat < 10 ∨
      (method = .bankTransfer ∧ text.toUpperCase (currencyOrKes dto.currency) ≠ "KES") ∨
      (method = .mobileMoney ∧ truthy dto.phone = none) ∨ o.answered = false then none
  else some (.of dto.amountFiat "KES" dto.amountFiat)

/-- The steps of `createNowpaymentsCryptoDeposit` up to `createPayment`. -/
def createNowpaymentsCryptoDeposit (o : Outcome) (r : Rates) (dto : Nowpayments.DepositDto) :
    Option Deposited :=
  let amountFarm := r.usdToFarm dto.priceAmount
  if dto.allowed ∧ dto.payCurrency ∈ o.currencies ∧ o.minimumAmount ≤ o.estimatedAmount ∧
      o.hasWallet = true ∧ 0 < amountFarm ∧ o.answered = true then
    some (.of dto.priceAmount "USD" amountFarm)
  else none

inductive Request where
  | initiateDeposit (dto : DepositDto)
  | createDeposit (dto : CreateDepositDto)
  | createNowpaymentsCryptoDeposit (dto : Nowpayments.DepositDto)

def deposit (o : Outcome) (r : Rates) : Request → Option Deposited
  | .initiateDeposit dto => ExchangeRates.initiateDeposit text o r dto
  | .createDeposit dto => ExchangeRates.createDeposit text o dto
  | .createNowpaymentsCryptoDeposit dto => ExchangeRates.createNowpaymentsCryptoDeposit o r dto

end Services

/-! ### The claim and its condition -/

/-- The FARM for one unit of a currency, by the latest row each way, or by the active rate. -/
inductive Gives (r : Rates) : String → ℚ → Prop where
  | farm : Gives r "FARM" 1
  | direct {code : String} {row : ExchangeRate} (h : r.findFirst code "FARM" = some row) :
      Gives r code row.number
  | reverse {code : String} {row : ExchangeRate} (h : r.findFirst "FARM" code = some row)
      (hRate : row.number ≠ 0) : Gives r code (1 / row.number)
  | kes {row : CurrencyRate} (h : r.activeRate = some row) : Gives r "KES" (1 / row.farmKesRate)
  | usd {row : CurrencyRate} (h : r.activeRate = some row) :
      Gives r "USD" (row.usdKesRate / row.farmKesRate)

/-- One number for each currency that has a row. -/
def Consistent (r : Rates) : Prop :=
  ∀ code rate, Gives r code rate → 0 < rate ∧ ∀ rate', Gives r code rate' → rate' = rate

/-- A unit of the eighth decimal; for an invoice also a cent of it, at a rate that is a unit off. -/
def Deposited.tolerance (d : Deposited) (rate : ℚ) : ℚ :=
  if d.invoiced then 1 / 10 ^ 8 + rate * (1 / 10 ^ 2 + d.depositAmount / 10 ^ 8) else 1 / 10 ^ 8

structure Deposited.WorthAt (d : Deposited) (rate : ℚ) : Prop where
  deposit : |d.depositAmount - d.charged * rate| ≤ d.tolerance rate
  transaction : |toNumber d.transactionAmount - d.charged * rate| ≤ d.tolerance rate

/-- The tables know the currency, and the FARM recorded is what was charged times its rate. -/
def Deposited.Worth (r : Rates) (d : Deposited) : Prop := ∃ rate, Gives r d.currency rate ∧ d.WorthAt rate

/-- All of a request but its amount and the payer's details. -/
inductive Path where
  | initiateDeposit (method : PaymentMethod) (currency : String)
  | createDeposit (method : PaymentMethod) (currency : Option String)
  | createNowpaymentsCryptoDeposit

namespace Request

def path : Request → Path
  | .initiateDeposit dto => .initiateDeposit (dto.paymentMethod.getD .card) dto.currency
  | .createDeposit dto => .createDeposit (dto.paymentMethod.getD .card) dto.currency
  | .createNowpaymentsCryptoDeposit _ => .createNowpaymentsCryptoDeposit

def amount : Request → ℚ
  | .initiateDeposit dto => dto.amountFiat
  | .createDeposit dto => dto.amountFiat
  | .createNowpaymentsCryptoDeposit dto => dto.priceAmount

end Request

/-- Every positive amount that is not refused on this path is worth its rate. -/
def Path.Worth (text : Text) (r : Rates) (path : Path) : Prop :=
  ∀ o request, request.path = path → 0 < request.amount → ∀ d, deposit text o r request = some d →
    d.Worth r

/-- The rate the cache holds, where it is asked. -/
def Rates.cached (code : String) (r : Rates) : Option ℚ :=
  if code = "FARM" then none else r.cache code "FARM"

/-- The currency has a rate, and it is the inverse of the cached one, or 1 when none is cached. -/
def Rates.inverted (code : String) (r : Rates) : Prop :=
  ∃ rate, Gives r code rate ∧ (r.cached code).getD 1 * rate = 1

/-- When a path is worth its rate: it is refused whatever the amount, or the rates happen to fit. -/
def Path.Fits (text : Text) (r : Rates) : Path → Prop
  | .initiateDeposit .applePay _ => True
  | .initiateDeposit .bankTransfer currency =>
    text.toUpperCase (trim currency) ≠ "KES" ∨
      r.cached (text.toUpperCase currency) = some 0 ∨ r.inverted (text.toUpperCase currency)
  | .initiateDeposit .crypto currency =>
    (∃ rate ≤ 0, r.cached (text.toUpperCase currency) = some rate) ∨ r.activeRate ≠ none ∨
      ∃ rate, Gives r "USD" rate ∧ |1 / rate - toFixed 8 (1 / 150)| ≤ 1 / 10 ^ 8
  | .initiateDeposit _ currency =>
    r.cached (text.toUpperCase currency) = some 0 ∨ r.inverted (text.toUpperCase currency)
  | .createDeposit .crypto _ | .createDeposit .applePay _ => True
  | .createDeposit .bankTransfer currency =>
    text.toUpperCase (currencyOrKes currency) ≠ "KES" ∨ Gives r "KES" 1
  | .createDeposit _ _ => Gives r "KES" 1
  | .createNowpaymentsCryptoDeposit => r.activeRate ≠ none ∨ Gives r "USD" 150

end FarmBackend.ExchangeRates
