import FarmBackend.DepositCalls

/-!
# The ways a Paystack deposit comes to be credited

`handlePaystackWebhookProcessing`, the cron `fixStuckDeposits` and `verifyDepositStatus`, for the
rows of one reference. Each ends in a call on these rows. Transfer events and QR sales, whose
transactions are no deposits, are left out, and so are deposits paid by `CRYPTO`, which the cron
verifies with another provider.
-/

namespace FarmBackend.Paystack
open Decimal Fees Wallets Deposits Interleaving

set_option autoImplicit false

inductive ChargeStatus where
  | success
  | completed
  | failed
  | cancelled
  | expired
  | abandoned
  | declined
  | reversed
  | incomplete
  | other
  deriving DecidableEq, Repr

namespace ChargeStatus

def word : ChargeStatus → String
  | success => "success"
  | completed => "completed"
  | failed => "failed"
  | cancelled => "cancelled"
  | expired => "expired"
  | abandoned => "abandoned"
  | declined => "declined"
  | reversed => "reversed"
  | incomplete => "incomplete"
  | other => "unknown"

def indicatesSuccess (status : ChargeStatus) : Bool := status == success || status == completed

def indicatesFailure (status : ChargeStatus) : Bool := !status.indicatesSuccess && status != other

end ChargeStatus

/-- What `verifyTransaction` answers; the amount is in kobo, `none` when it is not a number. -/
structure Answer where
  status : ChargeStatus
  amount : Option ℚ

/-- `locked`: the webhook gets its Redis lock; `paystack`: the answer to a verification, `none` when
it throws; `confirmed`: another provider confirms; `picked`: the cron's 200 rows include this one. -/
structure Outcome where
  now : Time
  merchantRule : FeeRule
  locked : Bool
  paystack : Option Answer
  confirmed : Bool
  picked : Bool
  lookback : Time
  dbFails : Bool

/-- A reported amount against the expected one, and whether the charge was reported successful. -/
structure Charge where
  amount : Option ℚ
  expected : ℤ
  success : Bool

/-- What a finaliser went by when it decided. -/
structure Report where
  charge : Charge
  afterRejection : Bool

/-- `rejected` and `backed` are history: a charge was rejected for its amount; each credit, with what
its call went by. -/
structure Store where
  rows : Deposits.Store
  createdAt : Time
  rejected : Bool
  backed : List ((WalletId × ℤ) × Option Report)

def opened (rows : Deposits.Store) (createdAt : Time) : Store := ⟨rows, createdAt, false, []⟩

inductive Request where
  | chargeSuccess (status : Option ChargeStatus) (amount : Option ℚ)
  | chargeFailed (reason : String)
  | fixStuckDeposits
  | verifyDepositStatus (userId : UserId)

/-- `running` is a call on the rows: `cron` when the cleanup follows, `charge` what was reported
before it started, `report` what it has decided on. -/
inductive Call where
  | chargeSuccess (status : Option ChargeStatus) (amount : Option ℚ)
  | chargeTransaction (status : Option ChargeStatus) (amount : Option ℚ)
  | chargeDeposit (status : Option ChargeStatus) (amount : Option ℚ) (t : DepositTransaction)
  | chargeFailed (reason : String)
  | fixStuckDeposits
  | stuckDeposit (t : DepositTransaction)
  | stuckVerify (deposit : Option Deposit) (t : DepositTransaction)
  | verifyDepositStatus (userId : UserId)
  | verifyOwner (userId : UserId) (deposit : Option Deposit)
  | running (cron : Bool) (charge : Option Charge) (report : Option Report) (call : Deposits.Call)
  | done

def enter : Request → Call
  | .chargeSuccess status amount => .chargeSuccess status amount
  | .chargeFailed reason => .chargeFailed reason
  | .fixStuckDeposits => .fixStuckDeposits
  | .verifyDepositStatus userId => .verifyDepositStatus userId

/-- The expected amount in kobo: the fiat amount of the metadata, else the deposit's, else the
transaction's. -/
def expectedKobo (deposit : Option Deposit) (t : DepositTransaction) : ℤ :=
  let amount := t.metadata.amountFiat <|> deposit.map Deposit.amount
  mathRound (amount.getD (toNumber t.amount) * 100)

/-- The rows belong to a deposit that Paystack takes. -/
def matchesPaystack (deposit : Option Deposit) (t : DepositTransaction) : Bool :=
  verifyingProvider deposit t == some .paystack &&
    deposit.all fun d => d.provider == some .paystack

/-- Two minutes. -/
def stuckAge : Time := 2 * 60 * 1000

/-- The query of `fixStuckDeposits`, for this reference. -/
def Store.stuck (o : Outcome) (s : Store) : Option DepositTransaction :=
  s.rows.transaction.filter fun t => t.isDeposit && t.status == .pending && o.picked &&
    decide (s.createdAt + stuckAge < o.now ∧ o.now ≤ s.createdAt + o.lookback)

/-- The provider the cron asks; a stored deposit has a method of payment, and it is not `CRYPTO`. -/
def stuckProvider (deposit : Option Deposit) (t : DepositTransaction) : Option Provider :=
  if deposit.bind Deposit.provider = some .nowpayments ∨ t.metadata.provider = some .nowpayments then
    none
  else
    match deposit with
    | some _ => some .paystack
    -- `ivorypay` without the method is overridden.
    | none => t.metadata.provider.map fun _ => .paystack

def cleanup : Call := .running false none none .staleTransactions

/-- The outcome of a step on the rows; `verified` is the answer of the provider that is asked. -/
def Outcome.rows (o : Outcome) : Deposits.Call → Deposits.Outcome
  | .verify deposit t =>
    let succeeded := o.paystack.any fun a => a.status == .success
    let verified := if verifyingProvider deposit t = some .paystack then succeeded else o.confirmed
    ⟨o.now, o.merchantRule, verified, o.dbFails⟩
  | _ => ⟨o.now, o.merchantRule, o.confirmed, o.dbFails⟩

/-- History: what a finaliser goes by at the step in which it decides. The user's verification has no
charge but the answer itself. -/
def decides (o : Outcome) (s : Store) (charge : Option Charge) : Deposits.Call → Option Report
  | .verify deposit t =>
    let answer : Charge :=
      { amount := o.paystack.bind Answer.amount
        expected := expectedKobo deposit t
        success := verifyingProvider deposit t == some .paystack &&
          o.paystack.any fun a => a.status == .success }
    some ⟨charge.getD answer, s.rejected⟩
  | .readTransaction .webhook _ => charge.map fun charge => ⟨charge, s.rejected⟩
  | _ => none

def step (o : Outcome) (s : Store) : Call → Option (Store × Call)
  | .chargeSuccess status amount =>
    if o.locked then some (s, .chargeTransaction status amount) else some (s, .done)
  | .chargeTransaction status amount =>
    match s.rows.transaction with
    | none => some (s, .done)
    | some t =>
      if t.isDeposit ∧ status.all (fun status => status == .success) then
        some (s, .chargeDeposit status amount t)
      else some (s, .done)
  | .chargeDeposit status amount t =>
    let deposit := s.rows.deposit
    if matchesPaystack deposit t then
      match amount with
      | none => some (s, .done)
      | some received =>
        let expected := expectedKobo deposit t
        if received = expected then
          let success := status.all fun status => status == .success
          some (s, .running false (some ⟨amount, expected, success⟩) none (.finalize .deposit))
        else some ({ s with rejected := true }, .done)
    else some (s, .done)
  | .chargeFailed reason =>
    if o.locked then some (s, .running false none none (.failDeposit (some reason)))
    else some (s, .done)
  | .fixStuckDeposits =>
    match s.stuck o with
    | none => some (s, cleanup)
    | some t => some (s, .stuckDeposit t)
  | .stuckDeposit t =>
    if stuckProvider s.rows.deposit t = some .paystack then
      some (s, .stuckVerify s.rows.deposit t)
    else some (s, cleanup)
  | .stuckVerify deposit t =>
    match o.paystack with
    | none => some (s, cleanup)
    | some answer =>
      let status := answer.status
      if status.indicatesSuccess then
        let charge : Charge := ⟨answer.amount, expectedKobo deposit t, status.indicatesSuccess⟩
        some (s, .running true (some charge) none (.finalize .webhook))
      else if status.indicatesFailure then
        let reason := "Paystack verify indicates " ++ status.word
        some (s, .running true none none (.failDeposit (some reason)))
      else some (s, cleanup)
  | .verifyDepositStatus userId =>
    match s.rows.deposit with
    | none => some (s, .verifyOwner userId none)
    | some d => if d.userId = userId then some (s, .verifyOwner userId (some d)) else none
  | .verifyOwner userId deposit =>
    let named := s.rows.transaction.bind fun t => t.metadata.userId
    if deposit = none ∧ named ≠ some userId then none
    else some (s, .running false none none (.finalize .deposit))
  | .running cron charge report call =>
    let report := decides o s charge call <|> report
    match Deposits.step (o.rows call) s.rows call with
    | none => if cron then some (s, cleanup) else none
    | some (rows, call) =>
      let credits := rows.credits.drop s.rows.credits.length
      some ({ s with
          rows := rows
          backed := s.backed ++ credits.map fun credit => (credit, report) },
        .running cron charge report call)
  | .done => none

def program : Program Store Call Request Outcome := ⟨enter, step⟩

end FarmBackend.Paystack
