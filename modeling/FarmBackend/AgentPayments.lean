import FarmBackend.Rows
import FarmBackend.Wallets

/-!
# Payment intents, refunds and agent mandates (`agent-payments/agent-payments.service.ts`)

The rows of the service and its number helpers. Ids are positions. Descriptions, references,
metadata of the business and notifications are left out; of a failure only what decides the next
status is kept.
-/

namespace FarmBackend.AgentPayments
open Decimal Wallets

set_option autoImplicit false

abbrev IntentId := ℕ
abbrev MandateId := ℕ
abbrev RequestId := ℕ
abbrev BusinessId := ℕ

inductive IntentStatus where
  | requiresPayment
  | processing
  | succeeded
  | partiallyRefunded
  | refunded
  | canceled
  | expired
  deriving DecidableEq, Repr

structure PaymentIntent where
  businessId : BusinessId
  liveMode : Bool
  amount : ℤ
  status : IntentStatus
  payerUserId : Option UserId
  transactionReference : Option ℕ
  amountRefunded : ℤ
  expiresAt : Time
  paidAt : Option Time
  canceledAt : Option Time
  deriving DecidableEq

structure PaymentRefund where
  intentId : IntentId
  businessId : BusinessId
  createdBy : Option UserId
  liveMode : Bool
  amount : ℤ
  reason : Option String
  transactionId : Option ℕ
  idempotencyKey : Option String
  deriving DecidableEq

/-- The business on whose behalf a call runs. -/
structure BizCtx where
  businessId : BusinessId
  actorUserId : Option UserId
  live : Bool

/-- `Math.round(n * 100) / 100`. -/
def r2 (n : ℚ) : ℚ := mathRound (n * 100) / 100

/-- A hundredth of a FARM in units of the column. -/
def cent : ℤ := 1000000

theorem r2_eq (n : ℚ) : r2 n = toNumber (mathRound (n * 100) * cent) := by
  unfold r2 toNumber value cent
  push_cast
  ring

theorem toNumber_cents (k : ℤ) : toNumber (k * cent) = k / 100 := by
  unfold toNumber value cent
  push_cast
  ring

/-- A tolerance below a cent does not matter between whole cents. -/
theorem cents_le_add {a b : ℤ} (h : toNumber (a * cent) ≤ toNumber (b * cent) + 1 / 10 ^ 9) :
    a ≤ b := by
  rw [toNumber_cents, toNumber_cents] at h
  have hLt : (a : ℚ) < b + 1 := by linarith
  have hInt : a < b + 1 := by exact_mod_cast hLt
  omega

theorem r2_cents (k : ℤ) : r2 (toNumber (k * cent)) = toNumber (k * cent) := by
  have hHundred : toNumber (k * cent) * 100 = k := by
    rw [toNumber_cents]
    ring
  rw [r2_eq, hHundred]
  have hRound : mathRound (k : ℚ) = k := by
    unfold mathRound
    rw [Int.floor_eq_iff]
    constructor <;> norm_num
  rw [hRound]

/-- `expireIntents`, on one row. -/
def expireIntent (now : Time) (i : PaymentIntent) : PaymentIntent :=
  if i.status = .requiresPayment ∧ i.expiresAt ≤ now then { i with status := .expired } else i

end FarmBackend.AgentPayments
