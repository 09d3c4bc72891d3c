import FarmBackend.AgentPayments

/-!
# Agent mandates and their payment requests

The tables under `payIntent`, `confirmRequest` and their neighbours, and each database call on
them. Days and months are those of the server's time zone, which is a parameter.
-/

namespace FarmBackend.AgentPayments
open Decimal Wallets

set_option autoImplicit false

/-- A row of `agent_authorizations`. -/
structure Mandate where
  userId : UserId
  businessId : BusinessId
  perTxCap : ℤ
  dailyCap : ℤ
  monthlyCap : ℤ
  active : Bool
  expiresAt : Time
  revokedAt : Option Time
  deriving DecidableEq

inductive RequestStatus where
  | pending
  | processing
  | confirmed
  | failed
  | rejected
  | canceled
  | expired
  deriving DecidableEq, Repr

/-- A row of `agent_payment_requests`. -/
structure AgentRequest where
  authorizationId : MandateId
  userId : UserId
  businessId : BusinessId
  intentId : IntentId
  amount : ℤ
  status : RequestStatus
  transactionReference : Option ℕ
  idempotencyKey : Option String
  expiresAt : Time
  decidedAt : Option Time
  createdAt : Time
  deriving DecidableEq

/-- A payment of an intent that `sendFunds` committed. -/
structure Transfer where
  intentId : IntentId
  payerUserId : UserId
  amount : ℤ
  reference : ℕ
  deriving DecidableEq

/-- `startOfDay` and `startOfMonth` at a time. -/
structure Calendar where
  startOfDay : Time → Time
  startOfMonth : Time → Time
  startOfDay_le : ∀ t, startOfDay t ≤ t
  startOfDay_mono : ∀ {a b}, a ≤ b → startOfDay a ≤ startOfDay b
  startOfMonth_le : ∀ t, startOfMonth t ≤ t
  startOfMonth_mono : ∀ {a b}, a ≤ b → startOfMonth a ≤ startOfMonth b
  startOfMonth_day : ∀ {a b}, startOfDay a = startOfDay b → startOfMonth a = startOfMonth b

/-- The last day up to `day` that is the first of a month. -/
def monthStart (isFirst : ℕ → Bool) : ℕ → ℕ
  | 0 => 0
  | day + 1 => if isFirst (day + 1) then day + 1 else monthStart isFirst day

theorem monthStart_le (isFirst : ℕ → Bool) (day : ℕ) : monthStart isFirst day ≤ day := by
  induction day with
  | zero => exact le_rfl
  | succ day ih =>
    unfold monthStart
    split
    · exact le_rfl
    · omega

theorem monthStart_mono (isFirst : ℕ → Bool) {a b : ℕ} (h : a ≤ b) :
    monthStart isFirst a ≤ monthStart isFirst b := by
  induction h with
  | refl => exact le_rfl
  | @step b hab ih =>
    have hLe : monthStart isFirst a ≤ b + 1 :=
      (monthStart_le isFirst a).trans (Nat.le_succ_of_le hab)
    conv_rhs => unfold monthStart
    split
    · exact hLe
    · exact ih

def msPerDay : ℕ := 86400000

/-- Whether a day counted from the start of 1970 is the first of its month. -/
def isFirstOfMonth (day : ℕ) : Bool :=
  let ofEra := (day + 719468) % 146097
  let year := (ofEra - ofEra / 1460 + ofEra / 36524 - ofEra / 146096) / 365
  let ofYear := ofEra - (365 * year + year / 4 - year / 100)
  let month := (5 * ofYear + 2) / 153
  ofYear - (153 * month + 2) / 5 == 0

/-- The calendar of a server that runs in UTC. -/
def utc : Calendar where
  startOfDay t := t / msPerDay * msPerDay
  startOfMonth t := monthStart isFirstOfMonth (t / msPerDay) * msPerDay
  startOfDay_le t := Nat.div_mul_le_self t msPerDay
  startOfDay_mono h := Nat.mul_le_mul_right _ (Nat.div_le_div_right h)
  startOfMonth_le t :=
    (Nat.mul_le_mul_right _ (monthStart_le _ _)).trans (Nat.div_mul_le_self t msPerDay)
  startOfMonth_mono h :=
    Nat.mul_le_mul_right _ (monthStart_mono _ (Nat.div_le_div_right h))
  startOfMonth_day h := by
    rw [Nat.eq_of_mul_eq_mul_right (by decide) h]

example : (List.range 400).filter isFirstOfMonth =
    [0, 31, 59, 90, 120, 151, 181, 212, 243, 273, 304, 334, 365, 396] := by
  decide +kernel

/-- What an exception is to the `catch` of `confirmRequest`. -/
inductive Failure where
  | gone
  | forbidden (mentionsPin : Bool)
  | other
  deriving DecidableEq, Repr

def Failure.final : Failure → Bool
  | .gone => true
  | .forbidden mentionsPin => !mentionsPin
  | .other => false

/-- `ACTIVE_REQ`. -/
def RequestStatus.isActive : RequestStatus → Bool
  | .pending | .processing | .confirmed => true
  | _ => false

structure Store where
  now : Time
  intents : List PaymentIntent
  mandates : List Mandate
  requests : List AgentRequest
  ownerOf : BusinessId → Option UserId
  transfers : List Transfer

/-- The rows `expireIntents` is asked for. -/
inductive Which where
  | byId (id : IntentId)
  | ofBusiness (businessId : BusinessId)
  deriving DecidableEq

def Which.covers : Which → IntentId → PaymentIntent → Bool
  | .byId id, other, _ => other == id
  | .ofBusiness businessId, _, i => i.businessId == businessId

def AgentRequest.cancelPending (now : Time) (r : AgentRequest) : AgentRequest :=
  if r.status = .pending then { r with status := .canceled, decidedAt := some now } else r

namespace Store

def pass (elapsed : ℕ) (s : Store) : Store := { s with now := s.now + elapsed }

def expireIntents (which : Which) (s : Store) : Store :=
  { s with intents := s.intents.mapIdx fun id i =>
      if which.covers id i then expireIntent s.now i else i }

def intentsUpdate (id : IntentId) (f : PaymentIntent → PaymentIntent) (s : Store) : Store :=
  { s with intents := s.intents.modify id f }

def requestsUpdate (id : RequestId) (f : AgentRequest → AgentRequest) (s : Store) : Store :=
  { s with requests := s.requests.modify id f }

def claimIntent (id : IntentId) (payer : UserId) (s : Store) : Option Store := do
  let i ← s.intents[id]?
  if i.status = .requiresPayment ∧ s.now < i.expiresAt then
    some (s.intentsUpdate id fun i => { i with status := .processing, payerUserId := some payer })
  else none

/-- A claim given back. -/
def resetIntent (id : IntentId) (s : Store) : Store :=
  s.intentsUpdate id fun i =>
    if i.status = .processing then { i with status := .requiresPayment, payerUserId := none } else i

def recordPayment (id : IntentId) (reference : ℕ) (s : Store) : Store :=
  s.intentsUpdate id fun i =>
    { i with
      status := .succeeded
      transactionReference := some reference
      paidAt := some s.now }

def cancelUnpaid (id : IntentId) (s : Store) : Option Store := do
  let i ← s.intents[id]?
  if i.status = .requiresPayment then
    some (s.intentsUpdate id fun i => { i with status := .canceled, canceledAt := some s.now })
  else none

def cancelRequestsOf (id : IntentId) (s : Store) : Store :=
  { s with requests := s.requests.map fun r =>
      if r.intentId = id then r.cancelPending s.now else r }

def revoke (userId : UserId) (id : MandateId) (s : Store) : Option Store := do
  let m ← s.mandates[id]?
  if m.userId = userId ∧ m.active = true then
    some { s with mandates := s.mandates.modify id fun m =>
      { m with active := false, revokedAt := some s.now } }
  else none

def cancelRequestsUnder (id : MandateId) (s : Store) : Store :=
  { s with requests := s.requests.map fun r =>
      if r.authorizationId = id then r.cancelPending s.now else r }

def reject (userId : UserId) (id : RequestId) (s : Store) : Option Store := do
  let r ← s.requests[id]?
  if r.userId = userId ∧ r.status = .pending then
    some (s.requestsUpdate id fun r => { r with status := .rejected, decidedAt := some s.now })
  else none

def claimRequest (id : RequestId) (s : Store) : Option Store := do
  let r ← s.requests[id]?
  if r.status = .pending then some (s.requestsUpdate id fun r => { r with status := .processing })
  else none

def expireRequest (id : RequestId) (s : Store) : Store :=
  s.requestsUpdate id fun r => if r.status = .pending then { r with status := .expired } else r

def confirm (id : RequestId) (reference : Option ℕ) (s : Store) : Store :=
  s.requestsUpdate id fun r =>
    { r with
      status := .confirmed
      decidedAt := some s.now
      transactionReference := reference }

/-- The update in the `catch` of `confirmRequest`. -/
def settle (id : RequestId) (e : Failure) (s : Store) : Store :=
  s.requestsUpdate id fun r =>
    { r with
      status := if e.final then .failed else .pending
      decidedAt := if e.final then some s.now else r.decidedAt }

/-- The amounts of the rows that satisfy a condition, together. -/
def sumOf (p : RequestId → AgentRequest → Bool) (s : Store) : ℤ :=
  ((s.requests.zipIdx.filter fun r => p r.2 r.1).map (·.1.amount)).sum

/-- One of the two sums of `usage`. -/
def usage (id : MandateId) (excludeId : Option RequestId) (since : Time) (s : Store) : ℤ :=
  s.sumOf fun other r => r.authorizationId == id && r.status.isActive &&
    (excludeId != some other) && decide (since ≤ r.createdAt)

def openRequest (id : IntentId) (s : Store) : Option AgentRequest :=
  s.requests.find? fun r => r.intentId == id && (r.status == .pending || r.status == .processing)

def keyed (businessId : BusinessId) (key : String) (s : Store) : Option AgentRequest :=
  s.requests.find? fun r => r.businessId == businessId && r.idempotencyKey == some key

def keyTaken (businessId : BusinessId) (idem : Option String) (s : Store) : Bool :=
  idem.any fun key => (s.keyed businessId key).isSome

def requestsCreate (r : AgentRequest) (s : Store) : Store :=
  { s with requests := s.requests ++ [r] }

end Store

/-- The two sums of `usage`, read one after the other, and the times they start from. -/
structure Usage where
  sinceDay : Time
  sinceMonth : Time
  day : Option ℤ
  month : Option ℤ
  deriving DecidableEq

/-- The checks of `checkCaps` that need no further read. -/
def Mandate.allows (m : Mandate) (now : Time) (amount : ℤ) : Prop :=
  m.active = true ∧ now < m.expiresAt ∧ toNumber amount ≤ toNumber m.perTxCap

instance (m : Mandate) (now : Time) (amount : ℤ) : Decidable (m.allows now amount) :=
  inferInstanceAs (Decidable (_ ∧ _ ∧ _))

namespace Usage

def start (cal : Calendar) (now : Time) : Usage :=
  ⟨cal.startOfDay now, cal.startOfMonth now, none, none⟩

/-- The next of the two reads. Both are under way at once, so either may come first. -/
def read (monthFirst : Bool) (id : MandateId) (excludeId : Option RequestId) (s : Store)
    (u : Usage) : Usage :=
  if u.day = none ∧ (u.month ≠ none ∨ monthFirst = false) then
    { u with day := some (s.usage id excludeId u.sinceDay) }
  else { u with month := some (s.usage id excludeId u.sinceMonth) }

/-- What `checkCaps` decides from both sums. -/
def fits (m : Mandate) (amount : ℤ) (u : Usage) : Prop :=
  (∀ day ∈ u.day, toNumber day + toNumber amount ≤ toNumber m.dailyCap) ∧
    ∀ month ∈ u.month, toNumber month + toNumber amount ≤ toNumber m.monthlyCap

instance (m : Mandate) (amount : ℤ) (u : Usage) : Decidable (u.fits m amount) :=
  inferInstanceAs (Decidable (_ ∧ _))

def complete (u : Usage) : Bool := u.day.isSome && u.month.isSome

end Usage

end FarmBackend.AgentPayments
