import FarmBackend.X402Verify
import FarmBackend.Interleaving
import Mathlib.Logic.Function.Basic

/-!
# The gateway and the facilitator's `settle`

Calls of `X402Service` over the rows of `x402_payments`, of which there is one for an id. A
verification writes nothing and reads the row once, so it is one step. An await that throws out
of the function is a call that goes no further; what `settle` catches is a step.
-/

namespace FarmBackend.X402
open Interleaving

set_option autoImplicit false

structure Resource where
  active : Bool
  method : String
  asset : String
  priceUnits : ℕ
  payTo : Address
  deriving DecidableEq

/-- `none` when the asset is not configured. -/
def requirementsFor (c : X402Config) (r : Resource) : Option PaymentRequirements :=
  ((c.assets.entries.find? fun entry => entry.1 == r.asset).map Prod.snd).map fun assetId =>
    ⟨"exact", c.caip2, toString r.priceUnits, toString assetId, r.payTo, c.timeoutSeconds⟩

/-- What the business's service answers. -/
structure Upstream where
  status : ℕ
  body : Bytes
  deriving DecidableEq

structure SettleResult where
  success : Bool
  errorReason : Option String
  errorMessage : Option String
  transaction : TxId
  network : String
  payer : Option Address
  deriving DecidableEq

inductive Answer where
  | notFound
  | badRequest (message : String)
  | required (error : String)
  | notLive
  | noResponse
  | notCharged (up : Upstream) (h : 400 ≤ up.status)
  | paid (up : Upstream) (result : SettleResult) (h : result.success = true)
  | settled (result : SettleResult)
  deriving DecidableEq

/-- A verified payment on its way through `settle`; `upstream` is there in the gateway. -/
structure Job where
  txId : TxId
  payer : Option Address
  upstream : Option Upstream
  deriving DecidableEq

inductive Call where
  | gateway (method : String) (header : Option (Option PaymentPayload))
  | gatewayVerify (requirements : PaymentRequirements) (payload : PaymentPayload)
  | safeFetch (txId : TxId) (payer : Option Address)
  | facilitate (payload : PaymentPayload) (requirements : PaymentRequirements)
  | facilitateVerify (payload : PaymentPayload) (requirements : PaymentRequirements)
      (payTo : Address)
  | findPrev (job : Job)
  | claim (job : Job) (prev : Bool)
  | send (job : Job)
  | markSettled (job : Job)
  | recordFailure (job : Job) (msg : String)
  | upstreamStatus (up : Upstream) (result : SettleResult)
  | done (answer : Answer)
  deriving DecidableEq

/-- A header that cannot be read is `some none`. -/
inductive Request where
  | gateway (method : String) (header : Option (Option PaymentPayload))
  | facilitate (payload : PaymentPayload) (requirements : PaymentRequirements)

/-- `confirmed` are the transactions that the chain confirms, sooner or later; `invoked` is what
the businesses' services were called for. -/
structure Store where
  rows : TxId → Option PaymentStatus
  confirmed : TxId → Bool
  invoked : List TxId

/-- What was thrown, by its message. -/
abbrev Thrown := Option String

structure Outcome where
  resource : Option Resource
  payTo : Option Address
  verify : VerifyAnswers
  upstream : Option Upstream
  statement : Except Thrown Unit
  send : Except Thrown ℕ

/-- `String(e?.message ?? 'Settlement failed').slice(0, 300)`. -/
def messageOf (e : Thrown) : String := String.ofList ((e.getD "Settlement failed").toList.take 300)

/-- `/timeout|waiting|rounds/i.test(msg)`. -/
def outcomeUnknown (msg : String) : Bool := mentions ["timeout", "waiting", "rounds"] msg

def Store.setRow (s : Store) (txId : TxId) (status : PaymentStatus) : Store :=
  { s with rows := Function.update s.rows txId (some status) }

section Fields
variable (s : Store) (txId : TxId) (status : PaymentStatus)

@[simp] theorem Store.rows_setRow :
    (s.setRow txId status).rows = Function.update s.rows txId (some status) := rfl

@[simp] theorem Store.confirmed_setRow : (s.setRow txId status).confirmed = s.confirmed := rfl

@[simp] theorem Store.invoked_setRow : (s.setRow txId status).invoked = s.invoked := rfl

end Fields

variable (sdk : Sdk) (c : X402Config)

/-- What the gateway does with the result of `settle`. -/
def respond (up : Upstream) (result : SettleResult) : Call :=
  if h : result.success = true then .done (.paid up result h)
  else .done (.required (result.errorReason.getD "settlement_failed"))

def finish (job : Job) (result : SettleResult) : Call :=
  match job.upstream with
  | none => .done (.settled result)
  | some up => if result.transaction = "" then respond up result else .upstreamStatus up result

def used (job : Job) : SettleResult :=
  ⟨false, some "invalid_transaction_state", some "This payment was already used", "", c.caip2,
    job.payer⟩

def succeeded (job : Job) : SettleResult := ⟨true, none, none, job.txId, c.caip2, job.payer⟩

def notSettled (job : Job) (msg : String) : SettleResult :=
  ⟨false, some (if outcomeUnknown msg then "settlement_pending" else "invalid_transaction_state"),
    some msg, job.txId, c.caip2, job.payer⟩

/-- The answer of `settle` to a payment that does not pass. -/
def refused (r : VerifyResult) : SettleResult :=
  ⟨false, r.invalidReason, r.invalidMessage, "", c.caip2, r.payer⟩

def afterVerify (gateway : Bool) (r : VerifyResult) : Call :=
  match r.isValid, r.txId with
  | true, some txId =>
    if gateway then .safeFetch txId r.payer else .findPrev ⟨txId, r.payer, none⟩
  | _, _ =>
    if gateway then .done (.required (r.invalidReason.getD "invalid_payload"))
    else .done (.settled (refused c r))

def step (o : Outcome) (s : Store) : Call → Option (Store × Call)
  | .gateway method header =>
    match o.resource with
    | none => if c.enabled then some (s, .done .notFound) else none
    | some r =>
      if c.enabled = false then none
      else if r.active = false then some (s, .done .notFound)
      else if r.method ≠ "ANY" ∧ r.method ≠ method then
        some (s, .done (.badRequest ("Use " ++ r.method)))
      else (requirementsFor c r).map fun requirements =>
        match header with
        | none => (s, .done (.required "PAYMENT-SIGNATURE header is required"))
        | some none => (s, .done (.required "invalid_payload"))
        | some (some payload) => (s, .gatewayVerify requirements payload)
  | .gatewayVerify requirements payload =>
    (verify sdk c o.verify s.rows payload requirements (some requirements.payTo)).result.map
      fun r => (s, afterVerify c true r)
  | .safeFetch txId payer =>
    let s' := { s with invoked := s.invoked ++ [txId] }
    match o.upstream with
    | none => some (s', .done .noResponse)
    | some up =>
      if h : 400 ≤ up.status then some (s', .done (.notCharged up h))
      else some (s', .findPrev ⟨txId, payer, some up⟩)
  | .facilitate payload requirements =>
    match o.payTo with
    | none => some (s, .done .notLive)
    | some payTo => some (s, .facilitateVerify payload requirements payTo)
  | .facilitateVerify payload requirements payTo =>
    (verify sdk c o.verify s.rows payload requirements (some payTo)).result.map
      fun r => (s, afterVerify c false r)
  | .findPrev job => some (s, .claim job (s.rows job.txId).isSome)
  | .claim job prev =>
    -- with a row `updateMany` takes a failed one, without one `create` meets the unique index
    match o.statement with
    | .error _ => some (s, finish job (used c job))
    | .ok _ =>
      if s.rows job.txId = (if prev then some .failed else none) then
        some (s.setRow job.txId .settling, .send job)
      else some (s, finish job (used c job))
  | .send job =>
    match o.send with
    -- only a confirmed transaction ends the wait
    | .ok _ => if s.confirmed job.txId then some (s, .markSettled job) else none
    | .error e => some (s, .recordFailure job (messageOf e))
  | .markSettled job =>
    match o.statement with
    | .ok _ => some (s.setRow job.txId .settled, finish job (succeeded c job))
    | .error e => some (s, .recordFailure job (messageOf e))
  | .recordFailure job msg =>
    some (s.setRow job.txId (if outcomeUnknown msg then .pending else .failed),
      finish job (notSettled c job msg))
  | .upstreamStatus up result => some (s, respond up result)
  | .done _ => none

def program : Program Store Call Request Outcome where
  enter
    | .gateway method header => .gateway method header
    | .facilitate payload requirements => .facilitate payload requirements
  step := step sdk c

/-! ## What a step can do -/

/-- A call that neither has the payment in its hands nor has succeeded. -/
def Call.isPlain : Call → Bool
  | .safeFetch _ _ => false
  | .send _ | .markSettled _ | .recordFailure _ _ => false
  | .upstreamStatus _ result => !result.success
  | .done (.paid _ _ _) => false
  | .done (.settled result) => !result.success
  | _ => true

/-- Nobody has settled the payment or is about to. -/
def Store.Claimable (s : Store) (txId : TxId) : Prop :=
  ∀ status, s.rows txId = some status → status = .failed

variable {sdk c} {o : Outcome} {s s' : Store} {call call' : Call}

inductive Took (c : X402Config) (o : Outcome) (s : Store) : Call → Store → Call → Prop where
  | quiet {call call' : Call} (hCall : call.isPlain = true) (hCall' : call'.isPlain = true) :
      Took c o s call s call'
  | verified {call : Call} {txId : TxId} {payer : Option Address} (hCall : call.isPlain = true)
      (hClaimable : s.Claimable txId) : Took c o s call s (.safeFetch txId payer)
  | fetched {txId : TxId} {payer : Option Address} {call' : Call} (hCall' : call'.isPlain = true) :
      Took c o s (.safeFetch txId payer) { s with invoked := s.invoked ++ [txId] } call'
  | claimed {job : Job} {prev : Bool} (hClaimable : s.Claimable job.txId) :
      Took c o s (.claim job prev) (s.setRow job.txId .settling) (.send job)
  | sent {job : Job} (hConfirmed : s.confirmed job.txId = true) :
      Took c o s (.send job) s (.markSettled job)
  | sendThrown {job : Job} {e : Thrown} (hSend : o.send = .error e) :
      Took c o s (.send job) s (.recordFailure job (messageOf e))
  | marked {job : Job} :
      Took c o s (.markSettled job) (s.setRow job.txId .settled) (finish job (succeeded c job))
  | markThrown {job : Job} {e : Thrown} (hStatement : o.statement = .error e) :
      Took c o s (.markSettled job) s (.recordFailure job (messageOf e))
  | recorded {job : Job} {msg : String} :
      Took c o s (.recordFailure job msg)
        (s.setRow job.txId (if outcomeUnknown msg then .pending else .failed))
        (finish job (notSettled c job msg))
  | responded {up : Upstream} {result : SettleResult} :
      Took c o s (.upstreamStatus up result) s (respond up result)

theorem isPlain_respond {up : Upstream} {result : SettleResult} (h : result.success = false) :
    (respond up result).isPlain = true := by
  simp [respond, h, Call.isPlain]

theorem isPlain_finish {job : Job} {result : SettleResult} (h : result.success = false) :
    (finish job result).isPlain = true := by
  unfold finish
  split
  · simp [Call.isPlain, h]
  · split
    · exact isPlain_respond h
    · simp [Call.isPlain, h]

/-- A verification that has answered leads to the service where it is the gateway's. -/
theorem took_afterVerify {gateway : Bool} {r : VerifyResult} (hCall : call.isPlain = true)
    (hUnused : r.isValid = true → ∀ txId, r.txId = some txId → s.Claimable txId) :
    Took c o s call s (afterVerify c gateway r) := by
  unfold afterVerify
  split
  · rename_i txId hValid hId
    cases gateway with
    | false => exact .quiet hCall rfl
    | true => exact .verified hCall (hUnused hValid txId hId)
  · cases gateway with
    | false => exact .quiet hCall rfl
    | true => exact .quiet hCall rfl

theorem took_of_step (hStep : step sdk c o s call = some (s', call')) :
    Took c o s call s' call' := by
  cases call with
  | gateway method header =>
    simp only [step] at hStep
    split at hStep
    · rw [Option.ite_none_right_eq_some] at hStep
      obtain ⟨-, hStep⟩ := hStep
      cases hStep
      exact .quiet rfl rfl
    · rw [Option.ite_none_left_eq_some] at hStep
      obtain ⟨-, hStep⟩ := hStep
      split at hStep
      · cases hStep
        exact .quiet rfl rfl
      · split at hStep
        · cases hStep
          exact .quiet rfl rfl
        · obtain ⟨requirements, -, hStep⟩ := Option.map_eq_some_iff.mp hStep
          split at hStep
          all_goals
            cases hStep
            exact .quiet rfl rfl
  | gatewayVerify requirements payload =>
    obtain ⟨r, hResult, hStep⟩ := Option.map_eq_some_iff.mp hStep
    cases hStep
    exact took_afterVerify rfl fun hValid _ hId _ => unused_of_verify hResult hValid hId
  | safeFetch txId payer =>
    simp only [step] at hStep
    split at hStep
    · cases hStep
      exact .fetched rfl
    · split at hStep
      all_goals
        cases hStep
        exact .fetched rfl
  | facilitate payload requirements =>
    simp only [step] at hStep
    split at hStep
    all_goals
      cases hStep
      exact .quiet rfl rfl
  | facilitateVerify payload requirements payTo =>
    obtain ⟨r, hResult, hStep⟩ := Option.map_eq_some_iff.mp hStep
    cases hStep
    exact took_afterVerify rfl fun hValid _ hId _ => unused_of_verify hResult hValid hId
  | findPrev job =>
    cases hStep
    exact .quiet rfl rfl
  | claim job prev =>
    simp only [step] at hStep
    split at hStep
    · cases hStep
      exact .quiet rfl (isPlain_finish rfl)
    · by_cases hRow : s.rows job.txId = if prev then some .failed else none
      · rw [if_pos hRow] at hStep
        cases hStep
        apply Took.claimed
        intro status hStatus
        rw [hRow] at hStatus
        cases prev with
        | true => exact (Option.some.inj hStatus).symm
        | false => cases hStatus
      · rw [if_neg hRow] at hStep
        cases hStep
        exact .quiet rfl (isPlain_finish rfl)
  | send job =>
    simp only [step] at hStep
    split at hStep
    · rw [Option.ite_none_right_eq_some] at hStep
      obtain ⟨hConfirmed, hStep⟩ := hStep
      cases hStep
      exact .sent hConfirmed
    · cases hStep
      exact .sendThrown ‹_›
  | markSettled job =>
    simp only [step] at hStep
    split at hStep
    · cases hStep
      exact .marked
    · cases hStep
      exact .markThrown ‹_›
  | recordFailure job msg =>
    cases hStep
    exact .recorded
  | upstreamStatus up result =>
    cases hStep
    exact .responded
  | done answer => cases hStep

end FarmBackend.X402
