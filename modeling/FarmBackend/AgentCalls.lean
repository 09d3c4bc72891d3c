import FarmBackend.AgentRequests
import FarmBackend.Interleaving

/-!
# Paying intents and deciding agent requests, call by call

Every database call is one step, and `sendFunds` is one: it either commits its transfer or throws.
Time passes before a step. A payment runs by itself or inside a confirmation, whose `try` catches
what it throws.
-/

namespace FarmBackend.AgentPayments
open Decimal Wallets Interleaving

set_option autoImplicit false

/-- The time zone, and the lifetime of a request (`limits().request_ttl_min`). -/
structure Env where
  calendar : Calendar
  requestTtl : ℕ

/-- What happens at a step: how long it took to come, whether the database call throws, what
`sendFunds` answers, and which of two parallel reads is answered first. -/
structure Outcome where
  elapsed : ℕ
  fails : Bool
  sent : Except Failure ℕ
  monthFirst : Bool

structure Payment where
  payerUserId : UserId
  intentId : IntentId
  pinGiven : Bool
  deriving DecidableEq

inductive PayCall where
  | expire (p : Payment)
  | read (p : Payment)
  | business (p : Payment) (i : PaymentIntent)
  | claim (p : Payment) (i : PaymentIntent)
  | send (p : Payment) (i : PaymentIntent)
  | reset (p : Payment) (e : Failure)
  | record (p : Payment) (reference : ℕ)
  | receipt (p : Payment) (reference : ℕ)
  deriving DecidableEq

inductive PayResult where
  | going (c : PayCall)
  | paid (reference : Option ℕ)
  | thrown (e : Failure)

/-- What `payIntent` makes of the intent it has read. -/
def payable (p : Payment) (i : PaymentIntent) : PayResult :=
  if i.liveMode = false then .thrown .other
  else if i.status = .succeeded ∧ i.payerUserId = some p.payerUserId then
    .paid i.transactionReference
  else if i.status = .requiresPayment then .going (.business p i)
  else .thrown .gone

/-- A database call of `payIntent` that does not throw. -/
def payAnswered (o : Outcome) (s : Store) : PayCall → Store × PayResult
  | .expire p => (s.expireIntents (.byId p.intentId), .going (.read p))
  | .read p =>
    match s.intents[p.intentId]? with
    | none => (s, .thrown .other)
    | some i => (s, payable p i)
  | .business p i =>
    match s.ownerOf i.businessId with
    | none => (s, .thrown .other)
    | some owner =>
      if owner = p.payerUserId then (s, .thrown (.forbidden false)) else (s, .going (.claim p i))
  | .claim p i =>
    match s.claimIntent p.intentId p.payerUserId with
    | none => (s, .thrown .gone)
    | some s' => (s', .going (.send p i))
  | .send p i =>
    match o.sent with
    | .error e => (s, .going (.reset p e))
    | .ok reference =>
      ({ s with transfers := s.transfers ++ [⟨p.intentId, p.payerUserId, i.amount, reference⟩] },
        .going (.record p reference))
  | .reset p e => (s.resetIntent p.intentId, .thrown e)
  | .record p reference => (s.recordPayment p.intentId reference, .going (.receipt p reference))
  | .receipt _ reference => (s, .paid (some reference))

/-- The `catch` of `payIntent` covers the lookup of the wallet and `sendFunds` only. -/
def payStep (o : Outcome) (s : Store) (c : PayCall) : Store × PayResult :=
  if o.fails = true then
    match c with
    | .send p _ => (s, .going (.reset p .other))
    | _ => (s, .thrown .other)
  else payAnswered o s c

def payEnter (p : Payment) : PayResult :=
  if p.pinGiven then .going (.expire p) else .thrown .other

structure Confirm where
  userId : UserId
  requestId : RequestId
  pinGiven : Bool
  deriving DecidableEq

/-- What a confirmation holds after its claim. Its check keeps the sums it was made from. -/
structure Attempt where
  confirm : Confirm
  row : AgentRequest
  mandate : Mandate
  usage : Usage
  deriving DecidableEq

inductive ConfirmCall where
  | read (q : Confirm)
  | expired (q : Confirm)
  | claim (q : Confirm) (r : AgentRequest)
  | mandate (q : Confirm) (r : AgentRequest)
  | usage (a : Attempt)
  | paying (a : Attempt) (c : PayCall)
  | mark (a : Attempt) (reference : Option ℕ)
  | settle (q : Confirm) (e : Failure)
  deriving DecidableEq

/-- `createAgentRequest`'s arguments. -/
structure Creation where
  ctx : BizCtx
  authorizationId : MandateId
  intentId : IntentId
  idem : Option String

inductive CreateCall where
  | lookup (d : Creation)
  | mandate (d : Creation)
  | expire (d : Creation) (m : Mandate)
  | intent (d : Creation) (m : Mandate)
  | usage (d : Creation) (m : Mandate) (i : PaymentIntent) (u : Usage)
  | openRequest (d : Creation) (m : Mandate) (i : PaymentIntent)
  | create (d : Creation) (m : Mandate) (i : PaymentIntent)

structure Cancel where
  businessId : BusinessId
  intentId : IntentId
  live : Option Bool

inductive Call where
  | pay (c : PayCall)
  | confirm (c : ConfirmCall)
  | create (c : CreateCall)
  | cancelExpire (q : Cancel)
  | cancelRead (q : Cancel)
  | cancelUnpaid (q : Cancel)
  | cancelRequests (q : Cancel)
  | expireIntents (which : Which)
  | reject (userId : UserId) (id : RequestId)
  | revoke (userId : UserId) (id : MandateId)
  | cancelRequestsUnder (id : MandateId)
  | done

inductive Request where
  | pay (p : Payment)
  | confirm (q : Confirm)
  | create (d : Creation)
  | cancel (q : Cancel)
  | expireIntents (which : Which)
  | reject (userId : UserId) (id : RequestId)
  | revoke (userId : UserId) (id : MandateId)

def PayResult.alone : PayResult → Call
  | .going c => .pay c
  | .paid _ => .done
  | .thrown _ => .done

def PayResult.within (a : Attempt) : PayResult → ConfirmCall
  | .going c => .paying a c
  | .paid reference => .mark a reference
  | .thrown e => .settle a.confirm e

def Attempt.payment (a : Attempt) : Payment :=
  ⟨a.confirm.userId, a.row.intentId, a.confirm.pinGiven⟩

def enter : Request → Call
  | .pay p => (payEnter p).alone
  | .confirm q => .confirm (.read q)
  | .create d => .create (.lookup d)
  | .cancel q => .cancelExpire q
  | .expireIntents which => .expireIntents which
  | .reject userId id => .reject userId id
  | .revoke userId id => .revoke userId id

/-- The mandate as `confirmRequest` reads it, and the start of `checkCaps`. -/
def checkMandate (env : Env) (now : Time) (q : Confirm) (r : AgentRequest) :
    Option Mandate → ConfirmCall
  | none => .settle q (.forbidden false)
  | some m =>
    if m.allows now r.amount then .usage ⟨q, r, m, .start env.calendar now⟩
    else .settle q (.forbidden false)

/-- The end of `checkCaps`: a payment starts when both sums are in and fit. -/
def checkUsage (a : Attempt) : ConfirmCall :=
  if a.usage.complete then
    if a.usage.fits a.mandate a.row.amount then (payEnter a.payment).within a
    else .settle a.confirm (.forbidden false)
  else .usage a

/-- A step of a confirmation before its claim; an exception ends it. -/
def confirmOpen (s : Store) : ConfirmCall → Option (Store × Call)
  | .read q => do
    let r ← s.requests[q.requestId]?
    if r.userId = q.userId ∧ r.status = .pending then
      if r.expiresAt ≤ s.now then some (s, .confirm (.expired q))
      else some (s, .confirm (.claim q r))
    else if r.userId = q.userId ∧ r.status = .confirmed then some (s, .done)
    else none
  | .expired q => some (s.expireRequest q.requestId, .done)
  | .claim q r => do
    let s' ← s.claimRequest q.requestId
    return (s', .confirm (.mandate q r))
  | _ => none

/-- A step inside the `try`. -/
def confirmTried (env : Env) (o : Outcome) (s : Store) : ConfirmCall → Store × ConfirmCall
  | .mandate q r =>
    if o.fails then (s, .settle q .other)
    else (s, checkMandate env s.now q r s.mandates[r.authorizationId]?)
  | .usage a =>
    if o.fails then (s, .settle a.confirm .other)
    else
      let usage := a.usage.read o.monthFirst a.row.authorizationId (some a.confirm.requestId) s
      (s, checkUsage { a with usage := usage })
  | .paying a c => ((payStep o s c).1, (payStep o s c).2.within a)
  | c => (s, c)

def confirmStep (env : Env) (o : Outcome) (s : Store) (c : ConfirmCall) : Option (Store × Call) :=
  match c with
  | .read _ | .expired _ | .claim _ _ => if o.fails then none else confirmOpen s c
  | .mandate _ _ | .usage _ | .paying _ _ =>
    some ((confirmTried env o s c).1, .confirm (confirmTried env o s c).2)
  | .mark a reference =>
    if o.fails then some (s, .confirm (.settle a.confirm .other))
    else some (s.confirm a.confirm.requestId reference, .done)
  | .settle q e => if o.fails then none else some (s.settle q.requestId e, .done)

def newRequest (env : Env) (now : Time) (d : Creation) (m : Mandate) (i : PaymentIntent) :
    AgentRequest where
  authorizationId := d.authorizationId
  userId := m.userId
  businessId := d.ctx.businessId
  intentId := d.intentId
  amount := i.amount
  status := .pending
  transactionReference := none
  idempotencyKey := d.idem
  expiresAt := min (now + env.requestTtl) i.expiresAt
  decidedAt := none
  createdAt := now

def createStep (env : Env) (o : Outcome) (s : Store) : CreateCall → Option (Store × Call)
  | .lookup d =>
    if d.ctx.live = false then none
    else
      match d.idem.bind fun key => s.keyed d.ctx.businessId key with
      | some _ => some (s, .done)
      | none => some (s, .create (.mandate d))
  | .mandate d => do
    let m ← s.mandates[d.authorizationId]?
    if m.businessId = d.ctx.businessId then some (s, .create (.expire d m)) else none
  | .expire d m => some (s.expireIntents (.byId d.intentId), .create (.intent d m))
  | .intent d m => do
    let i ← s.intents[d.intentId]?
    if i.businessId = d.ctx.businessId ∧ i.liveMode = true ∧ i.status = .requiresPayment ∧
        m.allows s.now i.amount then
      some (s, .create (.usage d m i (.start env.calendar s.now)))
    else none
  | .usage d m i u =>
    let u := u.read o.monthFirst d.authorizationId none s
    if u.complete then
      if u.fits m i.amount then some (s, .create (.openRequest d m i)) else none
    else some (s, .create (.usage d m i u))
  | .openRequest d m i =>
    match s.openRequest d.intentId with
    | some _ => some (s, .done)
    | none => some (s, .create (.create d m i))
  | .create d m i =>
    if s.keyTaken d.ctx.businessId d.idem then none
    else some (s.requestsCreate (newRequest env s.now d m i), .done)

/-- A step of the other calls, all of whose exceptions end them. -/
def plainStep (env : Env) (o : Outcome) (s : Store) : Call → Option (Store × Call)
  | .create c => createStep env o s c
  | .cancelExpire q => some (s.expireIntents (.byId q.intentId), .cancelRead q)
  | .cancelRead q => do
    let i ← s.intents[q.intentId]?
    if i.businessId = q.businessId ∧ ∀ live ∈ q.live, i.liveMode = live then
      some (s, .cancelUnpaid q)
    else none
  | .cancelUnpaid q => do
    let s' ← s.cancelUnpaid q.intentId
    return (s', .cancelRequests q)
  | .cancelRequests q => some (s.cancelRequestsOf q.intentId, .done)
  | .expireIntents which => some (s.expireIntents which, .done)
  | .reject userId id => do
    let s' ← s.reject userId id
    return (s', .done)
  | .revoke userId id => do
    let s' ← s.revoke userId id
    return (s', .cancelRequestsUnder id)
  | .cancelRequestsUnder id => some (s.cancelRequestsUnder id, .done)
  | _ => none

def stepNow (env : Env) (o : Outcome) (s : Store) : Call → Option (Store × Call)
  | .pay c => some ((payStep o s c).1, (payStep o s c).2.alone)
  | .confirm c => confirmStep env o s c
  | c => if o.fails then none else plainStep env o s c

def step (env : Env) (o : Outcome) (s : Store) (c : Call) : Option (Store × Call) :=
  stepNow env o (s.pass o.elapsed) c

def program (env : Env) : Program Store Call Request Outcome := ⟨enter, step env⟩

end FarmBackend.AgentPayments
