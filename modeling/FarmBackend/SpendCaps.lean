import FarmBackend.ActionRequests
import FarmBackend.Rows
import Mathlib.Order.Monotone.Basic

/-!
# The caps on what the assistant spends

The permissions of one user, the requests of the assistant, and what has been spent for them. The caps
are checked on sums over the requests, by two services in two ways, some awaits before the money
moves. Amounts are in cents. A user without a row of permissions has the defaults of its columns. A
statement that fails outside of a `try` ends its call, which is then as good as stopped.
-/

namespace FarmBackend.SpendCaps
open Interleaving Rows
open ActionRequests (Action Status)

set_option autoImplicit false

/-- `startOfDay` of a time, on the calendar of the server. -/
structure Calendar where
  startOfDay : ℕ → ℕ
  mono : Monotone startOfDay

inductive Category where
  | hotels
  | flights
  | transport
  | shopping
  | bills
  | services
  | investments
  | crypto
  deriving DecidableEq

structure Permissions where
  enabled : Bool
  revoked : Bool
  perTxCap : ℕ
  dailyCap : ℕ
  allowedActions : List Action
  spendCategories : List Category

structure ActionRequest where
  action : Action
  status : Status
  amount : ℕ
  createdAt : ℕ
  expiresAt : ℕ

/-- Money that has moved, with the cap in force. `afterRevoke` says that its confirmation had started
after `revokePermissions` had returned, `refunded` that it came back. -/
structure Spend where
  amount : ℕ
  day : ℕ
  cap : ℕ
  afterRevoke : Bool
  refunded : Bool

/-- The last three fields are history: the largest daily cap in force on a day, the number of updates
of the permissions, and this number at the last revocation that has returned. -/
structure Store where
  permissions : Permissions
  requests : List ActionRequest
  now : ℕ
  spends : List Spend
  largestCap : ℕ → ℕ
  updates : ℕ
  revokedAt : Option ℕ

/-- What a confirmation has read of its request; the amount of a flight is the price of its offer. -/
structure Attempt where
  id : ℕ
  action : Action
  amount : ℕ
  createdAt : ℕ
  started : Option ℕ

/-- The permissions, read at a time. -/
structure Snapshot where
  perTxCap : ℕ
  dailyCap : ℕ
  since : ℕ

/-- A sum over the requests, taken at a time when so much had been spent so often. -/
structure Sum where
  today : ℕ
  takenAt : ℕ
  spends : ℕ

inductive Payment where
  | paid (price : ℕ)
  | already
  | throws
  deriving DecidableEq

/-- `written` says that a write was committed although its await throws, `refused` that the provider
refuses a booking, `ordered` that it accepts it. -/
structure Outcome where
  throws : Bool
  written : Bool
  price : ℕ
  payment : Payment
  refused : Bool
  ordered : Bool
  offered : Bool
  expiresAt : ℕ

inductive Request where
  | propose (action : Action) (amount : ℕ)
  | confirmAction (id : ℕ)
  | bookFlight (id : ℕ)
  | updatePermissions (permissions : Permissions)
  | revokePermissions
  | rejectAction (id : ℕ)
  | listActions
  | refund (index : ℕ)
  | wait (elapsed : ℕ)

/-- A running call, named after its next step. -/
inductive Call where
  | propose (action : Action) (amount : ℕ)
  | proposeSum (action : Action) (amount : ℕ) (dailyCap : ℕ)
  | createRequest (action : Action) (amount : ℕ)
  | confirmAction (id : ℕ)
  | expireAction (id : ℕ)
  | checkCaps (a : Attempt)
  | committedToday (a : Attempt) (p : Snapshot)
  | excludeSelf (a : Attempt) (p : Snapshot) (k : Sum)
  | claimAction (a : Attempt) (p : Snapshot) (k : Sum)
  | pay (a : Attempt) (p : Snapshot) (k : Sum)
  | settleHotel (id index : ℕ)
  | execute (id : ℕ)
  | failAction (id : ℕ)
  | audit (id : ℕ)
  | reopen (id : ℕ)
  | bookFlight (id : ℕ)
  | checkAiAction (a : Attempt)
  | executedToday (a : Attempt) (p : Snapshot)
  | holdFlight (a : Attempt) (p : Snapshot) (k : Sum)
  | orderFlight (id total index : ℕ)
  | confirmFlight (id total index : ℕ)
  | refund (index : ℕ)
  | updatePermissions (permissions : Permissions)
  | revokePermissions
  | cancelPending (updates : ℕ)
  | revoked (updates : ℕ)
  | rejectAction (id : ℕ)
  | listActions
  | wait (elapsed : ℕ)
  | done

/-- `ACTION_TTL_MS`. -/
def actionTtl : ℕ := 600000

def category : Action → Option Category
  | .sendFarm => none
  | .payIntent => some .services
  | .bookHotel => some .hotels
  | .bookFlight => some .flights

namespace Permissions

def active (p : Permissions) : Bool := p.enabled && !p.revoked

/-- What `checkAiAction` asks of the permissions. -/
def permitsFlight (p : Permissions) (amount : ℕ) : Bool :=
  p.active && p.allowedActions.contains .bookFlight && decide (amount ≤ p.perTxCap)

/-- What `checkCaps` asks of them. -/
def permits (p : Permissions) (action : Action) (amount : ℕ) : Bool :=
  p.active && p.allowedActions.contains action &&
    (category action).all (p.spendCategories.contains ·) && decide (amount ≤ p.perTxCap)

/-- What `updatePermissions` accepts. -/
def acceptable (p : Permissions) : Bool :=
  decide (p.perTxCap ≤ p.dailyCap) && decide (p.dailyCap ≤ 10000000)

def revoke (p : Permissions) : Permissions :=
  { p with enabled := false, revoked := true, allowedActions := [] }

end Permissions

variable (calendar : Calendar)

namespace ActionRequest

def today (now : ℕ) (r : ActionRequest) : Bool := decide (calendar.startOfDay now ≤ r.createdAt)

/-- What `committedToday` counts. -/
def committed (now : ℕ) (r : ActionRequest) : Bool :=
  r.today calendar now &&
    (r.status == .executed || (r.status == .pending && decide (now < r.expiresAt)))

/-- What `checkAiAction` counts. -/
def executed (now : ℕ) (r : ActionRequest) : Bool := r.today calendar now && r.status == .executed

def setStatus (status : Status) (r : ActionRequest) : ActionRequest := { r with status := status }

/-- An `updateMany` where the request is pending. -/
def decide (status : Status) (r : ActionRequest) : ActionRequest :=
  if r.status = .pending then { r with status := status } else r

end ActionRequest

namespace Store

def sumOf (p : ActionRequest → Bool) (s : Store) : ℕ := ((s.requests.filter p).map (·.amount)).sum

/-- What has been spent on a day and has not come back. -/
def spentOn (day : ℕ) (s : Store) : ℕ :=
  ((s.spends.filter fun spend => spend.day == day && !spend.refunded).map (·.amount)).sum

def today (s : Store) : ℕ := calendar.startOfDay s.now

def write (id : ℕ) (f : ActionRequest → ActionRequest) (s : Store) : Store :=
  { s with requests := s.requests.modify id f }

def spend (a : Attempt) (price : ℕ) (s : Store) : Store :=
  { s with spends := s.spends ++
      [⟨price, s.today calendar, s.permissions.perTxCap, a.started.isSome, false⟩] }

def refund (index : ℕ) (s : Store) : Store :=
  { s with spends := s.spends.modify index fun spend => { spend with refunded := true } }

/-- The daily cap in force counts for the day. -/
def note (s : Store) : Store :=
  let cap := max (s.largestCap (s.today calendar)) s.permissions.dailyCap
  { s with largestCap := Function.update s.largestCap (s.today calendar) cap }

def snapshot (s : Store) : Snapshot := ⟨s.permissions.perTxCap, s.permissions.dailyCap, s.now⟩

end Store

/-- The sum without the request itself. -/
def withoutSelf (k : Sum) (now : ℕ) (r : ActionRequest) : ℤ :=
  if r.today calendar now then k.today - r.amount else k.today

/-- A statement of the `try` of `confirmAction`. -/
def attempt (o : Outcome) (id : ℕ) (s s' : Store) (next : Call) : Store × Call :=
  if o.throws then (if o.written then s' else s, .reopen id) else (s', next)

def Payment.moves : Payment → Bool
  | .paid _ => true
  | .already | .throws => false

/-- What a request is charged; a room may not cost more than was expected. -/
def charge (a : Attempt) (price : ℕ) : Option ℕ :=
  if a.action = .bookHotel then (if price ≤ a.amount then some price else none) else some a.amount

def step (o : Outcome) (s : Store) : Call → Option (Store × Call)
  | .propose action amount =>
    some (s, if s.permissions.permits action amount then
      .proposeSum action amount s.permissions.dailyCap else .done)
  | .proposeSum action amount dailyCap =>
    some (s, if s.sumOf (ActionRequest.committed calendar s.now) + amount ≤ dailyCap then
      .createRequest action amount else .done)
  | .createRequest action amount =>
    let expiresAt :=
      if action = .payIntent then min (s.now + actionTtl) o.expiresAt else s.now + actionTtl
    some ({ s with requests := s.requests ++ [⟨action, .pending, amount, s.now, expiresAt⟩] }, .done)
  | .confirmAction id =>
    match s.requests[id]? with
    | none => none
    | some r =>
      some (s, if r.status ≠ .pending ∨ r.action = .bookFlight then .done
        else if r.expiresAt ≤ s.now then .expireAction id
        else .checkCaps ⟨id, r.action, r.amount, r.createdAt, s.revokedAt⟩)
  | .expireAction id => some (s.write id (ActionRequest.setStatus .expired), .done)
  | .checkCaps a =>
    some (s, if s.permissions.permits a.action a.amount then .committedToday a s.snapshot else .done)
  | .committedToday a p =>
    some (s, .excludeSelf a p
      ⟨s.sumOf (ActionRequest.committed calendar s.now), s.now, s.spends.length⟩)
  | .excludeSelf a p k =>
    match s.requests[a.id]? with
    | none => none
    | some r =>
      some (s, if withoutSelf calendar k s.now r + a.amount ≤ p.dailyCap then .claimAction a p k
        else .done)
  | .claimAction a p k =>
    match s.requests[a.id]? with
    | none => none
    | some r =>
      if r.status = .pending then
        some (s.write a.id (ActionRequest.setStatus .processing), .pay a p k)
      else some (s, .done)
  | .pay a _ _ =>
    match o.payment with
    | .throws => some (s, .reopen a.id)
    | .already => some (s, if o.refused then .failAction a.id else .execute a.id)
    | .paid price =>
      match charge a price with
      | none => some (s, .reopen a.id)
      | some price => some (s.spend calendar a price,
          if a.action = .bookHotel then .settleHotel a.id s.spends.length else .execute a.id)
  | .settleHotel id index =>
    if o.refused then some (attempt o id s (s.refund index) (.failAction id))
    else some (s, if o.throws then .reopen id else .execute id)
  | .execute id =>
    some (attempt o id s (s.write id (ActionRequest.setStatus .executed)) (.audit id))
  | .failAction id =>
    some (attempt o id s (s.write id (ActionRequest.setStatus .failed)) (.audit id))
  | .audit id => some (s, if o.throws then .reopen id else .done)
  | .reopen id => some (s.write id (ActionRequest.setStatus .pending), .done)
  | .bookFlight id =>
    match s.requests[id]? with
    | none => none
    | some r =>
      some (s, if r.action = .bookFlight ∧ r.status = .pending ∧ s.now < r.expiresAt ∧
          o.offered = true then .checkAiAction ⟨id, .bookFlight, o.price, r.createdAt, s.revokedAt⟩
        else .done)
  | .checkAiAction a =>
    some (s, if s.permissions.permitsFlight a.amount then .executedToday a s.snapshot else .done)
  | .executedToday a p =>
    let executed := s.sumOf (ActionRequest.executed calendar s.now)
    some (s, if executed + a.amount ≤ p.dailyCap then
      .holdFlight a p ⟨executed, s.now, s.spends.length⟩ else .done)
  | .holdFlight a _ _ =>
    some (s.spend calendar a a.amount, .orderFlight a.id a.amount s.spends.length)
  | .orderFlight id total index =>
    some (s, if o.refused then .refund index
      else if o.ordered then .confirmFlight id total index else .done)
  | .confirmFlight id total index =>
    let confirmed := s.write id fun r => { r with status := .executed, amount := total }
    some (if o.throws then (if o.written then confirmed else s, .refund index)
      else (confirmed, .done))
  | .refund index => some (s.refund index, .done)
  | .updatePermissions permissions =>
    if permissions.acceptable then
      some (Store.note calendar { s with
        permissions := { permissions with revoked := false }
        updates := s.updates + 1 }, .done)
    else some (s, .done)
  | .revokePermissions =>
    some ({ s with permissions := s.permissions.revoke }, .cancelPending s.updates)
  | .cancelPending updates =>
    some ({ s with requests := s.requests.map (ActionRequest.decide .cancelled) }, .revoked updates)
  | .revoked updates => some ({ s with revokedAt := some updates }, .done)
  | .rejectAction id => some (s.write id (ActionRequest.decide .rejected), .done)
  | .listActions =>
    some ({ s with requests := s.requests.map fun r =>
      if r.expiresAt ≤ s.now then r.decide .expired else r }, .done)
  | .wait elapsed => some (Store.note calendar { s with now := s.now + elapsed }, .done)
  | .done => none

def enter : Request → Call
  | .propose action amount => .propose action amount
  | .confirmAction id => .confirmAction id
  | .bookFlight id => .bookFlight id
  | .updatePermissions permissions => .updatePermissions permissions
  | .revokePermissions => .revokePermissions
  | .rejectAction id => .rejectAction id
  | .listActions => .listActions
  | .refund index => .refund index
  | .wait elapsed => .wait elapsed

def program : Program Store Call Request Outcome := ⟨enter, step calendar⟩

/-- A user who has never used the assistant. -/
def opened (permissions : Permissions) (now : ℕ) : Store :=
  Store.note calendar ⟨permissions, [], now, [], fun _ => 0, 0, none⟩

/-- Every day keeps to the largest cap in force on it, every payment to the cap in force, and nothing
is spent by a confirmation that has started after a revocation. -/
structure Consistent (s : Store) : Prop where
  daily : ∀ day, s.spentOn day ≤ s.largestCap day
  single : ∀ spend ∈ s.spends, spend.amount ≤ spend.cap
  revoked : ∀ spend ∈ s.spends, spend.afterRevoke = false

/-- What has been spent today is on record as executed requests of today. -/
def Recorded (s : Store) : Prop :=
  s.spentOn (s.today calendar) ≤ s.sumOf (ActionRequest.executed calendar s.now)

instance (s : Store) : Decidable (Recorded calendar s) := inferInstanceAs (Decidable (_ ≤ _))

/-- The request is one of those that are counted, if it is of today. -/
def Counted (id : ℕ) (s : Store) : Prop :=
  ∀ r ∈ s.requests[id]?, r.today calendar s.now = true → r.status = .pending ∧ s.now < r.expiresAt

instance (id : ℕ) (s : Store) : Decidable (Counted calendar id s) :=
  inferInstanceAs (Decidable (∀ _ ∈ _, _))

/-- Since its check the day has not ended, the cap has not been lowered and nothing has been spent. -/
def Fresh (p : Snapshot) (k : Sum) (s : Store) : Prop :=
  s.today calendar = calendar.startOfDay p.since ∧ p.perTxCap ≤ s.permissions.perTxCap ∧
    s.spends.length = k.spends

instance (p : Snapshot) (k : Sum) (s : Store) : Decidable (Fresh calendar p k s) :=
  inferInstanceAs (Decidable (_ ∧ _))

/-- The sums are taken when they record what has been spent, the money moves while they are fresh, and
who has started after a revocation finds that no update has followed it. -/
def Heeds (o : Outcome) (s : Store) : Call → Prop
  | .checkCaps a | .checkAiAction a => ∀ updates ∈ a.started, s.updates = updates
  | .committedToday a _ => Recorded calendar s ∧ Counted calendar a.id s
  | .executedToday _ _ => Recorded calendar s
  | .pay _ p k => o.payment.moves = true → Fresh calendar p k s
  | .holdFlight _ p k => Fresh calendar p k s
  | _ => True

instance (o : Outcome) (s : Store) (call : Call) : Decidable (Heeds calendar o s call) :=
  match call with
  | .checkCaps _ | .checkAiAction _ => inferInstanceAs (Decidable (∀ _ ∈ _, _))
  | .committedToday _ _ => inferInstanceAs (Decidable (_ ∧ _))
  | .executedToday _ _ => inferInstanceAs (Decidable (Recorded calendar s))
  | .pay _ _ _ => inferInstanceAs (Decidable (_ → Fresh calendar _ _ s))
  | .holdFlight _ _ _ => inferInstanceAs (Decidable (Fresh calendar _ _ s))
  | .propose _ _ | .proposeSum _ _ _ | .createRequest _ _ | .confirmAction _ | .expireAction _
  | .excludeSelf _ _ _ | .claimAction _ _ _ | .settleHotel _ _ | .execute _ | .failAction _
  | .audit _ | .reopen _ | .bookFlight _ | .orderFlight _ _ _ | .confirmFlight _ _ _ | .refund _
  | .updatePermissions _ | .revokePermissions | .cancelPending _ | .revoked _ | .rejectAction _
  | .listActions | .wait _ | .done => .isTrue trivial

end FarmBackend.SpendCaps
