import FarmBackend.TravelBookings

/-!
# A request of the assistant

One row of `ai_action_requests`, the calls that decide it, and the money that moves for it. A transfer
and a hold are one transaction each, which has committed exactly when its await returns. What becomes
of a held booking is in `TravelBookings`; of a flight only its key is kept here. Others may write the
intent and the hotel booking at any time.
-/

namespace FarmBackend.ActionRequests
open Interleaving
open TravelBookings (BookingStatus)

set_option autoImplicit false

inductive Action where
  | sendFarm
  | payIntent
  | bookHotel
  | bookFlight
  deriving DecidableEq

inductive Status where
  | pending
  | processing
  | executed
  | failed
  | rejected
  | cancelled
  | expired
  deriving DecidableEq

/-- What has been committed for the request. -/
inductive Movement where
  | transfer
  | intentPayment
  | hotelHold
  | flightHold (key : String)
  deriving DecidableEq

/-- The payment intent; `byUser` says that the user is its payer. -/
inductive IntentStatus where
  | requiresPayment
  | processing
  | succeeded (byUser : Bool)
  | closed
  deriving DecidableEq

/-- `hotel` is the booking with the key `ai-<id>`, `flights` the keys of the flights held for the
request. -/
structure Store where
  status : Status
  moved : List Movement
  intent : IntentStatus
  hotel : Option BookingStatus
  flights : List String

structure Terms where
  action : Action
  amount : ℚ
  intentAmount : ℚ

/-- `written` says that a write was committed although its await throws, `offered` that the flight is
that of the request. -/
structure Outcome where
  throws : Bool
  written : Bool
  expired : Bool
  offered : Bool
  settled : BookingStatus
  created : Bool

inductive Request where
  | confirmAction
  | rejectAction
  | revokePermissions
  | listActions
  | bookFlight (key : String)
  | writeIntent (intent : IntentStatus)
  | writeHotel (status : BookingStatus)

/-- A running call, named after its next step; `reopen` is the `catch` of `confirmAction`. -/
inductive Call where
  | confirmAction
  | expireAction
  | checkCaps
  | claimAction
  | sendFunds
  | readIntent
  | claimIntent
  | payIntent
  | resetIntent
  | recordIntent
  | recordPayment
  | checkAmount
  | findHotel
  | holdHotel
  | orderHotel
  | settleHotel (status : BookingStatus)
  | execute
  | auditExecuted
  | failAction
  | auditFailed
  | reopen
  | rejectAction
  | revokePermissions
  | listActions
  | bookFlight (key : String)
  | checkAiAction (key : String)
  | holdFlight (key : String)
  | orderFlight
  | confirmFlight
  | writeIntent (intent : IntentStatus)
  | writeHotel (status : BookingStatus)
  | done

def Store.move (movement : Movement) (s : Store) : Store := { s with moved := movement :: s.moved }

/-- An `updateMany` of the request where it is pending. -/
def Store.decide (status : Status) (s : Store) : Store :=
  { s with status := if s.status = .pending then status else s.status }

/-- A statement of the `try` that writes `s'`. -/
def attempt (o : Outcome) (s s' : Store) (next : Call) : Store × Call :=
  if o.throws then (if o.written then s' else s, .reopen) else (s', next)

/-- What `confirmAction` makes of the booking it is given. -/
def booked (status : BookingStatus) : Call :=
  if status = .failedRefunded then .failAction else .execute

variable (terms : Terms)

/-- Where the `try` of `confirmAction` begins. -/
def pay : Call :=
  match terms.action with
  | .bookHotel => .findHotel
  | .payIntent => .readIntent
  | .sendFarm | .bookFlight => .sendFunds

def amountChanged : Bool := decide (1 / 1000 < |terms.intentAmount - terms.amount|)

def step (o : Outcome) (s : Store) : Call → Option (Store × Call)
  | .confirmAction =>
    some (s, if s.status ≠ .pending ∨ terms.action = .bookFlight then .done
      else if o.expired then .expireAction else .checkCaps)
  | .expireAction => some ({ s with status := .expired }, .done)
  | .checkCaps => some (s, if o.throws then .done else .claimAction)
  | .claimAction =>
    if s.status = .pending then some ({ s with status := .processing }, pay terms)
    else some (s, .done)
  | .sendFunds =>
    if o.throws then some (s, .reopen) else some (s.move .transfer, .execute)
  | .readIntent =>
    some (s, if o.throws then .reopen else
      match s.intent with
      | .succeeded true => .checkAmount
      | .requiresPayment => .claimIntent
      | .succeeded false | .processing | .closed => .reopen)
  | .claimIntent =>
    if s.intent = .requiresPayment then
      some (attempt o s { s with intent := .processing } .payIntent)
    else some (s, .reopen)
  | .payIntent =>
    if o.throws then some (s, .resetIntent) else some (s.move .intentPayment, .recordIntent)
  | .resetIntent =>
    some (attempt o s
      { s with intent := if s.intent = .processing then .requiresPayment else s.intent } .reopen)
  | .recordIntent => some (attempt o s { s with intent := .succeeded true } .recordPayment)
  | .recordPayment => some (s, if o.throws then .reopen else .checkAmount)
  | .checkAmount => some (s, if amountChanged terms then .reopen else .execute)
  | .findHotel =>
    some (s, if o.throws then .reopen else
      match s.hotel with
      | some status => booked status
      | none => .holdHotel)
  | .holdHotel =>
    if o.throws then some (s, .reopen)
    else
      match s.hotel with
      | some status => some (s, booked status)
      | none => some ({ s.move .hotelHold with hotel := some .paymentHeld }, .orderHotel)
  | .orderHotel => some (s, .settleHotel o.settled)
  | .settleHotel status => some (attempt o s { s with hotel := some status } (booked status))
  | .execute => some (attempt o s { s with status := .executed } .auditExecuted)
  | .auditExecuted => some (s, if o.throws then .reopen else .done)
  | .failAction => some (attempt o s { s with status := .failed } .auditFailed)
  | .auditFailed => some (s, if o.throws then .reopen else .done)
  | .reopen => some ({ s with status := .pending }, .done)
  | .rejectAction => some (s.decide .rejected, .done)
  | .revokePermissions => some (s.decide .cancelled, .done)
  | .listActions => some (if o.expired then s.decide .expired else s, .done)
  | .bookFlight key => some (s, if key ∈ s.flights then .done else .checkAiAction key)
  | .checkAiAction key =>
    some (s, if terms.action = .bookFlight ∧ s.status = .pending ∧ o.expired = false ∧
      o.offered = true then .holdFlight key else .done)
  | .holdFlight key =>
    if key ∈ s.flights then some (s, .done)
    else
      some ({ s.move (.flightHold key) with flights := key :: s.flights }, .orderFlight)
  | .orderFlight => some (s, if o.created then .confirmFlight else .done)
  -- Where this transaction fails the booking is refunded, and the request is left as it is.
  | .confirmFlight =>
    some (if o.throws = true ∧ o.written = false then s else { s with status := .executed }, .done)
  | .writeIntent intent => some ({ s with intent := intent }, .done)
  | .writeHotel status => some ({ s with hotel := s.hotel.map fun _ => status }, .done)
  | .done => none

def enter : Request → Call
  | .confirmAction => .confirmAction
  | .rejectAction => .rejectAction
  | .revokePermissions => .revokePermissions
  | .listActions => .listActions
  | .bookFlight key => .bookFlight key
  | .writeIntent intent => .writeIntent intent
  | .writeHotel status => .writeHotel status

def program : Program Store Call Request Outcome := ⟨enter, step terms⟩

/-- A new request for an intent. -/
def proposed (intent : IntentStatus) : Store := ⟨.pending, [], intent, none, []⟩

/-- Money moves at most once, and not for a request that is pending. -/
structure Consistent (s : Store) : Prop where
  once : s.moved.length ≤ 1
  pending : s.status = .pending → s.moved = []

/-- Once money has moved for the request nothing of `confirmAction` throws, and a flight is held only
for a request that is not pending any more and has moved nothing. -/
def Heeds (o : Outcome) (s : Store) : Call → Prop
  | .recordIntent | .recordPayment | .settleHotel _ | .execute | .auditExecuted | .failAction
  | .auditFailed => o.throws = true → s.moved = []
  | .checkAmount => amountChanged terms = true → s.moved = []
  | .holdFlight key => key ∉ s.flights → s.status ≠ .pending ∧ s.moved = []
  | _ => True

instance (o : Outcome) (s : Store) (call : Call) : Decidable (Heeds terms o s call) :=
  match call with
  | .recordIntent | .recordPayment | .settleHotel _ | .execute | .auditExecuted | .failAction
  | .auditFailed => inferInstanceAs (Decidable (_ → _))
  | .checkAmount => inferInstanceAs (Decidable (_ → _))
  | .holdFlight _ => inferInstanceAs (Decidable (_ → _))
  | .confirmAction | .expireAction | .checkCaps | .claimAction | .sendFunds | .readIntent
  | .claimIntent | .payIntent | .resetIntent | .findHotel | .holdHotel | .orderHotel | .reopen
  | .rejectAction | .revokePermissions | .listActions | .bookFlight _ | .checkAiAction _
  | .orderFlight | .confirmFlight | .writeIntent _ | .writeHotel _ | .done => .isTrue trivial

end FarmBackend.ActionRequests
