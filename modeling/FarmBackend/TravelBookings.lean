import FarmBackend.Ticket
import Mathlib.Data.Rat.Floor

/-!
# A travel booking

One row of `travel_bookings` with its hold and its refunds, the book call that creates it under its
idempotency key, and the calls that resolve or cancel it. The status `refunding` is seen by nobody: it
is written and replaced within the transaction of `refundTx`. A statement that fails outside of a `try`
ends its call, which is then as good as stopped.
-/

namespace FarmBackend.TravelBookings
open Interleaving

set_option autoImplicit false

inductive BookingStatus where
  | paymentHeld
  | confirmed
  | needsReview
  | failedRefunded
  | cancelling
  | cancelled
  deriving DecidableEq

inductive Kind where
  | flight
  | hotel
  deriving DecidableEq

/-- The status of the `escrow_lock` transaction that holds the payment. -/
inductive HoldStatus where
  | processing
  | completed
  | reversed
  deriving DecidableEq

/-- An `escrow_refund` transaction; its amount has been added to the wallet. -/
structure Refund where
  amount : ℚ
  chainSettled : Bool

structure Booking where
  status : BookingStatus
  providerOrderId : Option String
  hold : HoldStatus
  refunds : List Refund

/-- What a booking is created with. -/
structure Terms where
  kind : Kind
  totalFarm : ℚ
  offerAmount : ℚ

/-- `refundedOrder` is history: a book call has refunded the booking although its order had been
created. -/
structure Store where
  booking : Option Booking
  refundedOrder : Bool

structure RefundOptions where
  claims : List BookingStatus := [.paymentHeld, .needsReview]
  status : Option BookingStatus := none
  amount : Option ℚ := none

inductive Action where
  | confirm (providerOrderId : Option String)
  | refund

/-- `createOrder` of the airline or `book` of the hotel. -/
inductive Order where
  | created (id : String)
  | unknown
  | rejected

/-- What `hotels.cancel` answers; `refused` is a status that does not read as cancelled. -/
inductive Cancellation where
  | cancelled (refundAmount : ℚ)
  | refused
  | unknown
  | rejected

/-- A transaction returns, or its await throws, with what it wrote committed or not. -/
inductive Reply where
  | returned
  | lost
  | failed
  deriving DecidableEq

structure Outcome where
  order : Order
  reply : Reply
  cancellation : Cancellation

inductive Request where
  | book
  | adminResolve (action : Action)
  | refund
  | cancel

/-- A running call, named after its next step. `refundBooked` is the refund in the `catch` of `book`;
`ordered` says that its order had been created. -/
inductive Call where
  | book
  | holdAndCreate
  | createOrder
  | confirm (id : String)
  | review
  | refundBooked (ordered : Bool)
  | adminResolve (action : Action)
  | adminConfirm (providerOrderId : Option String)
  | refund
  | cancel
  | claimCancel
  | hotelsCancel
  | writeCancel (unknown : Bool)
  | refundCancelled (farm : ℚ)
  | done

/-- The row that `holdAndCreate` writes. -/
def held : Booking := ⟨.paymentHeld, none, .processing, []⟩

variable (terms : Terms)

def refundTx (opts : RefundOptions) (b : Booking) : Booking :=
  if b.status ∈ opts.claims then
    let amount := min (opts.amount.getD terms.totalFarm) terms.totalFarm
    let status := opts.status.getD .failedRefunded
    if 0 < amount then
      { b with
        status := status
        hold := if opts.status.isNone then .reversed else b.hold
        refunds := b.refunds ++ [⟨amount, b.hold != .completed⟩] }
    else { b with status := status }
  else b

/-- The share of the payment that a cancellation gives back. -/
def cancelRatio (refundAmount : ℚ) : ℚ :=
  if 0 < terms.offerAmount then max 0 (min 1 (refundAmount / terms.offerAmount)) else 0

def cancelledFarm (refundAmount : ℚ) : ℚ :=
  ⌊terms.totalFarm * cancelRatio terms refundAmount * 100⌋ / 100

def cancelOptions (farm : ℚ) : RefundOptions where
  claims := [.cancelling]
  status := some .cancelled
  amount := some farm

namespace Booking

def resolvable (b : Booking) : Bool := b.status == .needsReview || b.status == .paymentHeld

def confirm (providerOrderId : Option String) (b : Booking) : Booking :=
  { b with status := .confirmed, providerOrderId := providerOrderId, hold := .completed }

def setStatus (status : BookingStatus) (b : Booking) : Booking := { b with status := status }

end Booking

namespace Store

/-- A write by the id of the row. -/
def write (f : Booking → Booking) (s : Store) : Store := { s with booking := s.booking.map f }

end Store

def step (o : Outcome) (s : Store) : Call → Option (Store × Call)
  | .book => some (s, if s.booking.isSome then .done else .holdAndCreate)
  | .holdAndCreate =>
    -- The key is unique: whoever comes second is given the row of the first.
    if s.booking.isSome then some (s, .done)
    else some ({ s with booking := some held }, .createOrder)
  | .createOrder =>
    some (s, match o.order with
      | .created id => .confirm id
      | .unknown => .review
      | .rejected => .refundBooked false)
  | .confirm id =>
    match o.reply with
    | .returned => some (s.write (Booking.confirm (some id)), .done)
    | .lost => some (s.write (Booking.confirm (some id)), .refundBooked true)
    | .failed => some (s, .refundBooked true)
  | .review => some (s.write (Booking.setStatus .needsReview), .done)
  | .refundBooked ordered =>
    some ({ s.write (refundTx terms {}) with
      refundedOrder := s.refundedOrder || (ordered && s.booking.any Booking.resolvable) }, .done)
  | .adminResolve action =>
    match s.booking with
    | none => none
    | some b =>
      if b.resolvable = false then some (s, .done)
      else
        some (s, match action with
          | .confirm providerOrderId => .adminConfirm (providerOrderId.or b.providerOrderId)
          | .refund => .refund)
  | .adminConfirm providerOrderId =>
    match s.booking with
    | none => none
    | some b =>
      if b.resolvable then some ({ s with booking := some (b.confirm providerOrderId) }, .done)
      else some (s, .done)
  | .refund => some (s.write (refundTx terms {}), .done)
  | .cancel =>
    match s.booking with
    | none => none
    | some b =>
      some (s, if terms.kind = .hotel ∧ b.status = .confirmed ∧ b.providerOrderId.isSome then
        .claimCancel else .done)
  | .claimCancel =>
    match s.booking with
    | none => none
    | some b =>
      if b.status = .confirmed then
        some ({ s with booking := some (b.setStatus .cancelling) }, .hotelsCancel)
      else some (s, .done)
  | .hotelsCancel =>
    some (s, match o.cancellation with
      | .cancelled refundAmount => .refundCancelled (cancelledFarm terms refundAmount)
      | .refused | .unknown => .writeCancel true
      | .rejected => .writeCancel false)
  | .writeCancel unknown =>
    some (s.write (Booking.setStatus (if unknown then .needsReview else .confirmed)), .done)
  | .refundCancelled farm => some (s.write (refundTx terms (cancelOptions farm)), .done)
  | .done => none

def enter : Request → Call
  | .book => .book
  | .adminResolve action => .adminResolve action
  | .refund => .refund
  | .cancel => .cancel

def program : Program Store Call Request Outcome := ⟨enter, step terms⟩

def empty : Store := ⟨none, false⟩

/-- At most one refund of at most the total, none for a confirmed booking, and none by the book call
whose order was created. -/
structure Consistent (s : Store) : Prop where
  once : ∀ b ∈ s.booking, b.refunds.length ≤ 1
  bounded : ∀ b ∈ s.booking, ∀ refund ∈ b.refunds, refund.amount ≤ terms.totalFarm
  confirmed : ∀ b ∈ s.booking, b.status = .confirmed → b.refunds = []
  ordered : s.refundedOrder = false

/-- Nothing has been refunded, and no cancellation is under way. -/
def Store.untouched (s : Store) : Bool :=
  s.booking.all fun b => b.refunds.isEmpty && b.status != .cancelling

/-- The two writes of `book` by id find nothing refunded and no cancellation under way, and the
transaction that confirms a created order does not throw. -/
def Heeds (o : Outcome) (s : Store) : Call → Prop
  | .confirm _ => s.untouched = true ∧ o.reply = .returned
  | .review => s.untouched = true
  | _ => True

instance (o : Outcome) (s : Store) (call : Call) : Decidable (Heeds o s call) :=
  match call with
  | .confirm _ => inferInstanceAs (Decidable (_ ∧ _))
  | .review => inferInstanceAs (Decidable (_ = _))
  | .book | .holdAndCreate | .createOrder | .refundBooked _ | .adminResolve _ | .adminConfirm _
  | .refund | .cancel | .claimCancel | .hotelsCancel | .writeCancel _ | .refundCancelled _ | .done =>
    .isTrue trivial

end FarmBackend.TravelBookings
