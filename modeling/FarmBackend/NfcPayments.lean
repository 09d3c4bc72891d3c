import FarmBackend.Interleaving

/-!
# One tap-to-pay request

The row of a request, the calls of `pay` on it by any payers, and the payee's `status`. Each await is
one step, and so is the check of the token, which reads only the clock. The tokens are those signed
for this request; tap to pay is switched on and configured.
-/

namespace FarmBackend.NfcPayments
open Interleaving

set_option autoImplicit false

/-- What `create` has written; the times are in milliseconds. -/
structure Terms where
  payee : String
  expiresAt : ℕ

/-- `exp` is in seconds; `padded` says that white space follows the signature. -/
structure Token where
  exp : ℕ
  padded : Bool

structure Row where
  usedAt : Option ℕ
  payer : Option String
  reference : Option String

/-- A committed transfer, with the time at which its call has claimed the request. -/
structure Transfer where
  payer : String
  reference : String
  claimedAt : ℕ
  deriving DecidableEq

inductive PaymentStatus where
  | paid
  | expired
  | pending
  deriving DecidableEq

/-- What a call was told, and the transfer there was when the row was read: a payer gets the reference
of a receipt, or is refused. -/
inductive Answer where
  | pay (paidBy : Option Transfer) (payer : String) (receipt : Option String)
  | status (paidBy : Option Transfer) (status : PaymentStatus)
  deriving DecidableEq

/-- Besides the row this is history. -/
structure Store where
  row : Row
  transfers : List Transfer
  answers : List Answer

/-- `hasWallet` says that the payee has an active wallet; `reference` is that of the transfer, unless
`sendFunds` throws. -/
structure Outcome where
  now : ℕ
  throws : Bool
  hasWallet : Bool
  reference : Option String

inductive Request where
  | pay (payer : String) (token : Token)
  | status

/-- A running call, named after its next step. -/
inductive Call where
  | verify (payer : String) (token : Token)
  | load (payer : String) (token : Token)
  | priorReceipt (payer : String) (token : Token)
  | claim (payer : String)
  | reread (payer : String)
  | findWallet (payer : String) (claimedAt : ℕ)
  | sendFunds (payer : String) (claimedAt : ℕ)
  | release (payer : String)
  | recordReference (payer : String) (reference : String)
  | status
  | done

/-- The reference in the receipt of a payer: the row is his, and has one. -/
def Row.receiptFor (row : Row) (payer : String) : Option String :=
  if row.payer = some payer then row.reference else none

namespace Store

def answer (s : Store) (a : Answer) : Store := { s with answers := a :: s.answers }

def reply (s : Store) (payer : String) (receipt : Option String) : Store :=
  s.answer (.pay s.transfers.head? payer receipt)

def claim (s : Store) (payer : String) (now : ℕ) : Store :=
  { s with row := { s.row with usedAt := some now, payer := some payer } }

/-- The `updateMany` of the `catch`. -/
def release (s : Store) (payer : String) : Store :=
  if s.row.payer = some payer ∧ s.row.reference = none then
    { s with row := { s.row with usedAt := none, payer := none } }
  else s

def transfer (s : Store) (t : Transfer) : Store := { s with transfers := t :: s.transfers }

def recordReference (s : Store) (reference : String) : Store :=
  { s with row := { s.row with reference := some reference } }

end Store

variable (terms : Terms)

/-- `load` throws after the token was verified. -/
def loadThrows (o : Outcome) : Bool := o.throws || terms.expiresAt ≤ o.now

/-- What follows when the row has been loaded. -/
def loaded (s : Store) (payer : String) : Store × Call :=
  if s.row.usedAt.isSome then (s.reply payer (s.row.receiptFor payer), .done)
  else if terms.payee = payer then (s.reply payer none, .done)
  else (s, .claim payer)

/-- `priorReceipt` compares the signature with white space and all. -/
def hasPrior (row : Row) (payer : String) (token : Token) : Bool :=
  !token.padded && (row.receiptFor payer).isSome

def paymentStatus (o : Outcome) (row : Row) : PaymentStatus :=
  if row.reference.isSome then .paid
  else if terms.expiresAt ≤ o.now then .expired
  else .pending

def step (o : Outcome) (s : Store) : Call → Option (Store × Call)
  | .verify payer token =>
    some (s, if token.exp * 1000 ≤ o.now then .priorReceipt payer token else .load payer token)
  | .load payer token =>
    if loadThrows terms o then some (s, .priorReceipt payer token)
    else some (loaded terms s payer)
  | .priorReceipt payer token =>
    if o.throws then none
    else if hasPrior s.row payer token then some (loaded terms s payer)
    else some (s.reply payer none, .done)
  | .claim payer =>
    if o.throws then none
    else if s.row.usedAt = none ∧ o.now < terms.expiresAt then
      some (s.claim payer o.now, .findWallet payer o.now)
    else some (s, .reread payer)
  | .reread payer =>
    if o.throws then none else some (s.reply payer (s.row.receiptFor payer), .done)
  -- This read is not inside the `try`.
  | .findWallet payer claimedAt =>
    if o.throws then none
    else some (s, if o.hasWallet then .sendFunds payer claimedAt else .release payer)
  | .sendFunds payer claimedAt =>
    match o.reference with
    | none => some (s, .release payer)
    | some reference =>
      some (s.transfer ⟨payer, reference, claimedAt⟩, .recordReference payer reference)
  | .release payer =>
    if o.throws then none else some ((s.release payer).reply payer none, .done)
  | .recordReference payer reference =>
    if o.throws then none
    else some ((s.recordReference reference).reply payer (some reference), .done)
  | .status =>
    if o.throws then none
    else some (s.answer (.status s.transfers.head? (paymentStatus terms o s.row)), .done)
  | .done => none

def enter : Request → Call
  | .pay payer token => .verify payer token
  | .status => .status

def program : Program Store Call Request Outcome := ⟨enter, step terms⟩

def start : Store := ⟨⟨none, none, none⟩, [], []⟩

/-- After a transfer its payer gets its receipt, nobody else gets one, and the payee is told that it
is paid; before it there is no receipt, and it is not paid. -/
def Answer.Agrees : Answer → Prop
  | .pay paidBy payer receipt =>
    receipt = paidBy.bind fun t => if t.payer = payer then some t.reference else none
  | .status paidBy told => told = .paid ↔ paidBy.isSome = true

instance (a : Answer) : Decidable a.Agrees :=
  match a with
  | .pay _ _ _ => inferInstanceAs (Decidable (_ = _))
  | .status _ _ => inferInstanceAs (Decidable (_ ↔ _))

/-- One transfer, of a call that has claimed the request in time; it cannot be claimed again, and
every answer agrees with the transfer. -/
structure Consistent (s : Store) : Prop where
  once : s.transfers.length ≤ 1
  inTime : ∀ t ∈ s.transfers, t.claimedAt < terms.expiresAt
  closed : s.transfers ≠ [] → s.row.usedAt ≠ none
  answered : ∀ a ∈ s.answers, a.Agrees

/-- If the transfer is this payer's, its reference has been written. -/
def Settled (s : Store) (payer : String) : Prop :=
  ∀ t ∈ s.transfers, t.payer = payer → s.row.reference.isSome = true

instance (s : Store) (payer : String) : Decidable (Settled s payer) :=
  inferInstanceAs (Decidable (∀ t ∈ s.transfers, t.payer = payer → _))

/-- The payer of the transfer and the payee read the row only when the reference has been written, and
no white space follows the token of a payer who has paid and comes too late. -/
def Heeds (o : Outcome) (s : Store) : Call → Prop
  | .load payer _ => loadThrows terms o = false → Settled s payer
  | .priorReceipt payer token =>
    Settled s payer ∧ ∀ t ∈ s.transfers, t.payer = payer → token.padded = false
  | .reread payer => Settled s payer
  | .status => s.transfers ≠ [] → s.row.reference.isSome = true
  | _ => True

instance (o : Outcome) (s : Store) (call : Call) : Decidable (Heeds terms o s call) :=
  match call with
  | .load _ _ => inferInstanceAs (Decidable (_ → _))
  | .priorReceipt _ _ => inferInstanceAs (Decidable (_ ∧ ∀ t ∈ s.transfers, t.payer = _ → _))
  | .reread _ => inferInstanceAs (Decidable (Settled _ _))
  | .status => inferInstanceAs (Decidable (_ → _))
  | .verify _ _ | .claim _ | .findWallet _ _ | .sendFunds _ _ | .release _
  | .recordReference _ _ | .done => .isTrue trivial

end FarmBackend.NfcPayments
