import FarmBackend.Ticket
import FarmBackend.Withdrawals

/-!
# An admin decides on a withdrawal

The submissions of one withdrawal to its provider, the webhooks and the reconciler that settle it, and
the two admin calls that settle it as well. A call stops at every statement and at every answer of the
provider. A statement that fails outside of a `try` ends its call, which is then as good as stopped.
-/

namespace FarmBackend.PayoutDecisions
open Interleaving
open Withdrawals (WithdrawalStatus ApprovalStatus)

set_option autoImplicit false

/-- `nowpayments_payout_status`. -/
inductive PayoutStatus where
  | queued
  | creating
  | unknown
  | finished
  | failed
  | other
  deriving DecidableEq

/-- What the NOWPayments functions ask of the metadata; `payoutRecorded` says that it has a
`nowpayments_payout_id`. -/
structure Metadata where
  approval : ApprovalStatus
  payoutRecorded : Bool
  payoutStatus : PayoutStatus
  deriving DecidableEq

/-- `reserved` says that the wallet still has the amount locked. The last three are history: the one
submission has been answered or given up, the provider has accepted the payout, and has failed it
since. -/
structure Store where
  status : WithdrawalStatus
  metadata : Metadata
  reserved : Bool
  answered : Bool
  accepted : Bool
  returned : Bool

/-- Who has a withdrawal settled. -/
inductive Source where
  | admin
  | submission
  | report
  deriving DecidableEq

/-- What the provider says of a payout. -/
inductive Report where
  | paid
  | failed
  | other
  deriving DecidableEq

/-- How a submission is answered. The outcome may be unknown to us; then `reached` says whether the
provider accepted it. -/
inductive Answer where
  | accepted
  | rejected
  | unknown (reached : Bool)

/-- `failPayout` is the provider's own. -/
inductive Request where
  | processWithdrawal
  | submit
  | webhook
  | transferEvent
  | reconcileCandidate
  | adminApprove
  | adminReject
  | failPayout

/-- A running call, named after its next step, with the metadata it has read. -/
inductive Call where
  | processWithdrawal
  | claimProcessing
  | prepare
  | initiateTransfer
  | recordTransfer
  | recordUnknown
  | submit
  | submitTransaction (status : WithdrawalStatus)
  | findPayout (metadata : Metadata)
  | recordLookup (metadata : Metadata)
  | claimPayout (metadata : Metadata)
  | createPayout
  | payoutUnknown
  | writeUnknown (current : Metadata)
  | recordPayout (named : Bool) (status : PayoutStatus)
  | writePayout (status : PayoutStatus)
  | verify
  | verifyPayout (metadata : Metadata)
  | writeVerified (metadata : Metadata) (status : PayoutStatus)
  | webhook
  | getPayout (metadata : Metadata)
  | reconcile (metadata : Metadata) (report : Report)
  | reconcileCandidate
  | findByExternalId
  | transferEvent
  | markAsSuccess (source : Source)
  | markAsSuccessTx (source : Source) (metadata : Metadata)
  | rejectWithdrawal (source : Source)
  | rejectWithdrawalTx (source : Source) (metadata : Metadata)
  | adminApprove
  | adminReject
  | failPayout
  | done

/-- `recipient` says that Paystack made a recipient, `found` and `named` that NOWPayments found a
payout and gave its id, `code` that there is a verification code, and `funds` that the wallet can be
debited. -/
structure Outcome where
  throws : Bool
  recipient : Bool
  answer : Answer
  found : Bool
  named : Bool
  status : PayoutStatus
  code : Bool
  report : Report
  funds : Bool

namespace Store

def answer (accepted : Bool) (s : Store) : Store :=
  { s with answered := true, accepted := s.accepted || accepted }

def setMetadata (metadata : Metadata) (s : Store) : Store := { s with metadata := metadata }

/-- The provider reports what it has done. -/
def Reports (s : Store) : Report → Prop
  | .paid => s.accepted = true
  | .failed => s.returned = true
  | .other => True

instance (s : Store) (report : Report) : Decidable (s.Reports report) :=
  match report with
  | .paid => inferInstanceAs (Decidable (_ = _))
  | .failed => inferInstanceAs (Decidable (_ = _))
  | .other => .isTrue trivial

end Store

def Metadata.retriesUnknownPayout (status : WithdrawalStatus) (metadata : Metadata) : Bool :=
  status == .processing && metadata.approval == .approved &&
    (metadata.payoutStatus == .creating || metadata.payoutStatus == .unknown)

variable (crypto : Bool)

/-- What a settlement writes to the metadata. -/
def settledMetadata (status : PayoutStatus) (metadata : Metadata) : Metadata :=
  if crypto then { metadata with payoutStatus := status } else metadata

/-- Where a report leads. -/
def settle : Report → Call
  | .paid => .markAsSuccess .report
  | .failed => .rejectWithdrawal .report
  | .other => .done

def reportStatus : Report → PayoutStatus
  | .paid => .finished
  | .failed => .failed
  | .other => .other

def step (o : Outcome) (s : Store) : Call → Option (Store × Call)
  | .processWithdrawal => some (s, if s.status = .pending then .claimProcessing else .done)
  | .claimProcessing =>
    if s.status = .pending then some ({ s with status := .processing }, .prepare)
    else some (s, .done)
  | .prepare =>
    if crypto || o.throws then some (s.answer false, .rejectWithdrawal .submission)
    else some (s, if o.recipient then .initiateTransfer else .done)
  | .initiateTransfer =>
    match o.answer with
    | .accepted => some (s.answer true, .recordTransfer)
    | .rejected => some (s.answer false, .rejectWithdrawal .submission)
    | .unknown reached => some (s.answer reached, .recordUnknown)
  -- The update is still inside the `try` whose `catch` rejects.
  | .recordTransfer => some (s, if o.throws then .rejectWithdrawal .submission else .done)
  | .recordUnknown => some (s, .done)
  | .submit => some (s, .submitTransaction s.status)
  | .submitTransaction status =>
    if crypto = false ∨ s.metadata.payoutRecorded = true then some (s, .done)
    else if s.metadata.retriesUnknownPayout status then some (s, .findPayout s.metadata)
    else if status = .pending ∧ s.metadata.approval = .pending then
      some (s, .claimPayout s.metadata)
    else some (s, .done)
  | .findPayout metadata =>
    if o.found = false then some (s, .recordLookup metadata)
    else if s.accepted then some (s, .recordPayout o.named o.status)
    else none
  | .recordLookup metadata => some (s.setMetadata metadata, .done)
  | .claimPayout metadata =>
    if s.status = .pending then
      some ({ s with
        status := .processing
        metadata := { metadata with approval := .approved, payoutStatus := .creating } },
        .createPayout)
    else some (s, .done)
  | .createPayout =>
    match o.answer with
    | .accepted => some (s.answer true, .recordPayout o.named o.status)
    | .rejected => some (s.answer false, .payoutUnknown)
    | .unknown reached => some (s.answer reached, .payoutUnknown)
  | .payoutUnknown => some (s, .writeUnknown s.metadata)
  | .writeUnknown current =>
    some (s.setMetadata { current with approval := .approved, payoutStatus := .unknown }, .done)
  | .recordPayout named status => some (s, if named then .writePayout status else .done)
  | .writePayout status =>
    some (s.setMetadata ⟨.approved, true, status⟩,
      if status = .creating ∧ o.code = true then .verify else .done)
  | .verify =>
    some (s, if s.metadata.approval = .approved ∧ s.metadata.payoutRecorded = true then
      .verifyPayout s.metadata else .done)
  | .verifyPayout metadata => some (s, .writeVerified metadata o.status)
  | .writeVerified metadata status =>
    some (s.setMetadata { metadata with payoutStatus := status }, .done)
  | .webhook => some (s, if s.metadata.payoutRecorded then .getPayout s.metadata else .done)
  | .getPayout metadata =>
    if s.Reports o.report then some (s, .reconcile metadata o.report) else none
  | .reconcile metadata report =>
    some (s.setMetadata { metadata with payoutStatus := reportStatus report }, settle report)
  | .reconcileCandidate =>
    some (s, if s.metadata.payoutRecorded then .getPayout s.metadata
      else if s.metadata.approval = .pending then .submit else .findByExternalId)
  | .findByExternalId =>
    if o.found = false then some (s, .done)
    else if s.accepted then some (s, .recordPayout o.named o.status)
    else none
  | .transferEvent => if s.Reports o.report then some (s, settle o.report) else none
  | .markAsSuccess source =>
    some (s, if s.status.isOpen then .markAsSuccessTx source s.metadata else .done)
  | .markAsSuccessTx _ metadata =>
    if s.status.isOpen = false then some (s, .done)
    else if o.funds then
      some ({ s with
        status := .completed
        metadata := settledMetadata crypto .finished metadata
        reserved := false }, .done)
    else none
  | .rejectWithdrawal source =>
    some (s, if s.status.isOpen then .rejectWithdrawalTx source s.metadata else .done)
  | .rejectWithdrawalTx _ metadata =>
    if s.status.isOpen = false then some (s, .done)
    else
      some ({ s with
        status := .failed
        metadata := settledMetadata crypto .failed metadata
        reserved := false }, .done)
  | .adminApprove => some (s, if s.status.isOpen then .markAsSuccess .admin else .done)
  | .adminReject => some (s, .rejectWithdrawal .admin)
  | .failPayout => if s.accepted then some ({ s with returned := true }, .done) else none
  | .done => none

def enter : Request → Call
  | .processWithdrawal => .processWithdrawal
  | .submit => .submit
  | .webhook => .webhook
  | .transferEvent => .transferEvent
  | .reconcileCandidate => .reconcileCandidate
  | .adminApprove => .adminApprove
  | .adminReject => .adminReject
  | .failPayout => .failPayout

def program : Program Store Call Request Outcome := ⟨enter, step crypto⟩

/-- A new withdrawal. -/
def created : Store := ⟨.pending, ⟨.pending, false, .queued⟩, true, false, false, false⟩

/-- A payout that the provider accepted, and has not failed since, is not refunded, and a withdrawal
is completed only if its payout was accepted. -/
structure Consistent (s : Store) : Prop where
  refunded : s.status = .failed → s.reserved = false → s.accepted = true → s.returned = true
  completed : s.status = .completed → s.accepted = true

/-- The admin approves what the provider has accepted, and rejects before anything is submitted or
once the submission is over and has left no payout. The update after an accepted transfer does not
fail. -/
def Heeds (o : Outcome) (s : Store) : Call → Prop
  | .markAsSuccessTx .admin _ => s.status.isOpen = true → s.accepted = true
  | .rejectWithdrawalTx .admin _ =>
    s.status = .processing → s.answered = true ∧ (s.accepted = true → s.returned = true)
  | .recordTransfer => o.throws = false
  | _ => True

instance (o : Outcome) (s : Store) (call : Call) : Decidable (Heeds o s call) :=
  match call with
  | .markAsSuccessTx .admin _ => inferInstanceAs (Decidable (_ → _))
  | .rejectWithdrawalTx .admin _ => inferInstanceAs (Decidable (_ → _))
  | .recordTransfer => inferInstanceAs (Decidable (_ = _))
  | .markAsSuccessTx .submission _ | .markAsSuccessTx .report _ | .rejectWithdrawalTx .submission _
  | .rejectWithdrawalTx .report _ | .processWithdrawal | .claimProcessing | .prepare
  | .initiateTransfer | .recordUnknown | .submit | .submitTransaction _ | .findPayout _
  | .recordLookup _ | .claimPayout _ | .createPayout | .payoutUnknown | .writeUnknown _
  | .recordPayout _ _ | .writePayout _ | .verify | .verifyPayout _ | .writeVerified _ _ | .webhook
  | .getPayout _ | .reconcile _ _ | .reconcileCandidate | .findByExternalId | .transferEvent
  | .markAsSuccess _ | .rejectWithdrawal _ | .adminApprove | .adminReject | .failPayout | .done =>
    .isTrue trivial

end FarmBackend.PayoutDecisions
