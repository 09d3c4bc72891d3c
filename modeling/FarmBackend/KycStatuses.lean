import FarmBackend.Interleaving

/-!
# The KYC status of a user

Didit's webhooks and the manual submissions and reviews write one column of one user. A webhook's
transaction is one step, and so is each other database call; a request that throws before its first
one touches no row.
-/

namespace FarmBackend.KycStatuses
open Interleaving

set_option autoImplicit false

inductive KycStatus where
  | none
  | pending
  | verified
  | rejected
  | underReview
  | additionalInfoRequired
  deriving DecidableEq

/-- What a review may decide. -/
inductive ReviewStatus where
  | underReview
  | verified
  | rejected
  | additionalInfoRequired
  deriving DecidableEq

def ReviewStatus.kycStatus : ReviewStatus → KycStatus
  | .underReview => .underReview
  | .verified => .verified
  | .rejected => .rejected
  | .additionalInfoRequired => .additionalInfoRequired

def kycStatusForDiditStatus : String → Option KycStatus
  | "Approved" => some .verified
  | "Declined" => some .rejected
  | "In Review" => some .underReview
  | "Resubmitted" => some .additionalInfoRequired
  | "Kyc Expired" => some .none
  | "Not Started" | "In Progress" | "Awaiting User" | "Abandoned" | "Expired" => some .pending
  | _ => none

/-- A signed and fresh event; `kyb` says that it is about a business, and `forUser` that its
`vendor_data` is the id of the user. -/
structure DiditEvent where
  eventId : String
  kyb : Bool
  status : String
  forUser : Bool

/-- The row of the user, the statuses of his documents by their ids, and the events recorded. The
rest is history: the ids of the events that were applied to the user, the number of approvals among
them, and whether one stands: no review that had read its document after the last one has rejected
the user since. -/
structure Store where
  kycStatus : KycStatus
  documents : List KycStatus
  events : List String
  effects : List String
  approvals : ℕ
  standing : Bool

/-- `row` is the document that `findFirst` comes upon. -/
structure Outcome where
  row : ℕ

inductive Request where
  | webhook (event : DiditEvent)
  | submit
  | review (document : ℕ) (status : ReviewStatus)
  | reviewKyc (document : ℕ) (status : ReviewStatus)

/-- A running call, named after its next step; `seen` is the number of approvals when it read the
row that it tests. -/
inductive Call where
  | processWebhook (event : DiditEvent)
  | submit
  | findSubmission (seen : ℕ)
  | saveDocument (existing : Option ℕ) (seen : ℕ)
  | updateUser (seen : ℕ)
  | review (document : ℕ) (status : ReviewStatus)
  | reviewDocument (document : ℕ) (status : ReviewStatus) (seen : ℕ)
  | reviewUser (status : ReviewStatus) (seen : ℕ)
  | done

/-- The status of a submission that has not been decided. -/
def KycStatus.isOpen : KycStatus → Bool
  | .pending | .underReview | .additionalInfoRequired => true
  | .none | .verified | .rejected => false

/-- The `updateMany`: all but an approval leaves out a user who is verified. -/
def applied (current status : KycStatus) : KycStatus :=
  if status = .verified ∨ current ≠ .verified then status else current

namespace Store

def record (s : Store) (eventId : String) : Store := { s with events := eventId :: s.events }

def apply (s : Store) (eventId : String) (status : KycStatus) : Store :=
  { s with
    kycStatus := applied s.kycStatus status
    effects := eventId :: s.effects
    approvals := if status = .verified then s.approvals + 1 else s.approvals
    standing := s.standing || status = .verified }

def save (s : Store) : Option ℕ → Store
  | some document => { s with documents := s.documents.set document .pending }
  | none => { s with documents := s.documents ++ [.pending] }

end Store

/-- It rejects the user, having read the document after the last approval. -/
def overrules (s : Store) (status : ReviewStatus) (seen : ℕ) : Bool :=
  status = .rejected && seen = s.approvals

/-- The transaction of a webhook; an event id that is recorded already violates the unique index,
and an event about a business is recorded in the same table. -/
def processWebhook (s : Store) (event : DiditEvent) : Store :=
  if event.eventId ∈ s.events then s
  else
    let recorded := s.record event.eventId
    if event.kyb then recorded
    else
      match kycStatusForDiditStatus event.status with
      | none => recorded
      | some status => if event.forUser then recorded.apply event.eventId status else recorded

def step (o : Outcome) (s : Store) : Call → Option (Store × Call)
  | .processWebhook event => some (processWebhook s event, .done)
  | .submit =>
    if s.kycStatus = .verified then none else some (s, .findSubmission s.approvals)
  | .findSubmission seen =>
    if (s.documents[o.row]?).any KycStatus.isOpen then
      some (s, .saveDocument (some o.row) seen)
    else if s.documents.any KycStatus.isOpen then none
    else some (s, .saveDocument none seen)
  | .saveDocument existing seen => some (s.save existing, .updateUser seen)
  | .updateUser _ => some ({ s with kycStatus := .pending }, .done)
  | .review document status =>
    if s.documents[document]? = some .pending then
      some (s, .reviewDocument document status s.approvals)
    else none
  | .reviewDocument document status seen =>
    some ({ s with documents := s.documents.set document status.kycStatus },
      .reviewUser status seen)
  | .reviewUser status seen =>
    some ({ s with
      kycStatus := status.kycStatus
      standing := s.standing && !overrules s status seen }, .done)
  | .done => none

def enter : Request → Call
  | .webhook event => .processWebhook event
  | .submit => .submit
  | .review document status | .reviewKyc document status => .review document status

def program : Program Store Call Request Outcome := ⟨enter, step⟩

def start (kycStatus : KycStatus) (documents : List KycStatus) (events : List String) : Store :=
  ⟨kycStatus, documents, events, [], 0, false⟩

/-- No event takes effect twice, and the user is verified while an approval stands. -/
structure Consistent (s : Store) : Prop where
  once : s.effects.Nodup
  verified : s.standing = true → s.kycStatus = .verified

/-- A submission writes its status only when the user was not approved since it read him, and a
review writes over an approval only its own approval, or a rejection of what it read later. -/
def Heeds (_ : Outcome) (s : Store) : Call → Prop
  | .updateUser seen => s.standing = true → seen = s.approvals
  | .reviewUser status seen =>
    s.standing = true → status = .verified ∨ overrules s status seen = true
  | _ => True

instance (o : Outcome) (s : Store) (call : Call) : Decidable (Heeds o s call) :=
  match call with
  | .updateUser _ => inferInstanceAs (Decidable (_ → _))
  | .reviewUser _ _ => inferInstanceAs (Decidable (_ → _ ∨ _))
  | .processWebhook _ | .submit | .findSubmission _ | .saveDocument _ _ | .review _ _
  | .reviewDocument _ _ _ | .done => .isTrue trivial

end FarmBackend.KycStatuses
