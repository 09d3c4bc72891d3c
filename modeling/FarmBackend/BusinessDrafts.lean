import FarmBackend.Interleaving
import FarmBackend.WithdrawCalls

/-!
# Business applications (`business/business.service.ts`)

An owner fills in the application of a business while the status allows it and submits it with a snapshot
of what was checked; an admin decides. A read outside a transaction is one step, and so is every
transaction. Dates of the application are kept as the texts they were given as; what Didit reports beside
the review is left out, and so is who may call.
-/

namespace FarmBackend.BusinessDrafts
open Interleaving
open WithdrawCalls (trim)

set_option autoImplicit false

abbrev Time := ℕ

inductive BusinessStatus where
  | draft
  | underReview
  | moreInformationRequired
  | approved
  | rejected
  deriving DecidableEq, Repr

/-- Statuses in which the owner may still edit the application. -/
def EDITABLE : List BusinessStatus := [.draft, .moreInformationRequired, .rejected]

inductive Field where
  | legalName
  | tradingName
  | registrationNumber
  | registrationCountry
  | incorporationDate
  | businessType
  | sector
  | taxId
  | country
  | city
  | address
  | postalCode
  | businessEmail
  | businessPhone
  | website
  | description
  deriving DecidableEq, Repr

inductive Role where
  | director
  | beneficialOwner
  deriving DecidableEq, Repr

structure Person where
  role : Role
  fullName : String
  nationality : Option String
  dateOfBirth : Option String
  idNumber : Option String
  email : Option String
  phone : Option String
  ownershipPercent : Option ℚ
  deriving DecidableEq

inductive DocumentType where
  | certificateOfIncorporation
  | businessRegistration
  | taxCertificate
  | memorandumArticles
  | proofOfAddress
  | directorId
  | beneficialOwnerId
  | other
  deriving DecidableEq, Repr

structure Document where
  docType : DocumentType
  fileUrl : String
  fileName : Option String
  deriving DecidableEq

/-- What is reviewed. -/
structure Content where
  fields : Field → Option String
  persons : List Person
  documents : List Document

/-- A field that is not given stays as it is; `some none` is `null`. -/
structure SaveBusinessDraftDto where
  fields : Field → Option (Option String)
  persons : Option (List Person)
  documents : Option (List Document)

inductive Decision where
  | approve
  | requestInfo
  | reject
  deriving DecidableEq, Repr

def Decision.next : Decision → BusinessStatus
  | .approve => .approved
  | .reject => .rejected
  | .requestInfo => .moreInformationRequired

structure ReviewBusinessDto where
  decision : Decision
  notes : Option String

structure Verification where
  status : BusinessStatus
  submittedAt : Time
  reviewedAt : Option Time
  decisionNotes : Option String
  snapshot : Content

/-- The row of the business with its persons, its documents and its verifications, the latest first.
`wasApproved` is history. -/
structure Business where
  status : BusinessStatus
  content : Content
  reviewNotes : Option String
  verifications : List Verification
  wasApproved : Bool

def REQUIRED_DOCUMENT_TYPES : List DocumentType := [.certificateOfIncorporation, .proofOfAddress]

def DocumentType.name : DocumentType → String
  | .certificateOfIncorporation => "certificate_of_incorporation"
  | .businessRegistration => "business_registration"
  | .taxCertificate => "tax_certificate"
  | .memorandumArticles => "memorandum_articles"
  | .proofOfAddress => "proof_of_address"
  | .directorId => "director_id"
  | .beneficialOwnerId => "beneficial_owner_id"
  | .other => "other"

/-- The fields that a submission needs, with their names. -/
def REQUIRED_FIELDS : List (Field × String) :=
  [(.legalName, "legal_name"), (.registrationNumber, "registration_number"),
    (.registrationCountry, "registration_country"), (.sector, "sector"), (.country, "country"),
    (.address, "address"), (.businessEmail, "business_email"), (.businessPhone, "business_phone")]

def missingRequirements (c : Content) : List String :=
  (REQUIRED_FIELDS.filter fun f => trim ((c.fields f.1).getD "") == "").map (·.2) ++
  (if c.persons.any (·.role == .director) then [] else ["directors"]) ++
  (if c.persons.any (·.role == .beneficialOwner) then [] else ["beneficial_owners"]) ++
  (REQUIRED_DOCUMENT_TYPES.filter fun t => !c.documents.any (·.docType == t)).map
    fun t => "document:" ++ t.name

def Content.save (dto : SaveBusinessDraftDto) (c : Content) : Content where
  fields f := (dto.fields f).getD (c.fields f)
  persons := (dto.persons.map fun persons =>
    persons.map fun p => { p with fullName := trim p.fullName }).getD c.persons
  documents := dto.documents.getD c.documents

inductive Request where
  | saveDraft (dto : SaveBusinessDraftDto)
  | submit
  | adminReview (own : Bool) (dto : ReviewBusinessDto)

/-- A running call, named after its next step. `own` says that the admin is the owner. -/
inductive Call where
  | saveDraft (dto : SaveBusinessDraftDto)
  | saveTx (dto : SaveBusinessDraftDto) (status : BusinessStatus)
  | submit
  | submitTx (content : Content)
  | adminReview (own : Bool) (dto : ReviewBusinessDto)
  | reviewTx (dto : ReviewBusinessDto)
  | done

/-- `dto.notes?.trim() || null`. -/
def ReviewBusinessDto.trimmed (dto : ReviewBusinessDto) : Option String :=
  (dto.notes.map trim).filter (· ≠ "")

/-- The first verification that nobody has reviewed. -/
def markReviewed (f : Verification → Verification) : List Verification → List Verification
  | [] => []
  | v :: rest => if v.reviewedAt = none then f v :: rest else v :: markReviewed f rest

namespace Business

def saveTx (dto : SaveBusinessDraftDto) (status : BusinessStatus) (b : Business) : Business :=
  { b with
    content := b.content.save dto
    -- Editing a rejected application starts a fresh draft.
    status := if status = .rejected then .draft else b.status }

def submitTx (content : Content) (now : Time) (b : Business) : Option Business :=
  if b.status ∈ EDITABLE then
    some { b with
      status := .underReview
      reviewNotes := none
      verifications := ⟨.underReview, now, none, none, content⟩ :: b.verifications }
  else none

def reviewTx (dto : ReviewBusinessDto) (now : Time) (b : Business) : Option Business :=
  if b.status = .underReview then
    some { b with
      status := dto.decision.next
      reviewNotes := dto.trimmed
      verifications := markReviewed (fun v => { v with
        status := dto.decision.next
        reviewedAt := some now
        decisionNotes := dto.trimmed }) b.verifications
      wasApproved := b.wasApproved || dto.decision == .approve }
  else none

end Business

def step (now : Time) (b : Business) : Call → Option (Business × Call)
  | .saveDraft dto => if b.status ∈ EDITABLE then some (b, .saveTx dto b.status) else none
  | .saveTx dto status => some (b.saveTx dto status, .done)
  | .submit =>
    if b.status ∈ EDITABLE ∧ missingRequirements b.content = [] then some (b, .submitTx b.content)
    else none
  | .submitTx content => (b.submitTx content now).map fun b => (b, .done)
  | .adminReview own dto =>
    if b.status = .underReview ∧ own = false ∧ (dto.decision ≠ .approve → dto.trimmed ≠ none) then
      some (b, .reviewTx dto)
    else none
  | .reviewTx dto => (b.reviewTx dto now).map fun b => (b, .done)
  | .done => none

def program : Program Business Call Request Time where
  enter
    | .saveDraft dto => .saveDraft dto
    | .submit => .submit
    | .adminReview own dto => .adminReview own dto
  step := step

/-! The claim and its condition. -/

/-- What is under review or approved is what the latest submission had checked, and an approved
business is no draft again. -/
structure Frozen (b : Business) : Prop where
  reviewed : b.status = .underReview ∨ b.status = .approved →
    missingRequirements b.content = [] ∧ ∃ v ∈ b.verifications.head?, v.snapshot = b.content
  approved : b.wasApproved = true → b.status ≠ .draft

def ALL_FIELDS : List Field :=
  [.legalName, .tradingName, .registrationNumber, .registrationCountry, .incorporationDate,
    .businessType, .sector, .taxId, .country, .city, .address, .postalCode, .businessEmail,
    .businessPhone, .website, .description]

theorem mem_ALL_FIELDS (f : Field) : f ∈ ALL_FIELDS := by
  cases f <;> decide

instance : DecidableEq Content := fun a b =>
  decidable_of_iff ((∀ f ∈ ALL_FIELDS, a.fields f = b.fields f) ∧ a.persons = b.persons ∧
      a.documents = b.documents)
    ⟨fun ⟨hFields, hPersons, hDocuments⟩ => by
        obtain ⟨fields, _, _⟩ := a
        obtain ⟨_, _, _⟩ := b
        obtain rfl : fields = _ := funext fun f => hFields f (mem_ALL_FIELDS f)
        obtain rfl := hPersons
        obtain rfl := hDocuments
        rfl,
      fun h => h ▸ ⟨fun _ _ => rfl, rfl, rfl⟩⟩

/-- An edit is written while the business may still be edited, and a submission finds the content that
it has checked. -/
def Undisturbed (_ : Time) (b : Business) : Call → Prop
  | .saveTx _ _ => b.status ∈ EDITABLE
  | .submitTx content => b.status ∈ EDITABLE → b.content = content
  | _ => True

instance (now : Time) (b : Business) (call : Call) : Decidable (Undisturbed now b call) :=
  match call with
  | .saveTx _ _ => inferInstanceAs (Decidable (_ ∈ _))
  | .submitTx _ => inferInstanceAs (Decidable (_ → _))
  | .saveDraft _ | .submit | .adminReview _ _ | .reviewTx _ | .done => .isTrue trivial

end FarmBackend.BusinessDrafts
