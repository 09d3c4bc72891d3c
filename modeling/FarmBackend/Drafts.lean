import FarmBackend.ProjectCalls
import FarmBackend.WithdrawCalls

/-!
# Projects under preparation (`business-projects.service.ts`)

A business edits its project while the status allows it and submits it for review; from then on only
admins move it. The rows of the project are those of the custody; the texts, the documents and the
history of the last submission are added here. Country, duration and start date, which nothing below
reads, are left out, and so is who may call.
-/

namespace FarmBackend.Drafts
open Decimal Wallets Interleaving Projects
open WithdrawCalls (trim truthy)

set_option autoImplicit false

inductive Field where
  | projectName
  | sector
  | summary
  | description
  | useOfFunds
  | riskFactors
  | instrumentType
  | location
  | bannerImage
  | team
  deriving DecidableEq, Repr

inductive DocumentKind where
  | businessPlan
  | financialStatements
  | financialProjections
  | licencePermit
  | landTitleLease
  | pitchDeck
  | valuationReport
  | legalAgreement
  | environmentalAssessment
  | other
  deriving DecidableEq, Repr

/-- `undefined`, `null` or a value. -/
inductive Input (α : Type) where
  | undefined
  | null
  | given (v : α)
  deriving DecidableEq

structure ProjectInput where
  fields : Field → Input String
  targetAmount : Input ℚ
  minimumInvestment : Input ℚ
  maximumInvestment : Input ℚ
  endsAt : Input Time

/-- What `cleanProjectInput` makes of an input: the columns to write. -/
structure Patch where
  fields : Field → Option (Option String)
  targetAmount : Option ℚ
  minimumInvestment : Option ℚ
  maximumInvestment : Option (Option ℚ)
  endsAt : Option (Option Time)

def SECTORS : List String :=
  ["agriculture", "energy", "real_estate", "infrastructure", "technology", "manufacturing", "other"]

def INSTRUMENT_TYPES : List String := ["equity", "debt", "revenue_share", "asset_backed", "other"]

def REQUIRED_DOCUMENTS : List DocumentKind := [.businessPlan, .financialStatements]

def MAX_MILESTONES : ℕ := 12

/-- The limit of a text, or the values of a choice. -/
inductive FieldRule where
  | text (limit : ℕ)
  | choice (values : List String)

/-- `TEXT_LIMITS`, and the two fields with a list of values. -/
def FIELD_RULES : Field → FieldRule
  | .projectName | .location => .text 255
  | .summary => .text 500
  | .bannerImage => .text 2000
  | .description | .useOfFunds | .riskFactors | .team => .text 20000
  | .sector => .choice SECTORS
  | .instrumentType => .choice INSTRUMENT_TYPES

/-- The length of a string in UTF-16 code units. -/
def length (s : String) : ℕ := (s.toList.map fun c => if c.toNat < 65536 then 1 else 2).sum

/-- One field of `cleanProjectInput`; `none` throws. -/
def cleanField (rule : FieldRule) : Input String → Option (Option (Option String))
  | .undefined => some none
  | .null =>
    match rule with
    | .text _ => some (some none)
    | .choice _ => none
  | .given v =>
    match rule with
    | .text limit => if length v ≤ limit then some (some (truthy (some (trim v)))) else none
    | .choice values => if v ∈ values then some (some (some v)) else none

/-- A number that has to be positive; `Number(null)` is zero. -/
def cleanAmount : Input ℚ → Option (Option ℚ)
  | .undefined => some none
  | .null => none
  | .given v => if 0 < v ∧ v ≤ 10 ^ 12 then some (some v) else none

def cleanMaximum : Input ℚ → Option (Option (Option ℚ))
  | .null => some (some none)
  | input => (cleanAmount input).map fun v => v.map some

def cleanTime : Input Time → Option (Option Time)
  | .undefined => none
  | .null => some none
  | .given t => some (some t)

def ALL_FIELDS : List Field :=
  [.projectName, .sector, .summary, .description, .useOfFunds, .riskFactors, .instrumentType,
    .location, .bannerImage, .team]

def cleanProjectInput (dto : ProjectInput) : Option Patch := do
  let targetAmount ← cleanAmount dto.targetAmount
  let minimumInvestment ← cleanAmount dto.minimumInvestment
  let maximumInvestment ← cleanMaximum dto.maximumInvestment
  if ∀ f ∈ ALL_FIELDS, (cleanField (FIELD_RULES f) (dto.fields f)).isSome then
    some {
      fields := fun f => (cleanField (FIELD_RULES f) (dto.fields f)).join
      targetAmount := targetAmount
      minimumInvestment := minimumInvestment
      maximumInvestment := maximumInvestment
      endsAt := cleanTime dto.endsAt }
  else none

structure MilestoneItem where
  title : String
  amount : ℚ

/-- What a submission checks of the milestones and their target. -/
structure Content where
  targetAmount : ℤ
  amounts : List ℤ
  deriving DecidableEq

/-- `reviewed` is history and no column: what the last submission had checked. -/
structure Draft where
  custody : Custody
  fields : Field → Option String
  documents : List DocumentKind
  reviewed : Option Content

namespace Draft

def project (s : Draft) : Project := s.custody.project

def content (s : Draft) : Content where
  targetAmount := s.project.targetAmount
  amounts := s.project.milestones.map (·.amount)

def modifyProject (f : Project → Project) (s : Draft) : Draft :=
  { s with custody := s.custody.update f }

/-- `investment_projects.update`, by id alone. -/
def patch (d : Patch) (s : Draft) : Draft :=
  { s.modifyProject (fun p => { p with
      targetAmount := (d.targetAmount.map Wallets.toUnits).getD p.targetAmount
      minimumInvestment := match d.minimumInvestment with
        | none => p.minimumInvestment
        | some v => some (Wallets.toUnits v)
      maximumInvestment := match d.maximumInvestment with
        | none => p.maximumInvestment
        | some v => v.map Wallets.toUnits
      endsAt := d.endsAt.getD p.endsAt }) with
    fields := fun f => (d.fields f).getD (s.fields f) }

/-- `deleteMany` and `createMany` in one transaction. -/
def replaceMilestones (items : List MilestoneItem) (s : Draft) : Draft :=
  s.modifyProject fun p => { p with
    milestones := items.map fun m => ⟨Wallets.toUnits m.amount, .planned, none⟩ }

end Draft

/-- The fields a submission needs, with their names. -/
def REQUIRED_FIELDS : List (Field × String) :=
  [(.projectName, "project_name"), (.sector, "sector"), (.summary, "summary"),
    (.description, "description"), (.useOfFunds, "use_of_funds"), (.riskFactors, "risk_factors"),
    (.instrumentType, "instrument_type"), (.location, "location")]

def DocumentKind.name : DocumentKind → String
  | .businessPlan => "business_plan"
  | .financialStatements => "financial_statements"
  | .financialProjections => "financial_projections"
  | .licencePermit => "licence_permit"
  | .landTitleLease => "land_title_lease"
  | .pitchDeck => "pitch_deck"
  | .valuationReport => "valuation_report"
  | .legalAgreement => "legal_agreement"
  | .environmentalAssessment => "environmental_assessment"
  | .other => "other"

/-- The amounts add up to the target, give or take half a cent. -/
def Content.addsUp (c : Content) : Prop :=
  |(c.amounts.map toNumber).sum - toNumber c.targetAmount| ≤ 5 / 1000

instance (c : Content) : Decidable c.addsUp := inferInstanceAs (Decidable (_ ≤ _))

/-- The list `missing` of `submit`. -/
def Draft.missing (s : Draft) : List String :=
  let p := s.project
  let minimum := (p.minimumInvestment.map toNumber).getD 0
  (REQUIRED_FIELDS.filter fun f => truthy (s.fields f.1) == none).map (·.2) ++
  (if p.targetAmount ≤ 0 then ["target_amount"] else []) ++
  (if minimum ≤ 0 then ["minimum_investment"] else []) ++
  (if ∃ m ∈ p.maximumInvestment, toNumber m < minimum then
    ["maximum_investment (below minimum)"] else []) ++
  (if toNumber p.targetAmount < minimum then ["minimum_investment (above target)"] else []) ++
  (if p.milestones = [] then ["milestones"]
    else if s.content.addsUp then []
    else ["milestones (amounts must add up to the target)"]) ++
  (REQUIRED_DOCUMENTS.filter fun k => !s.documents.contains k).map fun k => "document:" ++ k.name

/-- The checks of `setMilestones` on its items. -/
def itemsOk (items : List MilestoneItem) : Prop :=
  items ≠ [] ∧ items.length ≤ MAX_MILESTONES ∧
    ∀ m ∈ items, trim m.title ≠ "" ∧ length m.title ≤ 255 ∧ 0 < m.amount

instance (items : List MilestoneItem) : Decidable (itemsOk items) :=
  inferInstanceAs (Decidable (_ ∧ _ ∧ _))

/-! The calls. `own` reads the row with its milestones and documents; the write comes later. -/

inductive Call where
  | update (dto : ProjectInput)
  | updateTx (d : Patch)
  | setMilestones (items : List MilestoneItem)
  | milestonesTx (items : List MilestoneItem)
  | submit
  | submitTx (content : Content)
  | custody (c : Projects.Call)
  | done

inductive Request where
  | update (dto : ProjectInput)
  | setMilestones (items : List MilestoneItem)
  | submit
  | custody (r : Projects.Request)

def enter : Request → Call
  | .update dto => .update dto
  | .setMilestones items => .setMilestones items
  | .submit => .submit
  | .custody r => .custody (Projects.enter r)

def step (o : Outcome) (s : Draft) : Call → Option (Draft × Call)
  | .update dto =>
    if s.project.status ∈ EDITABLE then do
      let d ← cleanProjectInput dto
      return (s, .updateTx d)
    else none
  | .updateTx d => some (s.patch d, .done)
  | .setMilestones items =>
    if s.project.status ∈ EDITABLE ∧ itemsOk items then some (s, .milestonesTx items) else none
  | .milestonesTx items => some (s.replaceMilestones items, .done)
  | .submit =>
    if s.project.status ∈ EDITABLE ∧ s.missing = [] then some (s, .submitTx s.content) else none
  | .submitTx content =>
    if s.project.status ∈ EDITABLE then
      some ({ s.modifyProject fun p => { p with status := .submitted } with
        reviewed := some content }, .done)
    else none
  | .custody c => do
    let next ← Projects.step o s.custody c
    return ({ s with custody := next.1 }, .custody next.2)
  | .done => none

def program : Program Draft Call Request Outcome := ⟨enter, step⟩

end FarmBackend.Drafts
