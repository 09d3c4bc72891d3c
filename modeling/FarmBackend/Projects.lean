import FarmBackend.Wallets

/-!
# Marketplace projects (`project-marketplace/`)

The row of a project with its milestones, its investments and the refunds paid to its investors,
and every write on them. A project's custody is virtual: no wallet holds it, so only the columns and
the ledger say what has been paid. Which wallets exist is asked of the outcome of a step.
-/

namespace FarmBackend.Projects
open Decimal Wallets Fees

set_option autoImplicit false

abbrev ProjectId := ℕ
abbrev InvestmentId := ℕ
abbrev MilestoneId := ℕ

/-- `legacyOpen` is the status `open` of projects that an admin created. -/
inductive ProjectStatus where
  | draft
  | submitted
  | moreInfoRequired
  | approved
  | rejected
  | listed
  | funded
  | closed
  | cancelled
  | legacyOpen
  deriving DecidableEq, Repr

inductive AdminAction where
  | startReview
  | requestInfo
  | approve
  | reject
  | list
  | unlist
  | close
  | cancel
  deriving DecidableEq, Repr

structure TransitionRule where
  source : List ProjectStatus
  target : ProjectStatus

def EDITABLE : List ProjectStatus := [.draft, .moreInfoRequired]

def INVESTABLE : List ProjectStatus := [.listed, .legacyOpen]

def RELEASABLE : List ProjectStatus := [.funded, .closed]

def ADMIN_TRANSITIONS : AdminAction → TransitionRule
  | .startReview => ⟨[.submitted], .submitted⟩
  | .requestInfo => ⟨[.submitted], .moreInfoRequired⟩
  | .approve => ⟨[.submitted], .approved⟩
  | .reject => ⟨[.submitted, .moreInfoRequired, .approved], .rejected⟩
  | .list => ⟨[.approved], .listed⟩
  | .unlist => ⟨[.listed], .approved⟩
  | .close => ⟨[.listed, .funded, .legacyOpen], .closed⟩
  | .cancel => ⟨[.approved, .listed, .funded, .legacyOpen], .cancelled⟩

inductive MilestoneStatus where
  | planned
  | requested
  | returned
  | released
  deriving DecidableEq, Repr

/-- The position of a milestone is its place in the list. -/
structure Milestone where
  amount : ℤ
  status : MilestoneStatus
  releasedAmount : Option ℤ
  deriving DecidableEq

inductive InvestmentStatus where
  | committed
  | active
  | refunded
  | partiallyRefunded
  deriving DecidableEq, Repr

structure Investment where
  userId : UserId
  amount : ℤ
  status : InvestmentStatus
  deriving DecidableEq

/-- Funds are deployed: held investments become active. -/
def Investment.activate (inv : Investment) : Investment :=
  if inv.status = .committed then { inv with status := .active } else inv

/-- A refund transaction of an investor, with the parts in its metadata. -/
structure Refund where
  investmentId : InvestmentId
  heldPart : ℤ
  reservePart : ℤ
  deriving DecidableEq

structure Project where
  ownerUserId : UserId
  status : ProjectStatus
  targetAmount : ℤ
  raisedAmount : ℤ
  minimumInvestment : Option ℤ
  maximumInvestment : Option ℤ
  endsAt : Option Time
  releasedAmount : ℤ
  consolidationFee : ℤ
  consolidationFeeAt : Option Time
  consolidationRefunded : ℤ
  consolidationReleased : ℤ
  milestones : List Milestone
  investments : List Investment
  refunds : List Refund
  deriving DecidableEq

inductive Category where
  | general
  | consolidationFund
  | feeRevenue
  deriving DecidableEq, Repr

structure FundEntry where
  entryType : EntryType
  amount : ℤ
  category : Category
  deriving DecidableEq

/-- Credits minus debits of a category. -/
def categoryBalance (category : Category) (ledger : List FundEntry) : ℤ :=
  (ledger.map fun e =>
    if e.category = category then
      match e.entryType with
      | .credit => e.amount
      | .debit => -e.amount
    else 0).sum

/-- What the other tables answer at a step: the business's standing, who has an active wallet,
whether the investor's balance covers the debit, whether there is a platform wallet, and the rules
of the two fees. -/
structure Outcome where
  now : Time
  kyb : Bool
  activeWallet : UserId → Bool
  funds : Bool
  platform : Bool
  investment : FeeRule
  listing : FeeRule

/-- `Math.floor(x * 100) / 100`. -/
def floor2 (x : ℚ) : ℚ := ⌊x * 100⌋ / 100

def heldFunds (p : Project) : ℚ :=
  max 0 (toNumber p.raisedAmount - toNumber p.consolidationFee - toNumber p.releasedAmount)

def reserveLeft (p : Project) : ℚ :=
  max 0 (toNumber p.consolidationFee - toNumber p.consolidationRefunded -
    toNumber p.consolidationReleased)

/-- One project and the platform's ledger. -/
structure Custody where
  project : Project
  ledger : List FundEntry

namespace Custody

def ledgerCreate (entry : FundEntry) (s : Custody) : Custody :=
  { s with ledger := s.ledger ++ [entry] }

def update (f : Project → Project) (s : Custody) : Custody := { s with project := f s.project }

/-! The consolidation fund (`consolidation.ts`). -/

/-- The fee of a round, from the amount raised that was read. -/
def listingFee (rule : FeeRule) (raised : ℤ) : ℚ :=
  if 0 < toNumber raised then computeFee rule (toNumber raised) 2 else 0

/-- The claim of `chargeConsolidationInTx` and what follows it. -/
def chargeClaim (o : Outcome) (fee : ℚ) (s : Custody) : Option Custody :=
  match s.project.consolidationFeeAt with
  | some _ => some s
  | none =>
    let s := s.update fun p => { p with
      consolidationFee := toUnits fee
      consolidationFeeAt := some o.now }
    if 0 < fee then
      if o.platform = true then
        some (s.ledgerCreate ⟨.credit, toUnits fee, .consolidationFund⟩)
      else none
    else some s

/-- `chargeConsolidationInTx`, inside a transaction that has locked the row. -/
def chargeConsolidation (o : Outcome) (s : Custody) : Option Custody :=
  match s.project.consolidationFeeAt with
  | some _ => some s
  | none => s.chargeClaim o (listingFee o.listing s.project.raisedAmount)

def payFromReserve (o : Outcome) (amount : ℚ) (s : Custody) : Option Custody :=
  if 0 < amount then
    if toNumber s.project.consolidationRefunded + toNumber s.project.consolidationReleased + amount ≤
        toNumber s.project.consolidationFee ∧ o.platform = true then
      let s := s.update fun p => { p with
        consolidationRefunded := toUnits (toNumber p.consolidationRefunded + amount) }
      some (s.ledgerCreate ⟨.debit, toUnits amount, .consolidationFund⟩)
    else none
  else some s

def releaseReserve (o : Outcome) (amount : ℚ) (s : Custody) : Option Custody :=
  if 0 < amount then
    if toNumber s.project.consolidationRefunded + toNumber s.project.consolidationReleased + amount ≤
        toNumber s.project.consolidationFee ∧ o.platform = true then
      let s := s.update fun p => { p with
        consolidationReleased := toUnits (toNumber p.consolidationReleased + amount) }
      let s := s.ledgerCreate ⟨.debit, toUnits amount, .consolidationFund⟩
      some (s.ledgerCreate ⟨.credit, toUnits amount, .feeRevenue⟩)
    else none
  else some s

/-! Investing (`marketplace.service.ts`). -/

/-- The capacity claim, the debit and the row of an investment. -/
def investRow (o : Outcome) (userId : UserId) (amount : ℚ) (s : Custody) : Option Custody :=
  let fee := computeFee o.investment amount 2
  let totalDebit := toFixed 2 (amount + fee)
  if s.project.status ∈ INVESTABLE ∧
      toNumber s.project.raisedAmount + amount ≤ toNumber s.project.targetAmount ∧
      o.activeWallet userId = true ∧ o.funds = true then
    let s := s.update fun p => { p with
      raisedAmount := toUnits (toNumber p.raisedAmount + amount)
      investments := p.investments ++ [⟨userId, toUnits amount, .committed⟩] }
    let s := s.ledgerCreate ⟨.debit, toUnits totalDebit, .general⟩
    if 0 < fee then
      if o.platform = true then some (s.ledgerCreate ⟨.credit, toUnits fee, .general⟩) else none
    else some s
  else none

/-- The end of the transaction: an investment that reaches the target closes the round. -/
def fundIfReached (o : Outcome) (s : Custody) : Option Custody :=
  if s.project.targetAmount ≤ s.project.raisedAmount then
    (s.update fun p => { p with status := .funded }).chargeConsolidation o
  else some s

def investTx (o : Outcome) (userId : UserId) (amount : ℚ) (s : Custody) : Option Custody := do
  let s ← s.investRow o userId amount
  s.fundIfReached o

/-! Refunds (`project-review.service.ts`). -/

def creditInvestor (o : Outcome) (userId : UserId) (refund : Refund) (amount : ℚ) (s : Custody) :
    Option Custody :=
  if o.activeWallet userId = true then
    let s := s.update fun p => { p with refunds := p.refunds ++ [refund] }
    some (s.ledgerCreate ⟨.credit, toUnits amount, .general⟩)
  else none

end Custody

/-- What `refundAll` computes from the row it reads. -/
structure Shares where
  held : ℚ
  reserve : ℚ
  deriving DecidableEq

def Shares.all (x : Shares) : ℚ := min 1 (x.held + x.reserve)

def Shares.heldPart (x : Shares) (inv : Investment) : ℚ := floor2 (toNumber inv.amount * x.held)

def Shares.reservePart (x : Shares) (inv : Investment) : ℚ :=
  floor2 (toNumber inv.amount * x.reserve)

def refundShares (p : Project) : Shares where
  held := if 0 < p.raisedAmount then min 1 (heldFunds p / toNumber p.raisedAmount) else 1
  reserve := if 0 < p.raisedAmount then reserveLeft p / toNumber p.raisedAmount else 0

def refundable (p : Project) : List (Investment × InvestmentId) :=
  p.investments.zipIdx.filter fun r => r.1.status == .committed || r.1.status == .active

def lossParts (p : Project) (reserve : ℚ) (raised : ℤ) : List (Investment × InvestmentId × ℚ) :=
  ((p.investments.zipIdx.filter fun r =>
      r.1.status == .committed || r.1.status == .active || r.1.status == .partiallyRefunded).map
    fun r => (r.1, r.2, (⌊toNumber r.1.amount * reserve * 100 / toNumber raised⌋ : ℚ) / 100)).filter
      fun r => decide (0 < r.2.2)

/-- What a release has read: the project, the milestone and the fee of the round. -/
structure ReleasePlan where
  project : Project
  milestoneId : MilestoneId
  milestone : Milestone
  fee : ℤ
  deriving DecidableEq

namespace ReleasePlan

/-- The amount of a release. The last milestone takes what is left. -/
def amount (plan : ReleasePlan) : ℚ :=
  let held := heldFunds { plan.project with consolidationFee := plan.fee }
  let net := toNumber plan.project.raisedAmount - toNumber plan.fee
  let scaled := floor2 (toNumber plan.milestone.amount *
    min 1 (net / toNumber plan.project.targetAmount))
  min (if plan.milestoneId + 1 = plan.project.milestones.length then held else scaled) held

end ReleasePlan

namespace Custody

def investmentsUpdate (id : InvestmentId) (f : Investment → Investment) (s : Custody) : Custody :=
  s.update fun p => { p with investments := p.investments.modify id f }

def milestonesUpdate (id : MilestoneId) (f : Milestone → Milestone) (s : Custody) : Custody :=
  s.update fun p => { p with milestones := p.milestones.modify id f }

def refundedStatus (x : Shares) : InvestmentStatus :=
  if 1 ≤ x.all then .refunded else .partiallyRefunded

/-- The money of one refund, after the row is claimed. -/
def refundMoney (o : Outcome) (x : Shares) (id : InvestmentId) (inv : Investment) (s : Custody) :
    Option Custody :=
  let refund := toFixed 2 (x.heldPart inv + x.reservePart inv)
  if 0 < refund then do
    let s ← s.creditInvestor o inv.userId ⟨id, toUnits (x.heldPart inv), toUnits (x.reservePart inv)⟩
      refund
    s.payFromReserve o (x.reservePart inv)
  else some s

def refundTx (o : Outcome) (x : Shares) (inv : Investment) (id : InvestmentId) (s : Custody) :
    Option Custody :=
  match s.project.investments[id]? with
  | none => some s
  | some row =>
    if row.status = inv.status then
      (s.investmentsUpdate id fun row => { row with status := refundedStatus x }).refundMoney o x id inv
    else some s

def lossPart (o : Outcome) (s : Custody) (part : Investment × InvestmentId × ℚ) : Option Custody := do
  let s ← s.creditInvestor o part.1.userId ⟨part.2.1, 0, toUnits part.2.2⟩ part.2.2
  s.payFromReserve o part.2.2

def lossTx (o : Outcome) (parts : List (Investment × InvestmentId × ℚ)) (s : Custody) :
    Option Custody :=
  parts.foldlM (lossPart o) s

def releaseTx (plan : ReleasePlan) (s : Custody) : Option Custody := do
  let m ← s.project.milestones[plan.milestoneId]?
  if m.status = .requested ∧ toNumber s.project.releasedAmount + plan.amount ≤
      toNumber s.project.raisedAmount - toNumber s.project.consolidationFee then
    let s := s.milestonesUpdate plan.milestoneId fun m =>
      { m with status := .released, releasedAmount := some (toUnits plan.amount) }
    let s := s.update fun p => { p with
      releasedAmount := toUnits (toNumber p.releasedAmount + plan.amount)
      investments := p.investments.map Investment.activate }
    some (s.ledgerCreate ⟨.credit, toUnits plan.amount, .general⟩)
  else none

def requestTx (id : MilestoneId) (s : Custody) : Option Custody := do
  let m ← s.project.milestones[id]?
  if m.status = .planned ∨ m.status = .returned then
    some (s.milestonesUpdate id fun m => { m with status := .requested })
  else none

def returnTx (id : MilestoneId) (s : Custody) : Option Custody := do
  let m ← s.project.milestones[id]?
  if m.status = .requested then
    some (s.milestonesUpdate id fun m => { m with status := .returned })
  else none

def transitionTx (action : AdminAction) (status : ProjectStatus) (s : Custody) : Option Custody :=
  if s.project.status = status then
    some (s.update fun p => { p with status := (ADMIN_TRANSITIONS action).target })
  else none

end Custody

end FarmBackend.Projects
