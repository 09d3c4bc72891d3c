import FarmBackend.Projects
import FarmBackend.Interleaving

/-!
# Investing in a project, closing it, paying it out, call by call

Every database call outside a transaction is one step, and every transaction is one. A cancelled
project is refunded investor by investor, each in a transaction of its own.
-/

namespace FarmBackend.Projects
open Decimal Wallets Fees Interleaving

set_option autoImplicit false

structure Invest where
  userId : UserId
  amount : ℚ

structure Transition where
  action : AdminAction
  notesGiven : Bool

inductive Call where
  | invest (r : Invest)
  | investPrior (r : Invest) (maximum : Option ℤ)
  | investTx (r : Invest)
  | transition (t : Transition)
  | transitionTx (t : Transition) (status : ProjectStatus)
  | closeRead (resume : Option ReleasePlan)
  | closeTx (fee : ℚ) (resume : Option ReleasePlan)
  | refundRead
  | refundRows (x : Shares)
  | refundEach (x : Shares) (rows : List (Investment × InvestmentId))
  | release (id : MilestoneId)
  | feeRead (plan : ReleasePlan)
  | releaseTx (plan : ReleasePlan)
  | request (id : MilestoneId) (evidenceOk : Bool)
  | requestTx (id : MilestoneId)
  | returnTx (id : MilestoneId) (notesGiven : Bool)
  | loss (notesGiven : Bool)
  | lossRows (reserve : ℚ) (raised : ℤ)
  | lossTx (parts : List (Investment × InvestmentId × ℚ))
  | reserve (notesGiven : Bool)
  | reserveTx (amount : ℚ)
  | done

inductive Request where
  | invest (r : Invest)
  | transition (t : Transition)
  | release (id : MilestoneId)
  | request (id : MilestoneId) (evidenceOk : Bool)
  | returnMilestone (id : MilestoneId) (notesGiven : Bool)
  | refundReserveForLoss (notesGiven : Bool)
  | releaseReserveToFarm (notesGiven : Bool)

def enter : Request → Call
  | .invest r => .invest r
  | .transition t => .transition t
  | .release id => .release id
  | .request id evidenceOk => .request id evidenceOk
  | .returnMilestone id notesGiven => .returnTx id notesGiven
  | .refundReserveForLoss notesGiven => .loss notesGiven
  | .releaseReserveToFarm notesGiven => .reserve notesGiven

/-- The checks of `invest` on the row it reads. -/
def Invest.allowed (r : Invest) (now : Time) (p : Project) : Prop :=
  0 < r.amount ∧ p.status ∈ INVESTABLE ∧ (∀ ends ∈ p.endsAt, now ≤ ends) ∧
    ∀ minimum ∈ p.minimumInvestment, toNumber minimum ≤ r.amount

instance (r : Invest) (now : Time) (p : Project) : Decidable (r.allowed now p) :=
  inferInstanceAs (Decidable (_ ∧ _ ∧ _ ∧ _))

/-- What the investor holds in the project already. -/
def Project.already (p : Project) (userId : UserId) : ℤ :=
  ((p.investments.filter fun inv => inv.userId == userId &&
    (inv.status == .committed || inv.status == .active)).map (·.amount)).sum

/-- The checks of `transition` on the row it reads. -/
def Transition.allowed (t : Transition) (kyb : Bool) (status : ProjectStatus) : Prop :=
  (t.action = .requestInfo ∨ t.action = .reject → t.notesGiven = true) ∧
    status ∈ (ADMIN_TRANSITIONS t.action).source ∧
    (t.action = .approve ∨ t.action = .list → kyb = true)

instance (t : Transition) (kyb : Bool) (status : ProjectStatus) :
    Decidable (t.allowed kyb status) :=
  inferInstanceAs (Decidable (_ ∧ _ ∧ _))

def Transition.next (t : Transition) : Call :=
  match t.action with
  | .close => .closeRead none
  | .cancel => .refundRead
  | _ => .done

def resumed : Option ReleasePlan → Call
  | none => .done
  | some plan => .feeRead plan

def Project.earlierReleased (p : Project) (id : MilestoneId) : Prop :=
  ∀ m ∈ p.milestones.take id, m.status = .released

instance (p : Project) (id : MilestoneId) : Decidable (p.earlierReleased id) :=
  inferInstanceAs (Decidable (∀ m ∈ _, _))

/-- The checks of `releaseMilestone` on the rows it reads, and the plan they make. -/
def releasePlan (kyb : Bool) (id : MilestoneId) (p : Project) : Option ReleasePlan := do
  let m ← p.milestones[id]?
  if p.status ∈ RELEASABLE ∧ kyb = true ∧ m.status = .requested ∧ p.earlierReleased id then
    some ⟨p, id, m, p.consolidationFee⟩
  else none

/-- The checks of `refundReserveForLoss`. -/
def Project.lossAllowed (p : Project) : Prop :=
  p.consolidationFeeAt ≠ none ∧ p.consolidationReleased ≤ 0 ∧ p.consolidationRefunded ≤ 0 ∧
    0 < reserveLeft p ∧ 0 < p.raisedAmount

instance (p : Project) : Decidable p.lossAllowed :=
  inferInstanceAs (Decidable (_ ∧ _ ∧ _ ∧ _ ∧ _))

/-- The checks of `releaseReserveToFarm`. -/
def Project.completed (p : Project) : Prop :=
  p.consolidationFeeAt ≠ none ∧ p.status ∈ RELEASABLE ∧ heldFunds p ≤ 5 / 1000 ∧
    p.consolidationRefunded ≤ 0 ∧ 0 < toFixed 8 (reserveLeft p)

instance (p : Project) : Decidable p.completed :=
  inferInstanceAs (Decidable (_ ∧ _ ∧ _ ∧ _ ∧ _))

def step (o : Outcome) (s : Custody) : Call → Option (Custody × Call)
  | .invest r =>
    if r.allowed o.now s.project then some (s, .investPrior r s.project.maximumInvestment) else none
  | .investPrior r maximum =>
    if ∀ m ∈ maximum, toNumber (s.project.already r.userId) + r.amount ≤ toNumber m then
      some (s, .investTx r)
    else none
  | .investTx r => do
    let s ← s.investTx o r.userId r.amount
    return (s, .done)
  | .transition t =>
    if t.allowed o.kyb s.project.status then some (s, .transitionTx t s.project.status) else none
  | .transitionTx t status => do
    let s ← s.transitionTx t.action status
    return (s, t.next)
  | .closeRead resume =>
    match s.project.consolidationFeeAt with
    | some _ => some (s, resumed resume)
    | none => some (s, .closeTx (Custody.listingFee o.listing s.project.raisedAmount) resume)
  | .closeTx fee resume => do
    let s ← s.chargeClaim o fee
    return (s, resumed resume)
  | .refundRead => some (s, .refundRows (refundShares s.project))
  | .refundRows x => some (s, .refundEach x (refundable s.project))
  | .refundEach _ [] => some (s, .done)
  | .refundEach x ((inv, id) :: rows) => do
    let s ← s.refundTx o x inv id
    return (s, .refundEach x rows)
  | .release id => do
    let plan ← releasePlan o.kyb id s.project
    match s.project.consolidationFeeAt with
    | some _ => some (s, .releaseTx plan)
    | none => some (s, .closeRead (some plan))
  | .feeRead plan => some (s, .releaseTx { plan with fee := s.project.consolidationFee })
  | .releaseTx plan =>
    if 0 < plan.amount ∧ o.activeWallet plan.project.ownerUserId = true then do
      let s ← s.releaseTx plan
      return (s, .done)
    else none
  | .request id evidenceOk => do
    let _ ← s.project.milestones[id]?
    if s.project.status ∈ RELEASABLE ∧ s.project.earlierReleased id ∧ evidenceOk = true then
      some (s, .requestTx id)
    else none
  | .requestTx id => do
    let s ← s.requestTx id
    return (s, .done)
  | .returnTx id notesGiven =>
    if notesGiven then do
      let s ← s.returnTx id
      return (s, .done)
    else none
  | .loss notesGiven =>
    if notesGiven = true ∧ s.project.lossAllowed then
      some (s, .lossRows (reserveLeft s.project) s.project.raisedAmount)
    else none
  | .lossRows reserve raised => some (s, .lossTx (lossParts s.project reserve raised))
  | .lossTx parts => do
    let s ← s.lossTx o parts
    return (s, .done)
  | .reserve notesGiven =>
    if notesGiven = true ∧ s.project.completed then
      some (s, .reserveTx (toFixed 8 (reserveLeft s.project)))
    else none
  | .reserveTx amount => do
    let s ← s.releaseReserve o amount
    return (s, .done)
  | .done => none

def program : Program Custody Call Request Outcome := ⟨enter, step⟩

end FarmBackend.Projects
