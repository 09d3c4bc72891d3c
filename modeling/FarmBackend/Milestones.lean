import FarmBackend.Escrow
import FarmBackend.EscrowRuns
import FarmBackend.Ticket

/-!
# Milestones of a business escrow (`business-ops/business-escrow.service.ts`)

One funded business escrow and any number of `requestMilestone` and `releaseMilestone` calls on
it. The milestones are one JSON column: a claim compares the whole column with what was read, a
write puts a whole column back. `EscrowService.releasePartial` is one step, which may fail.
-/

namespace FarmBackend.Milestones
open Decimal Wallets Interleaving
open Escrow (EscrowDb EscrowContract EscrowStatus Outcome)

set_option autoImplicit false

inductive MilestoneStatus where
  | pending
  | releaseRequested
  | releasing
  | released
  deriving DecidableEq, Repr

/-- One entry of the column; `status` is missing in the oldest rows. -/
structure Milestone where
  amount : ℚ
  status : Option MilestoneStatus
  requestedAt : Option Time
  releasedAt : Option Time
  transactionReference : Option ℕ
  deriving DecidableEq

inductive BusinessEscrowStatus where
  | created
  | awaitingPayment
  | funded
  | inProgress
  | releaseRequested
  | released
  | disputed
  | expired
  deriving DecidableEq, Repr

structure BusinessEscrow where
  buyerUserId : UserId
  escrowContractId : Option ℕ
  milestones : List Milestone
  status : BusinessEscrowStatus
  expiresAt : Option Time

/-- The business escrow beside the contracts and wallets. `released` is history: the milestone of
every `releasePartial` that succeeded. -/
structure Store where
  row : BusinessEscrow
  contracts : EscrowDb
  released : List ℕ

def Milestone.state (m : Milestone) : MilestoneStatus := m.status.getD .pending

def milestonesOf (milestones : List Milestone) : List Milestone :=
  milestones.map fun m => { m with status := some m.state }

/-- A milestone in one of these states cannot be claimed. -/
def MilestoneStatus.isLocked (status : MilestoneStatus) : Bool :=
  status == .releasing || status == .released

def lockedAt (index : ℕ) (milestones : List Milestone) : Bool :=
  match milestones[index]? with
  | none => false
  | some m => m.state.isLocked

def milestoneOpen (status : BusinessEscrowStatus) : Bool :=
  status == .funded || status == .inProgress || status == .releaseRequested

/-- The column with the status of one milestone replaced, and what is noted with it. -/
def setStatus (index : ℕ) (f : Milestone → Milestone) (status : MilestoneStatus)
    (milestones : List Milestone) : List Milestone :=
  milestones.modify index fun m => { f m with status := some status }

/-- What the mirrored contract makes of the business escrow. -/
def mirrored : EscrowStatus → Option BusinessEscrowStatus
  | .completed => some .released
  | .disputed => some .disputed
  | .cancelled => some .expired
  | .refunded => some .expired
  | .pending => none
  | .active => none

/-- What `releasePartial` returns of its result. -/
structure ReleaseResult where
  transactionReference : ℕ
  completed : Bool

/-- `EscrowService.releasePartial`, run as a whole. -/
def releasePartial (o : Outcome) (escrowId : ℕ) (buyerId : UserId) (amount : ℚ)
    (contracts : EscrowDb) : Option (EscrowDb × ReleaseResult) := do
  let escrow ← contracts.escrows[escrowId]?
  let part ← EscrowDb.releasePartialChecks escrow buyerId amount
  if o.verified ∧ o.dbFails = false then
    let contracts' ← contracts.releasePartialTx o.rules escrowId escrow part o.now
    let row ← contracts'.escrows[escrowId]?
    return (contracts', ⟨contracts.bank.transactions.length,
      decide (Escrow.remainingAmount row.amount row.releasedAmount ≤ 0)⟩)
  else none

inductive Request where
  | requestMilestone (index : ℕ)
  | releaseMilestone (buyerId : UserId) (index : ℕ)

/-- What a call does when its `sync` is through. -/
inductive After where
  | requestMilestone (index : ℕ)
  | releaseMilestone (buyerId : UserId) (index : ℕ)
  | get

inductive Call where
  | syncExpire (after : After)
  | syncRead (after : After)
  | syncUpdate (status : BusinessEscrowStatus) (after : After)
  | requestMilestone (index : ℕ)
  | requestUpdate (read next : List Milestone)
  | releaseMilestone (buyerId : UserId) (index : ℕ)
  | claim (buyerId : UserId) (index escrowId : ℕ) (read : List Milestone) (amount : ℚ)
  | pay (buyerId : UserId) (index escrowId : ℕ) (ms : List Milestone) (amount : ℚ)
  | finish (index : ℕ) (ms finished : List Milestone) (completed : Bool)
  | restore (index : ℕ) (ms : List Milestone) (paid : Bool)
  | done

def enter : Request → Call
  | .requestMilestone index => .syncExpire (.requestMilestone index)
  | .releaseMilestone buyerId index => .syncExpire (.releaseMilestone buyerId index)

def After.call : After → Call
  | .requestMilestone index => .requestMilestone index
  | .releaseMilestone buyerId index => .releaseMilestone buyerId index
  | .get => .done

def syncStatus (s : Store) : Option BusinessEscrowStatus := do
  let escrowId ← s.row.escrowContractId
  let contract ← s.contracts.escrows[escrowId]?
  let next ← mirrored contract.status
  if s.row.status ≠ .released ∧ s.row.status ≠ .expired ∧ next ≠ s.row.status then return next
  else none

def setRow (f : BusinessEscrow → BusinessEscrow) (s : Store) : Store := { s with row := f s.row }

/-- Each clause is one database call; `verified` also stands for the access check. -/
def step (o : Outcome) (s : Store) : Call → Option (Store × Call)
  | .syncExpire after =>
    let expired := (s.row.status = .created ∨ s.row.status = .awaitingPayment) ∧
      ∃ t ∈ s.row.expiresAt, t < o.now
    some (if expired then setRow ({ · with status := .expired }) s else s, .syncRead after)
  | .syncRead after =>
    match syncStatus s with
    | none => some (s, after.call)
    | some next => some (s, .syncUpdate next after)
  | .syncUpdate next after => some (setRow ({ · with status := next }) s, after.call)
  | .requestMilestone index => do
    let m ← (milestonesOf s.row.milestones)[index]?
    if o.verified ∧ milestoneOpen s.row.status ∧ m.state = .pending then
      return (s, .requestUpdate s.row.milestones
        (setStatus index ({ · with requestedAt := some o.now }) .releaseRequested
          (milestonesOf s.row.milestones)))
    else none
  | .requestUpdate read next =>
    if s.row.milestones = read then
      some (setRow ({ · with milestones := next }) s, .syncExpire .get)
    else none
  | .releaseMilestone buyerId index => do
    let escrowId ← s.row.escrowContractId
    let m ← (milestonesOf s.row.milestones)[index]?
    if s.row.buyerUserId = buyerId ∧ milestoneOpen s.row.status ∧ m.state.isLocked = false then
      return (s, .claim buyerId index escrowId s.row.milestones m.amount)
    else none
  -- Claim the milestone first (optimistic lock on the JSON) so it cannot be released twice.
  | .claim buyerId index escrowId read amount =>
    if s.row.milestones = read then
      some (setRow ({ · with milestones := setStatus index id .releasing (milestonesOf read) }) s,
        .pay buyerId index escrowId (milestonesOf read) amount)
    else none
  | .pay buyerId index escrowId ms amount =>
    match releasePartial o escrowId buyerId amount s.contracts with
    | none => some (s, .restore index ms false)
    | some (contracts, result) =>
      let finished := setStatus index
        (fun m => { m with
          releasedAt := some o.now
          transactionReference := some result.transactionReference })
        .released (setStatus index id .releasing ms)
      some ({ s with contracts := contracts, released := s.released ++ [index] },
        .finish index ms finished result.completed)
  | .finish index ms finished completed =>
    -- The catch block also covers this write: when it throws, the old column is put back.
    if o.dbFails then some (s, .restore index ms true)
    else some (setRow (fun row =>
      { row with
        milestones := finished
        status := if completed then .released else row.status }) s, .done)
  | .restore _ ms _ => some (setRow ({ · with milestones := ms }) s, .done)
  | .done => none

def program : Program Store Call Request Outcome := ⟨enter, step⟩

/-! The columns the service writes, milestone by milestone. -/

theorem lockedAt_milestonesOf (index : ℕ) (ms : List Milestone) :
    lockedAt index (milestonesOf ms) = lockedAt index ms := by
  unfold lockedAt milestonesOf
  rw [List.getElem?_map]
  cases ms[index]? with
  | none => rfl
  | some m => rfl

theorem lockedAt_setStatus_ne {index other : ℕ} (h : index ≠ other) (f : Milestone → Milestone)
    (status : MilestoneStatus) (ms : List Milestone) :
    lockedAt other (setStatus index f status ms) = lockedAt other ms := by
  unfold lockedAt setStatus
  rw [Rows.getElem?_modify_ne _ h]

theorem lockedAt_setStatus_self {index : ℕ} {ms : List Milestone} (h : index < ms.length)
    (f : Milestone → Milestone) (status : MilestoneStatus) :
    lockedAt index (setStatus index f status ms) = status.isLocked := by
  simp [lockedAt, setStatus, h, Milestone.state]

theorem lockedAt_of_getElem? {index : ℕ} {ms : List Milestone} {m : Milestone}
    (h : ms[index]? = some m) : lockedAt index ms = m.state.isLocked := by
  simp [lockedAt, h]

/-- Writing a whole column back spares the milestones that are being or have been released; a
restoring write may free its own, when no money has moved. -/
def spares (o : Outcome) (s : Store) : Call → Bool
  | .finish _ _ finished _ =>
    o.dbFails || decide (∀ i < s.row.milestones.length,
      lockedAt i s.row.milestones = true → lockedAt i finished = true)
  | .restore index ms paid =>
    decide (∀ i < s.row.milestones.length,
      lockedAt i s.row.milestones = true → lockedAt i ms = true ∨ (i = index ∧ paid = false))
  | _ => true

abbrev Spares : Guard Store Call Outcome := fun o s call => spares o s call = true

/-- The release of one milestone: open while it can be claimed, taken by the claim, and given
back by a restoring write after a failed release. -/
def release (index : ℕ) : Ticket Store Call where
  isOpen s := lockedAt index s.row.milestones = false
  fired s := s.released.count index
  holds
    | .pay _ i _ _ _ => if i = index then 1 else 0
    | .restore i _ paid => if i = index ∧ paid = false then 1 else 0
    | _ => 0

/-- What the steps before a write know of the column they compare. -/
def Knows : Call → Prop
  | .requestUpdate read next => ∀ i, lockedAt i next = lockedAt i read
  | .claim _ index _ read _ => index < read.length ∧ lockedAt index read = false
  | _ => True

theorem knows_after (after : After) : Knows after.call := by
  cases after <;> trivial

theorem lt_length_of_lockedAt {index : ℕ} {ms : List Milestone} (h : lockedAt index ms = true) :
    index < ms.length := by
  by_contra hLe
  simp [lockedAt, not_lt.mp hLe] at h

section Steps
variable {o : Outcome} {s s' : Store} {call call' : Call}

theorem release_keeps {index : ℕ} (hColumn : s'.row.milestones = s.row.milestones)
    (hHistory : s'.released = s.released)
    (hHolds : (release index).holds call' ≤ (release index).holds call) :
    (release index).Keeps s call s' call' := by
  refine ⟨?_, ?_⟩
  · simp only [release, hHistory] at hHolds ⊢
    omega
  · intro hOpen
    exact .inl (by simpa only [release, hColumn] using hOpen)

theorem knows_of_step (hStep : step o s call = some (s', call')) : Knows call' := by
  cases call with
  | requestMilestone index =>
    simp only [step, Option.bind_eq_bind, Option.bind_eq_some_iff, Option.pure_def,
      Option.ite_none_right_eq_some, Option.some.injEq, Prod.mk.injEq] at hStep
    obtain ⟨m, hm, ⟨-, -, hPending⟩, rfl, rfl⟩ := hStep
    intro i
    have hUnlocked : lockedAt index s.row.milestones = false := by
      rw [← lockedAt_milestonesOf, lockedAt_of_getElem? hm, hPending]
      rfl
    obtain ⟨hLt, -⟩ := List.getElem?_eq_some_iff.mp hm
    by_cases hi : index = i
    · subst hi
      rw [lockedAt_setStatus_self hLt, hUnlocked]
      rfl
    · rw [lockedAt_setStatus_ne hi, lockedAt_milestonesOf]
  | releaseMilestone buyerId index =>
    simp only [step, Option.bind_eq_bind, Option.bind_eq_some_iff, Option.pure_def,
      Option.ite_none_right_eq_some, Option.some.injEq, Prod.mk.injEq] at hStep
    obtain ⟨escrowId, -, m, hm, ⟨-, -, hUnlocked⟩, rfl, rfl⟩ := hStep
    obtain ⟨hLt, -⟩ := List.getElem?_eq_some_iff.mp hm
    refine ⟨by simpa [milestonesOf] using hLt, ?_⟩
    rw [← lockedAt_milestonesOf, lockedAt_of_getElem? hm, hUnlocked]
  | syncExpire after =>
    simp only [step, Option.some.injEq, Prod.mk.injEq] at hStep
    exact hStep.2 ▸ trivial
  | syncRead after =>
    simp only [step] at hStep
    split at hStep <;> simp only [Option.some.injEq, Prod.mk.injEq] at hStep
    · exact hStep.2 ▸ knows_after after
    · exact hStep.2 ▸ trivial
  | syncUpdate next after =>
    simp only [step, Option.some.injEq, Prod.mk.injEq] at hStep
    exact hStep.2 ▸ knows_after after
  | requestUpdate read next =>
    simp only [step, Option.ite_none_right_eq_some, Option.some.injEq, Prod.mk.injEq] at hStep
    exact hStep.2.2 ▸ trivial
  | claim buyerId index escrowId read amount =>
    simp only [step, Option.ite_none_right_eq_some, Option.some.injEq, Prod.mk.injEq] at hStep
    exact hStep.2.2 ▸ trivial
  | pay buyerId index escrowId ms amount =>
    simp only [step] at hStep
    split at hStep <;> simp only [Option.some.injEq, Prod.mk.injEq] at hStep <;>
      exact hStep.2 ▸ trivial
  | finish index ms finished completed =>
    simp only [step] at hStep
    split at hStep <;> simp only [Option.some.injEq, Prod.mk.injEq] at hStep <;>
      exact hStep.2 ▸ trivial
  | restore index ms paid =>
    simp only [step, Option.some.injEq, Prod.mk.injEq] at hStep
    exact hStep.2 ▸ trivial
  | done => cases hStep

/-- Every step that spares what is locked keeps or takes the release of each milestone. -/
theorem release_step (index : ℕ) (hKnows : Knows call) (hOk : Spares o s call)
    (hStep : step o s call = some (s', call')) :
    (release index).Keeps s call s' call' ∨ (release index).Takes s call s' call' := by
  cases call with
  | syncExpire after =>
    simp only [step, Option.some.injEq, Prod.mk.injEq] at hStep
    obtain ⟨rfl, rfl⟩ := hStep
    refine .inl (release_keeps ?_ ?_ le_rfl) <;> split <;> rfl
  | syncRead after =>
    simp only [step] at hStep
    split at hStep <;> simp only [Option.some.injEq, Prod.mk.injEq] at hStep
    · obtain ⟨rfl, rfl⟩ := hStep
      refine .inl (release_keeps rfl rfl ?_)
      cases after <;> exact le_rfl
    · obtain ⟨rfl, rfl⟩ := hStep
      exact .inl (release_keeps rfl rfl le_rfl)
  | syncUpdate next after =>
    simp only [step, Option.some.injEq, Prod.mk.injEq] at hStep
    obtain ⟨rfl, rfl⟩ := hStep
    refine .inl (release_keeps rfl rfl ?_)
    cases after <;> exact le_rfl
  | requestMilestone i =>
    simp only [step, Option.bind_eq_bind, Option.bind_eq_some_iff, Option.pure_def,
      Option.ite_none_right_eq_some, Option.some.injEq, Prod.mk.injEq] at hStep
    obtain ⟨m, -, -, rfl, rfl⟩ := hStep
    exact .inl (release_keeps rfl rfl le_rfl)
  | requestUpdate read next =>
    simp only [step, Option.ite_none_right_eq_some, Option.some.injEq, Prod.mk.injEq] at hStep
    obtain ⟨hSame, rfl, rfl⟩ := hStep
    refine .inl ⟨le_rfl, ?_⟩
    intro hOpen
    refine .inl ?_
    simp only [release, setRow] at hOpen ⊢
    rw [hSame, ← hKnows index, hOpen]
  | releaseMilestone buyerId i =>
    simp only [step, Option.bind_eq_bind, Option.bind_eq_some_iff, Option.pure_def,
      Option.ite_none_right_eq_some, Option.some.injEq, Prod.mk.injEq] at hStep
    obtain ⟨escrowId, -, m, -, -, rfl, rfl⟩ := hStep
    exact .inl (release_keeps rfl rfl le_rfl)
  | claim buyerId i escrowId read amount =>
    simp only [step, Option.ite_none_right_eq_some, Option.some.injEq, Prod.mk.injEq] at hStep
    obtain ⟨hSame, rfl, rfl⟩ := hStep
    obtain ⟨hLt, hUnlocked⟩ := hKnows
    by_cases hi : i = index
    · subst hi
      refine .inr ⟨?_, ?_, ?_⟩
      · simpa only [release, hSame] using hUnlocked
      · have hLt' : i < (milestonesOf read).length := by simpa [milestonesOf] using hLt
        simp only [release, setRow, lockedAt_setStatus_self hLt']
        decide
      · simp [release, setRow]
    · refine .inl ⟨by simp [release, setRow, hi], ?_⟩
      intro hOpen
      refine .inl ?_
      simp only [release, setRow] at hOpen ⊢
      rwa [lockedAt_setStatus_ne hi, lockedAt_milestonesOf, ← hSame] at hOpen
  | pay buyerId i escrowId ms amount =>
    simp only [step] at hStep
    split at hStep <;> simp only [Option.some.injEq, Prod.mk.injEq] at hStep
    · obtain ⟨rfl, rfl⟩ := hStep
      refine .inl (release_keeps rfl rfl ?_)
      simp [release]
    · obtain ⟨rfl, rfl⟩ := hStep
      refine .inl ⟨?_, fun hOpen => .inl hOpen⟩
      by_cases hi : i = index <;> simp [release, hi]
  | finish i ms finished completed =>
    simp only [step] at hStep
    split at hStep <;> simp only [Option.some.injEq, Prod.mk.injEq] at hStep
    · obtain ⟨rfl, rfl⟩ := hStep
      refine .inl (release_keeps rfl rfl ?_)
      simp [release]
    · rename_i hWrites
      obtain ⟨rfl, rfl⟩ := hStep
      refine .inl ⟨le_rfl, ?_⟩
      intro hOpen
      refine .inl ?_
      by_contra hLocked
      simp only [release, Bool.not_eq_false] at hLocked
      simp only [Spares, spares, hWrites, Bool.false_or, decide_eq_true_eq] at hOk
      have hStill := hOk index (lt_length_of_lockedAt hLocked) hLocked
      simp only [release, setRow, hStill] at hOpen
      cases hOpen
  | restore i ms paid =>
    simp only [step, Option.some.injEq, Prod.mk.injEq] at hStep
    obtain ⟨rfl, rfl⟩ := hStep
    refine .inl ⟨by simp [release, setRow], ?_⟩
    intro hOpen
    simp only [release, setRow] at hOpen
    simp only [Spares, spares, decide_eq_true_eq] at hOk
    cases hLocked : lockedAt index s.row.milestones with
    | false => exact .inl hLocked
    | true =>
      rcases hOk index (lt_length_of_lockedAt hLocked) hLocked with hStill | ⟨rfl, rfl⟩
      · rw [hStill] at hOpen
        cases hOpen
      · -- The claim is given back: the ticket goes with it.
        exact .inr (by simp [release, setRow])
  | done => cases hStep

end Steps

section Runs
variable {start : Store} {c : Config Store Call}

theorem knows_of_reaches (h : program.Reaches Spares (Program.idle start) c) :
    ∀ call ∈ c.calls, Knows call := by
  refine (h.assertions (fun _ => True) (fun _ => Knows) ⟨trivial, ?_⟩ ?_ ?_ ?_).2
  · intro call hMem
    cases hMem
  · intro request _ _
    cases request <;> trivial
  · intro outcome store store' call call' _ _ _ hStep
    exact ⟨trivial, knows_of_step hStep⟩
  · intro outcome store store' call call' other _ _ hOther _ _
    exact hOther

theorem release_sound (hStart : start.released = [])
    (h : program.Reaches Spares (Program.idle start) c) (index : ℕ) : (release index).Sound c := by
  refine Ticket.Sound.reaches h ⟨?_, ?_⟩ ?_ ?_
  · simp [Ticket.spent, Program.idle, release, hStart]
  · simp [Ticket.spent, Program.idle, release, hStart]
  · intro request
    cases request <;> rfl
  · intro outcome store store' call call' before after hReach hOk hStep
    exact release_step index (knows_of_reaches hReach call (by simp)) hOk hStep

/-- As long as no write of a whole column frees a milestone that another call has claimed or
released, nor its own after the money moved: every milestone is released at most once, and once
released it can never be claimed again. -/
theorem milestone_released_at_most_once (hStart : start.released = [])
    (h : program.Reaches Spares (Program.idle start) c) (index : ℕ) :
    c.store.released.count index ≤ 1 ∧
      (index ∈ c.store.released → lockedAt index c.store.row.milestones = true) := by
  have hSound := release_sound hStart h index
  refine ⟨hSound.fired_le, ?_⟩
  intro hReleased
  by_contra hOpen
  have hNone : c.store.released.count index = 0 :=
    hSound.fired_of_open (Bool.eq_false_iff.mpr hOpen)
  exact List.count_eq_zero.mp hNone hReleased

end Runs

/-- A funded escrow of 30 in three equal milestones. -/
def threeMilestones : Store where
  row :=
    { buyerUserId := 1
      escrowContractId := some 0
      milestones := List.replicate 3 ⟨10, some .pending, none, none, none⟩
      status := .funded
      expiresAt := none }
  contracts :=
    { bank :=
        { wallets := fun id =>
            if id = 1 then some ⟨toUnits 100, toUnits 30, false⟩
            else if id ≤ 2 then some ⟨0, 0, false⟩ else none
          platform := some 0
          transactions := []
          ledger := [] }
      findUser := fun _ => none
      activeWallet := fun _ => none
      escrows := [⟨1, 2, some 1, some 2, toUnits 30, 0, .active, 0, 0, 0⟩] }
  released := []

def answer (dbFails : Bool) : Outcome := ⟨0, Fees.FEE_DEFAULTS, true, dbFails⟩

/-- The release of milestone 1 runs between the claim and the last write of the release of
milestone 0, which puts milestone 1 back to pending; it is then released once more. -/
def overlappingReleases : List (Move Request Outcome) :=
  let run (index : ℕ) : Move Request Outcome := .run index (answer false)
  [.enter (.releaseMilestone 1 0), .enter (.releaseMilestone 1 1)] ++
    List.replicate 4 (run 0) ++ List.replicate 6 (run 1) ++ [run 0, run 0] ++
    [.enter (.releaseMilestone 1 1)] ++ List.replicate 6 (run 2)

theorem milestone_released_twice :
    ∃ c, program.Reaches anyStep (Program.idle threeMilestones) c ∧
      ¬(c.store.released.count 1 ≤ 1 ∧
        (1 ∈ c.store.released → lockedAt 1 c.store.row.milestones = true)) := by
  have hRuns : ((program.schedule overlappingReleases (Program.idle threeMilestones)).map
      fun c => c.store.released.count 1) = some 2 := by
    decide +kernel
  obtain ⟨c, hRun, hCount⟩ := Option.map_eq_some_iff.mp hRuns
  refine ⟨c, Program.reaches_of_schedule hRun, ?_⟩
  intro hOnce
  exact absurd hOnce.1 (by rw [hCount]; decide)

/-- The same two releases, one after the other. -/
def releasesInTurn : List (Move Request Outcome) :=
  let run (index : ℕ) : Move Request Outcome := .run index (answer false)
  [.enter (.releaseMilestone 1 0)] ++ List.replicate 6 (run 0) ++
    [.enter (.releaseMilestone 1 1)] ++ List.replicate 6 (run 1)

theorem milestone_released_once_in_turn :
    ∃ c, program.Reaches Spares (Program.idle threeMilestones) c ∧ 1 ∈ c.store.released ∧
      (c.store.released.count 1 ≤ 1 ∧
        (1 ∈ c.store.released → lockedAt 1 c.store.row.milestones = true)) := by
  have hRuns : (((program.guarded Spares).schedule releasesInTurn
      (Program.idle threeMilestones)).map fun c => c.store.released) = some [0, 1] := by
    decide +kernel
  obtain ⟨c, hRun, hReleased⟩ := Option.map_eq_some_iff.mp hRuns
  have hReach : program.Reaches Spares (Program.idle threeMilestones) c :=
    Program.reaches_of_guarded (Program.reaches_of_schedule hRun)
  exact ⟨c, hReach, by simp [hReleased], milestone_released_at_most_once rfl hReach 1⟩

end FarmBackend.Milestones
