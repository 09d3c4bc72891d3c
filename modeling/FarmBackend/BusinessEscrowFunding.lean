import FarmBackend.EscrowLocks
import FarmBackend.Milestones

/-!
# `BusinessEscrowService.fund`

One business escrow, the contracts and wallets beside it, and any number of calls that fund it,
change its status or work on the contracts. The call of `EscrowService.create` inside of `fund` takes
the steps of that service; what it throws is caught.
-/

namespace FarmBackend.BusinessEscrowFunding
open Decimal Wallets Interleaving
open Escrow (EscrowDb EscrowStatus CreateDto)
open Milestones (BusinessEscrowStatus mirrored)

set_option autoImplicit false

structure BusinessEscrow where
  buyerUserId : UserId
  amount : ℤ
  titleLength : ℕ
  escrowContractId : Option ℕ
  status : BusinessEscrowStatus
  expiresAt : Option Time

/-- `created` is history: the contracts that were created for the business escrow. -/
structure Store where
  row : BusinessEscrow
  contracts : EscrowDb
  created : List ℕ

/-- `seller` is the owner's username or phone. -/
structure Outcome where
  escrow : Escrow.Outcome
  seller : Option String

inductive Request where
  | fund (buyerId : UserId)
  | send
  | start
  | requestRelease
  | cancel
  | get
  | escrow (request : Escrow.Request)

/-- What a call does when its `sync` is through. -/
inductive After where
  | fund (buyerId : UserId)
  | start
  | requestRelease
  | get

inductive Call where
  | syncExpire (after : After)
  | syncRead (after : After)
  | syncUpdate (status : BusinessEscrowStatus) (after : After)
  | fund (buyerId : UserId)
  | owner (buyerId : UserId) (amount : ℤ) (titleLength : ℕ)
  | claim (buyerId : UserId) (dto : CreateDto)
  | creating (inner : Escrow.Call)
  | link (escrowId : ℕ)
  | restore
  | send
  | start
  | requestRelease
  | cancel
  | escrow (inner : Escrow.Call)
  | done

def After.call : After → Call
  | .fund buyerId => .fund buyerId
  | .start => .start
  | .requestRelease => .requestRelease
  | .get => .done

/-- `OPEN`. -/
def isOpen (status : BusinessEscrowStatus) : Bool :=
  status == .created || status == .awaitingPayment

def setStatus (status : BusinessEscrowStatus) (s : Store) : Store :=
  { s with row := { s.row with status := status } }

/-- The status that `sync` finds the linked contract asks for. -/
def syncStatus (s : Store) : Option BusinessEscrowStatus := do
  let escrowId ← s.row.escrowContractId
  let contract ← s.contracts.escrows[escrowId]?
  let next ← mirrored contract.status
  if s.row.status ≠ .released ∧ s.row.status ≠ .expired ∧ next ≠ s.row.status then return next
  else none

/-- `updateMany` from some statuses to another one. -/
def updateStatus (allowed : BusinessEscrowStatus → Bool) (status : BusinessEscrowStatus) (s : Store)
    (next : Call) : Option (Store × Call) :=
  if allowed s.row.status then some (setStatus status s, next) else none

/-- Inside of `fund` the contract is there when the transaction of `create` has committed. -/
def createStep (o : Outcome) (s : Store) (inner : Escrow.Call) : Store × Call :=
  match if o.escrow.dbFails then none else Escrow.step o.escrow s.contracts inner with
  | none => (s, .restore)
  | some (contracts, .done) =>
    ({ s with contracts := contracts, created := s.created ++ [s.contracts.escrows.length] },
      .link s.contracts.escrows.length)
  | some (contracts, inner) => ({ s with contracts := contracts }, .creating inner)

/-- Each clause is one database call; outside of the `try` block one that fails ends its call. -/
def step (o : Outcome) (s : Store) : Call → Option (Store × Call)
  | .syncExpire after =>
    let expired := isOpen s.row.status = true ∧ ∃ t ∈ s.row.expiresAt, t < o.escrow.now
    some (if expired then setStatus .expired s else s, .syncRead after)
  | .syncRead after =>
    match syncStatus s with
    | none => some (s, after.call)
    | some next => some (s, .syncUpdate next after)
  | .syncUpdate next after => some (setStatus next s, after.call)
  | .fund buyerId =>
    if s.row.buyerUserId = buyerId ∧ s.row.status = .awaitingPayment then
      some (s, .owner buyerId s.row.amount s.row.titleLength)
    else none
  | .owner buyerId amount titleLength =>
    o.seller.map fun seller => (s, .claim buyerId ⟨seller, titleLength, toNumber amount, none⟩)
  -- Claim first so the same request cannot be funded twice.
  | .claim buyerId dto =>
    updateStatus (· == .awaitingPayment) .funded s (.creating (.create buyerId dto))
  | .creating inner => some (createStep o s inner)
  | .link escrowId =>
    if o.escrow.dbFails then some (s, .restore)
    else some ({ s with row := { s.row with escrowContractId := some escrowId } }, .done)
  | .restore =>
    if o.escrow.dbFails then none else some (setStatus .awaitingPayment s, .done)
  | .send => updateStatus (· == .created) .awaitingPayment s (.syncExpire .get)
  | .start => updateStatus (· == .funded) .inProgress s (.syncExpire .get)
  | .requestRelease =>
    updateStatus (fun status => status == .funded || status == .inProgress) .releaseRequested s
      (.syncExpire .get)
  | .cancel => updateStatus isOpen .expired s (.syncExpire .get)
  | .escrow inner =>
    (Escrow.step o.escrow s.contracts inner).map fun r =>
      ({ s with contracts := r.1 }, .escrow r.2)
  | .done => none

def program : Program Store Call Request Outcome where
  enter
    | .fund buyerId => .syncExpire (.fund buyerId)
    | .send => .send
    | .start => .syncExpire .start
    | .requestRelease => .syncExpire .requestRelease
    | .cancel => .cancel
    | .get => .syncExpire .get
    | .escrow request => .escrow (Escrow.enter request)
  step := step

/-! ## When one contract is created at most -/

/-- The update that links a contract does not fail. -/
def links (o : Outcome) (_ : Store) : Call → Bool
  | .link _ => !o.escrow.dbFails
  | _ => true

abbrev Links : Guard Store Call Outcome := fun o s call => links o s call = true

/-- A call of `fund` between its claim and the contract, or its failure. -/
def Call.funding : Call → ℕ
  | .creating _ | .restore => 1
  | _ => 0

def contractTicket : Ticket Store Call where
  isOpen s := isOpen s.row.status = true
  fired s := s.created.length
  holds := Call.funding

/-- What a call knows: the status it is about to set does not open the escrow again, and the
contract it is about to link is the one that was created. -/
def Call.Knows (s : Store) : Call → Prop
  | .syncUpdate status _ => isOpen status = false
  | .link escrowId => s.created = [escrowId]
  | _ => True

/-- What was created is linked, or about to be. -/
def Linked (c : Config Store Call) : Prop :=
  ∀ escrowId ∈ c.store.created,
    c.store.row.escrowContractId = some escrowId ∨ Call.link escrowId ∈ c.calls

/-- What a step under the guard can do. -/
inductive Took (s : Store) : Call → Store → Call → Prop where
  | plain {s' : Store} {call call' : Call} (hCreated : s'.created = s.created)
      (hContract : s'.row.escrowContractId = s.row.escrowContractId)
      (hOpen : isOpen s'.row.status = true → isOpen s.row.status = true)
      (hFunding : call'.funding = call.funding) (hKnows : call'.Knows s')
      (hCall : ∀ escrowId, call ≠ .link escrowId) : Took s call s' call'
  | claimed {buyerId : UserId} {dto : CreateDto} (hOpen : isOpen s.row.status = true) :
      Took s (.claim buyerId dto) (setStatus .funded s) (.creating (.create buyerId dto))
  | created {inner : Escrow.Call} {contracts : EscrowDb} {escrowId : ℕ} :
      Took s (.creating inner)
        { s with contracts := contracts, created := s.created ++ [escrowId] } (.link escrowId)
  | linked {escrowId : ℕ} :
      Took s (.link escrowId) { s with row := { s.row with escrowContractId := some escrowId } } .done
  | restored : Took s .restore (setStatus .awaitingPayment s) .done

section Steps
variable {o : Outcome} {s s' : Store} {call call' : Call}

theorem updateStatus_eq_some {allowed : BusinessEscrowStatus → Bool} {status : BusinessEscrowStatus}
    {next : Call} (h : updateStatus allowed status s next = some (s', call')) :
    allowed s.row.status = true ∧ s' = setStatus status s ∧ call' = next := by
  unfold updateStatus at h
  split at h
  · cases h
    exact ⟨‹_›, rfl, rfl⟩
  · cases h

theorem took_status {allowed : BusinessEscrowStatus → Bool} {status : BusinessEscrowStatus}
    {next : Call} (h : updateStatus allowed status s next = some (s', call'))
    (hOpen : allowed s.row.status = true → isOpen status = true → isOpen s.row.status = true)
    (hFunding : next.funding = call.funding) (hKnows : ∀ s, next.Knows s)
    (hCall : ∀ escrowId, call ≠ .link escrowId) : Took s call s' call' := by
  obtain ⟨hAllowed, rfl, rfl⟩ := updateStatus_eq_some h
  exact .plain rfl rfl (hOpen hAllowed) hFunding (hKnows _) hCall

theorem isOpen_syncStatus {next : BusinessEscrowStatus} (h : syncStatus s = some next) :
    isOpen next = false := by
  simp only [syncStatus, Option.bind_eq_bind, Option.bind_eq_some_iff] at h
  obtain ⟨escrowId, -, contract, -, mirror, hMirror, h⟩ := h
  split at h
  · cases h
    cases hStatus : contract.status <;> rw [hStatus] at hMirror <;> cases hMirror <;> rfl
  · cases h

theorem took_of_step (hKnows : call.Knows s) (hOk : Links o s call)
    (hStep : step o s call = some (s', call')) : Took s call s' call' := by
  cases call with
  | syncExpire after =>
    simp only [step, Option.some.injEq, Prod.mk.injEq] at hStep
    obtain ⟨rfl, rfl⟩ := hStep
    refine .plain ?_ ?_ ?_ rfl trivial (by simp)
    · split <;> rfl
    · split <;> rfl
    · split
      · intro hOpen
        cases hOpen
      · exact id
  | syncRead after =>
    simp only [step] at hStep
    split at hStep
    · cases hStep
      refine .plain rfl rfl id ?_ ?_ (by simp)
      · cases after <;> rfl
      · cases after <;> trivial
    · rename_i next hNext
      cases hStep
      exact .plain rfl rfl id rfl (isOpen_syncStatus hNext) (by simp)
  | syncUpdate next after =>
    cases hStep
    refine .plain rfl rfl ?_ ?_ ?_ (by simp)
    · intro hOpen
      have hClosed : isOpen next = false := hKnows
      simp only [setStatus, hClosed] at hOpen
      cases hOpen
    · cases after <;> rfl
    · cases after <;> trivial
  | fund buyerId =>
    simp only [step, Option.ite_none_right_eq_some] at hStep
    obtain ⟨-, hStep⟩ := hStep
    cases hStep
    exact .plain rfl rfl id rfl trivial (by simp)
  | owner buyerId amount titleLength =>
    obtain ⟨seller, -, hStep⟩ := Option.map_eq_some_iff.mp hStep
    cases hStep
    exact .plain rfl rfl id rfl trivial (by simp)
  | claim buyerId dto =>
    simp only [step] at hStep
    obtain ⟨hAllowed, rfl, rfl⟩ := updateStatus_eq_some hStep
    apply Took.claimed
    rw [beq_iff_eq.mp hAllowed]
    rfl
  | creating inner =>
    simp only [step, Option.some.injEq] at hStep
    unfold createStep at hStep
    split at hStep
    · cases hStep
      exact .plain rfl rfl id rfl trivial (by simp)
    · cases hStep
      exact .created
    · cases hStep
      exact .plain rfl rfl id rfl trivial (by simp)
  | link escrowId =>
    have hFails : o.escrow.dbFails = false := by simpa [Links, links] using hOk
    simp only [step, hFails, Bool.false_eq_true, if_false, Option.some.injEq, Prod.mk.injEq] at hStep
    obtain ⟨rfl, rfl⟩ := hStep
    exact .linked
  | restore =>
    simp only [step, Option.ite_none_left_eq_some] at hStep
    obtain ⟨-, hStep⟩ := hStep
    cases hStep
    exact .restored
  | send =>
    simp only [step] at hStep
    refine took_status hStep ?_ rfl (fun _ => trivial) (by simp)
    intro hAllowed _
    rw [beq_iff_eq.mp hAllowed]
    rfl
  | start | requestRelease | cancel =>
    simp only [step] at hStep
    refine took_status hStep ?_ rfl (fun _ => trivial) (by simp)
    intro _ hOpen
    cases hOpen
  | escrow inner =>
    obtain ⟨r, -, hStep⟩ := Option.map_eq_some_iff.mp hStep
    cases hStep
    exact .plain rfl rfl id rfl trivial (by simp)
  | done => cases hStep

theorem ticket_of_took (hTook : Took s call s' call') :
    contractTicket.Keeps s call s' call' ∨ contractTicket.Takes s call s' call' := by
  cases hTook with
  | plain hCreated _ hOpen hFunding =>
    left
    refine ⟨?_, fun h => .inl (hOpen h)⟩
    simp only [contractTicket, hCreated, hFunding, le_refl]
  | claimed hOpen =>
    right
    refine ⟨hOpen, ?_, le_refl _⟩
    intro hStill
    cases hStill
  | created =>
    left
    refine ⟨?_, fun h => .inl h⟩
    simp [contractTicket, Call.funding]
  | linked =>
    left
    exact ⟨le_refl _, fun h => .inl h⟩
  | restored =>
    left
    refine ⟨?_, fun _ => .inr ?_⟩
    all_goals simp [contractTicket, Call.funding, setStatus]

end Steps

section Runs
variable {start : Store} {c : Config Store Call}

theorem knows_of_took {s s' : Store} {call call' : Call} (hFired : s.created.length + call.funding ≤ 1)
    (hTook : Took s call s' call') : call'.Knows s' := by
  cases hTook with
  | plain _ _ _ _ hKnows => exact hKnows
  | @created inner contracts escrowId =>
    have hNone : s.created = [] := by
      apply List.length_eq_zero_iff.mp
      simp only [Call.funding] at hFired
      omega
    simp [Call.Knows, hNone]
  | claimed | linked | restored => trivial

theorem knows_others {s s' : Store} {call call' other : Call} (hOther : other.Knows s)
    (hFired : s.created.length + call.funding ≤ 1) (hTook : Took s call s' call') :
    other.Knows s' := by
  cases other with
  | link escrowId =>
    have hOne : s.created = [escrowId] := hOther
    cases hTook with
    | plain hCreated => exact hCreated.trans hOne
    | claimed | linked | restored => exact hOne
    | created =>
      rw [hOne] at hFired
      simp [Call.funding] at hFired
  | syncUpdate => exact hOther
  | _ => trivial

/-- The ticket is sound and the calls know what they are about to write. -/
theorem sound_of_reaches (hStart : start.created = [])
    (h : program.Reaches Links (Program.idle start) c) :
    contractTicket.Sound c ∧ ∀ call ∈ c.calls, call.Knows c.store := by
  have hInit : contractTicket.Sound (Program.idle start) := by
    refine ⟨?_, fun _ => ?_⟩
    all_goals simp [Ticket.spent, Program.idle, contractTicket, hStart]
  refine h.invariant (fun c => contractTicket.Sound c ∧ ∀ call ∈ c.calls, call.Knows c.store)
    ⟨hInit, by simp [Program.idle]⟩ ?_ ?_
  · rintro request store calls ⟨hSound, hKnows⟩
    refine ⟨hSound.enter (by cases request <;> rfl), ?_⟩
    intro call hMem
    rcases List.mem_append.mp hMem with hOld | hNew
    · exact hKnows call hOld
    · rw [List.mem_singleton.mp hNew]
      cases request <;> trivial
  · rintro o store store' call call' before after ⟨hSound, hKnows⟩ hOk hStep
    have hTook := took_of_step (hKnows call (by simp)) hOk hStep
    have hFired : store.created.length + call.funding ≤ 1 := hSound.fired_add_le
    refine ⟨hSound.step (ticket_of_took hTook), ?_⟩
    intro other hMem
    rcases List.mem_append.mp hMem with hBefore | hAfter
    · exact knows_others (hKnows other (by simp [hBefore])) hFired hTook
    · rcases List.mem_cons.mp hAfter with rfl | hAfter
      · exact knows_of_took hFired hTook
      · exact knows_others (hKnows other (by simp [hAfter])) hFired hTook

theorem linked_of_reaches (hStart : start.created = [])
    (h : program.Reaches Links (Program.idle start) c) : Linked c := by
  induction h with
  | refl => simp [Linked, Program.idle, hStart]
  | tail hRun hLast ih =>
    obtain ⟨hSound, hKnows⟩ := sound_of_reaches hStart hRun
    cases hLast with
    | enter request store calls =>
      intro escrowId hMem
      rcases ih escrowId hMem with hLinked | hCall
      · exact .inl hLinked
      · exact .inr (List.mem_append_left _ hCall)
    | @call o store store' call call' before after hOk hStep =>
      have hTook := took_of_step (hKnows call (by simp)) hOk hStep
      have hKept : ∀ escrowId, call ≠ .link escrowId →
          Call.link escrowId ∈ before ++ call :: after →
          Call.link escrowId ∈ before ++ call' :: after := by
        intro escrowId hNot hMem
        rcases List.mem_append.mp hMem with hBefore | hAfter
        · exact List.mem_append_left _ hBefore
        · rcases List.mem_cons.mp hAfter with hSame | hAfter
          · exact absurd hSame.symm hNot
          · exact List.mem_append_right _ (List.mem_cons_of_mem _ hAfter)
      intro escrowId hMem
      cases hTook with
      | plain hCreated hContract _ _ _ hNot =>
        rw [hCreated] at hMem
        rw [hContract]
        exact (ih escrowId hMem).imp id (hKept escrowId (hNot escrowId))
      | claimed => exact (ih escrowId hMem).imp id (hKept escrowId (by simp))
      | restored => exact (ih escrowId hMem).imp id (hKept escrowId (by simp))
      | @created inner contracts new =>
        rcases List.mem_append.mp hMem with hOld | hNew
        · exact (ih escrowId hOld).imp id (hKept escrowId (by simp))
        · rw [List.mem_singleton.mp hNew]
          exact .inr (by simp)
      | @linked new =>
        -- the contract to link is the only one that was created
        have hOne : store.created = [new] := hKnows (.link new) (by simp)
        rw [hOne, List.mem_singleton] at hMem
        exact .inl (congrArg some hMem.symm)

/-- Where the update that links a contract never fails, at most one contract is created, it is
linked as soon as its call has gone on, and the escrow never waits for payment again. -/
theorem funded_once (hStart : start.created = [])
    (h : program.Reaches Links (Program.idle start) c) :
    c.store.created.length ≤ 1 ∧ ∀ escrowId ∈ c.store.created,
      (c.store.row.escrowContractId = some escrowId ∨ Call.link escrowId ∈ c.calls) ∧
        c.store.row.status ≠ .awaitingPayment := by
  obtain ⟨hSound, -⟩ := sound_of_reaches hStart h
  refine ⟨hSound.fired_le, ?_⟩
  intro escrowId hMem
  refine ⟨linked_of_reaches hStart h escrowId hMem, ?_⟩
  intro hWaiting
  have hNone : c.store.created.length = 0 := by
    apply hSound.fired_of_open
    simp only [contractTicket, hWaiting]
    rfl
  rw [List.length_eq_zero_iff.mp hNone] at hMem
  cases hMem

end Runs

/-! User 1 funds a business escrow of 30 FARM for user 2. -/

namespace Sample

def store : Store where
  row := ⟨1, toUnits 30, 5, none, .awaitingPayment, none⟩
  contracts := Escrow.twoUsers
  created := []

def outcome (now : Time) : Outcome := ⟨⟨now, Fees.FEE_DEFAULTS, true, false⟩, some "seller"⟩

def failing : Outcome := { outcome 0 with escrow := ⟨0, Fees.FEE_DEFAULTS, true, true⟩ }

/-- A call of `fund` up to the contract. -/
def toContract (index : ℕ) (now : Time) : List (Move Request Outcome) :=
  .enter (.fund 1) :: List.replicate 10 (.run index (outcome now))

end Sample

/-- The link fails after the contract was created, the claim is undone, and two minutes later the
escrow is funded again. -/
theorem escrow_funded_twice : ∃ c, program.Reaches anyStep (Program.idle Sample.store) c ∧
    c.store.created.length = 2 ∧ c.store.contracts.escrows.length = 2 := by
  have hRun : (program.schedule (Sample.toContract 0 0 ++
      [.run 0 Sample.failing, .run 0 (Sample.outcome 0)] ++ Sample.toContract 1 120000)
      (Program.idle Sample.store)).any (fun c =>
        decide (c.store.created.length = 2 ∧ c.store.contracts.escrows.length = 2)) = true := by
    decide +kernel
  obtain ⟨c, hReach, hTwo⟩ := Program.reaches_of_any hRun
  exact ⟨c, hReach, of_decide_eq_true hTwo⟩

theorem escrow_funded_and_linked : ∃ c : Config Store Call,
    c.store.created = [0] ∧ c.store.row.escrowContractId = some 0 ∧
      c.store.created.length ≤ 1 ∧ ∀ escrowId ∈ c.store.created,
        (c.store.row.escrowContractId = some escrowId ∨ Call.link escrowId ∈ c.calls) ∧
          c.store.row.status ≠ .awaitingPayment := by
  have hRun : ((program.guarded Links).schedule
      (Sample.toContract 0 0 ++ [.run 0 (Sample.outcome 0)]) (Program.idle Sample.store)).any
        (fun c => decide (c.store.created = [0] ∧ c.store.row.escrowContractId = some 0)) =
      true := by
    decide +kernel
  obtain ⟨c, hReach, hEnd⟩ := Program.reaches_of_guarded_any hRun
  obtain ⟨hCreated, hLinked⟩ := of_decide_eq_true hEnd
  exact ⟨c, hCreated, hLinked, funded_once rfl hReach⟩

end FarmBackend.BusinessEscrowFunding
