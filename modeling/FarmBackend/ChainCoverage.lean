import FarmBackend.ChainHoldings

/-!
# FARM on the chain and in the ledger

Every step of the ledger, of `enqueue`, of the workers and of the reconciliations keeps what is
known of the addresses.
-/

namespace FarmBackend.ChainReconciliation
open Decimal Fees Wallets Interleaving
open ChainLegs
open ChainOutbox (OutboxStatus)
open Escrow (EscrowDb EscrowContract)

set_option autoImplicit false

section Steps
variable {reg : Registry} {chain : ChainWallets reg.reserve} {userId : UserId} {start : Store}
  {o : Outcome} {s s' : Store} {call call' : Call}

/-- Rows, transfers and transactions stay. -/
structure Grows (s s' : Store) : Prop where
  transactions : s.ledger.transactions <+: s'.ledger.transactions
  outbox : ∀ row ∈ s.ledger.outbox, row ∈ s'.ledger.outbox
  transferred : ∀ key ∈ s.transferred, key ∈ s'.transferred

theorem Grows.refl (s : Store) : Grows s s := ⟨List.prefix_rfl, fun _ => id, fun _ => id⟩

theorem Grows.knows (h : Grows s s') {call : Call} (hKnows : Knows reg chain userId start s call) :
    Knows reg chain userId start s' call := by
  cases call with
  | ledger call => exact ⟨knows_of_grows hKnows.1 h.transactions, hKnows.2⟩
  | claim rows => exact fun due hMem => h.outbox _ (hKnows due hMem)
  | checks row rest | send row rest | fail row rest =>
    exact ⟨h.outbox _ hKnows.1, fun due hMem => h.outbox _ (hKnows.2 due hMem)⟩
  | markSent row rest =>
    exact ⟨h.transferred _ hKnows.1, fun due hMem => h.outbox _ (hKnows.2 due hMem)⟩
  | aggregate _ | assetBalance _ _ _ _ | topUp _ _ _ _ _ => exact hKnows
  | deposit _ _ | process _ | reconcile _ | findWallets _ | done => trivial

/-- What a step of the ledger or of `enqueue` does to the store. -/
theorem ledger_cases {o : ChainLegs.Outcome reg.reserve} {l l' : ChainLegs.Store}
    {call call' : ChainLegs.Call} (hGoLive : l.goLive = true)
    (h : ChainLegs.step reg o l call = some (l', call')) :
    l' = l ∨ (∃ op db, call = .ledger op ∧ op.commit o.rules o.now l.db = some db ∧
      l' = { l with db := db }) ∨
    ∃ ids rows, call = .createMany ids rows ∧ l' = { l.mark ids with
      outbox := KeyedTable.insertMany OutboxRow.key l.outbox rows } := by
  cases call with
  | ledger op =>
    obtain ⟨db, hCommit, hNext⟩ := Option.map_eq_some_iff.mp h
    cases hNext
    exact .inr (.inl ⟨op, db, rfl, hCommit, rfl⟩)
  | enqueue limit =>
    simp only [ChainLegs.step, goLive_ensureGoLive hGoLive, Option.some.injEq] at h
    split at h <;> cases h <;> exact .inl rfl
  | findMany limit =>
    cases h
    exact .inl rfl
  | addressOf txs =>
    cases h
    exact .inl rfl
  | createMany ids rows =>
    cases h
    exact .inr (.inr ⟨ids, rows, rfl, rfl⟩)
  | done => cases h

theorem knows_ledger {call call' : ChainLegs.Call} {l : ChainLegs.Store}
    (h : ChainLegs.step reg (syncOutcome reg chain o) s.ledger call = some (l, call'))
    (hKnows : ChainLegs.Knows reg userId start.ledger l call') :
    Knows reg chain userId start { s with ledger := l } (.ledger call') := by
  refine ⟨hKnows, ?_⟩
  cases call with
  | addressOf txs =>
    cases h
    intro row hRow
    obtain ⟨⟨t, id⟩, -, hLeg⟩ := List.mem_flatMap.mp hRow
    exact named_of_mem_legs hLeg
  | ledger op =>
    obtain ⟨db, -, hNext⟩ := Option.map_eq_some_iff.mp h
    cases hNext
    trivial
  | enqueue limit =>
    simp only [ChainLegs.step, Option.some.injEq] at h
    split at h <;> cases h <;> trivial
  | findMany limit =>
    cases h
    cases (ChainLegs.Store.oldest limit s.ledger).isEmpty <;> exact trivial
  | createMany ids rows =>
    cases h
    trivial
  | done => cases h

section Ledger
variable {a : Address}

theorem tells_of_heeds {call : ChainLegs.Call} (hAddress : chain.address userId = some a)
    (hHeeds : Heeds reg userId o s (.ledger call)) :
    Tells reg userId (syncOutcome reg chain o) s.ledger call := by
  cases call with
  | ledger op => exact hHeeds
  | addressOf txs => exact Option.isSome_iff_exists.mpr ⟨a, hAddress⟩
  | enqueue _ | findMany _ | createMany _ _ | done => rfl

theorem kept_ledger {call call' : ChainLegs.Call} {l : ChainLegs.Store}
    (hPlain : reg.Plain userId) (hAddress : chain.address userId = some a)
    (h : Kept reg chain userId start s) (hKnows : Knows reg chain userId start s (.ledger call))
    (hExact : Exact reg userId o s (.ledger call)) (hHeeds : Heeds reg userId o s (.ledger call))
    (hStep : ChainLegs.step reg (syncOutcome reg chain o) s.ledger call = some (l, call')) :
    (Kept reg chain userId start { s with ledger := l } ∧
      Knows reg chain userId start { s with ledger := l } (.ledger call')) ∧
      Grows s { s with ledger := l } := by
  have hTells := tells_of_heeds hAddress hHeeds
  obtain ⟨⟨-, hKnows'⟩, hPrefix⟩ := step_tracks hPlain h.tracks hKnows.1 hTells hStep
  have hLater := knows_ledger hStep hKnows'
  rcases ledger_cases h.tracks.goLive hStep with rfl | ⟨op, db, rfl, hCommit, rfl⟩ |
    ⟨ids, rows, rfl, rfl⟩
  · exact ⟨⟨h, hLater⟩, Grows.refl s⟩
  · have hBank : db.bank ∈ committed o s (.ledger (.ledger op)) := by
      simp only [committed]
      exact Option.mem_map.mpr ⟨db, hCommit, rfl⟩
    have hKept := h.commit (books_commit hHeeds hCommit) (h.held.commit hExact.2 hCommit)
      (hExact.1 db.bank hBank)
    exact ⟨⟨hKept, hLater⟩, hPrefix, fun _ => id, fun _ => id⟩
  · exact ⟨⟨h.createMany hKnows, hLater⟩, hPrefix,
      fun _ hMem => KeyedTable.mem_insertMany_of_mem hMem, fun _ => id⟩

end Ledger

theorem dueRows_mem {due : RowKey → Bool} {d : Due} (h : d ∈ s.dueRows due) :
    d.row ∈ s.ledger.outbox := by
  obtain ⟨row, hMem, hRow⟩ := List.mem_filterMap.mp h
  split at hRow
  · rw [Option.ite_none_right_eq_some, Option.some.injEq] at hRow
    rw [← hRow.2]
    exact hMem
  · cases hRow

/-- The steps of a worker and of a reconciliation, and a deposit. -/
theorem kept_step (h : Kept reg chain userId start s)
    (hKnows : Knows reg chain userId start s call) (hExact : Exact reg userId o s call)
    (hHeeds : Heeds reg userId o s call)
    (hFree : ∀ row rest, call = .send row rest → row.key ∉ s.transferred)
    (hOther : ∀ inner, call ≠ .ledger inner) (hStep : step reg chain o s call = some (s', call')) :
    (Kept reg chain userId start s' ∧ Knows reg chain userId start s' call') ∧ Grows s s' := by
  cases call with
  | ledger inner => exact absurd rfl (hOther inner)
  | deposit walletId amount =>
    simp only [step] at hStep
    split at hStep
    · rename_i hAmount
      obtain ⟨bank, hTx, hNext⟩ := Option.map_eq_some_iff.mp hStep
      cases hNext
      have hBooks := @books_depositTx reg userId _ _ _ _ _ hAmount hTx
      have hHeld : Held { s.ledger.db with bank := bank } :=
        h.held.keeps rfl (keepsLocks_depositTx hTx)
      refine ⟨⟨h.commit hBooks hHeld (hExact.1 bank hTx), trivial⟩, ?_, fun _ => id, fun _ => id⟩
      exact (tracks_commit h.tracks hBooks.booked).2
    · cases hStep
  | process limit =>
    cases hStep
    refine ⟨⟨h, ?_⟩, Grows.refl s⟩
    split
    · exact fun due hMem => dueRows_mem (List.mem_of_mem_take hMem)
    · trivial
  | claim rows =>
    cases rows with
    | nil =>
      cases hStep
      exact ⟨⟨h, trivial⟩, Grows.refl s⟩
    | cons due rest =>
      obtain ⟨hRow, hRest⟩ := List.forall_mem_cons.mp hKnows
      simp only [step] at hStep
      split at hStep <;> cases hStep
      · exact ⟨⟨h.setStatus OutboxStatus.noConfusion, hRow, hRest⟩, List.prefix_rfl, fun _ => id, fun _ => id⟩
      · exact ⟨⟨h, hRest⟩, Grows.refl s⟩
  | checks row rest =>
    cases hStep
    refine ⟨⟨h, ?_⟩, Grows.refl s⟩
    split <;> exact hKnows
  | send row rest =>
    cases hStep
    refine ⟨⟨h.send hKnows.1 (hFree row rest rfl), ?_⟩, List.prefix_rfl, fun _ => id,
      fun _ => List.mem_cons_of_mem _⟩
    exact ⟨List.mem_cons_self, hKnows.2⟩
  | markSent row rest =>
    cases hStep
    exact ⟨⟨h.setStatus fun _ => hKnows.1, hKnows.2⟩, List.prefix_rfl, fun _ => id, fun _ => id⟩
  | fail row rest =>
    cases hStep
    exact ⟨⟨h.setStatus OutboxStatus.noConfusion, hKnows.2⟩, List.prefix_rfl, fun _ => id, fun _ => id⟩
  | reconcile limit =>
    cases hStep
    refine ⟨⟨h, ?_⟩, Grows.refl s⟩
    split <;> trivial
  | findWallets limit =>
    cases hStep
    refine ⟨⟨h, fun w hMem => ?_⟩, Grows.refl s⟩
    obtain ⟨user, -, hWallet⟩ := List.mem_filterMap.mp (List.mem_of_mem_take hMem)
    obtain ⟨address, hAddress, rfl⟩ := Option.map_eq_some_iff.mp hWallet
    exact hAddress
  | aggregate wallets =>
    cases wallets with
    | nil =>
      cases hStep
      exact ⟨⟨h, trivial⟩, Grows.refl s⟩
    | cons w rest =>
      obtain ⟨hWallet, hRest⟩ := List.forall_mem_cons.mp hKnows
      cases hStep
      exact ⟨⟨h, hWallet, hRest⟩, Grows.refl s⟩
  | assetBalance other address units rest =>
    cases hStep
    exact ⟨⟨h, hKnows⟩, Grows.refl s⟩
  | topUp other address units chainUnits rest =>
    cases hStep
    split
    · rename_i hUnits
      exact ⟨⟨h.topUp hKnows.1 hUnits hHeeds, hKnows.2⟩, List.prefix_rfl, fun _ => id, fun _ => id⟩
    · exact ⟨⟨h, hKnows.2⟩, Grows.refl s⟩
  | done => cases hStep

end Steps

/-! ### Runs -/

/-- The rows of the outbox have been sent, and no user has more than is available. -/
structure Mirrored (reg : Registry) (chain : ChainWallets reg.reserve) (userId : UserId)
    (s : Store) : Prop where
  drained : s.ledger.Drained
  held : Held s.ledger.db
  whole : Whole reg userId s.ledger.db.bank
  transferred : s.transferred = KeyedTable.keys OutboxRow.key s.ledger.outbox
  status : ∀ key, s.status key = if key ∈ s.transferred then .sent else .pending
  within : ∀ address, chain.address userId = some address →
    1000000 * s.holdings address ≤ available (reg.walletsOf userId) s.ledger.db.bank

section Runs
variable {reg : Registry} {chain : ChainWallets reg.reserve} {userId : UserId} {start : Store}
  {ok : Guard Store Call Outcome} {c : Config Store Call}

theorem Mirrored.kept (h : Mirrored reg chain userId start) : Kept reg chain userId start start := by
  have hNone : start.ledger.rowsSince start.ledger.transactions.length = [] := by
    refine List.filter_eq_nil_iff.mpr fun row hMem => ?_
    rw [decide_eq_true_eq, not_le]
    exact h.drained.known row hMem
  refine ⟨tracks_start h.drained, h.held, h.whole, ?_, ?_, ?_, ?_, ?_, ?_⟩
  · intro row hMem hId
    exact absurd (h.drained.known row hMem) (not_lt.mpr hId)
  · intro row hMem _
    rw [h.transferred]
    exact List.mem_map_of_mem hMem
  · intro key hMem
    rwa [h.transferred] at hMem
  · intro key hSent
    rw [h.status] at hSent
    split at hSent
    · assumption
    · cases hSent
  · simp [owed]
  · intro address hAddress
    rw [arrived, hNone]
    simpa [moved] using h.within address hAddress

theorem rowTicket_sound (hStart : Mirrored reg chain userId start)
    (h : (program reg chain).Reaches ok (Program.idle start) c) (key : RowKey) :
    (rowTicket key).Sound c := by
  refine Ticket.Sound.reaches h ⟨?_, ?_⟩ ?_ ?_
  · change start.transferred.count key + 0 ≤ 1
    rw [hStart.transferred]
    exact List.nodup_iff_count_le_one.mp hStart.drained.nodup key
  · intro hOpen
    change start.transferred.count key + 0 = 0
    rw [Nat.add_zero, List.count_eq_zero]
    intro hMem
    simp only [rowTicket, Program.idle, hStart.status, if_pos hMem] at hOpen
    cases hOpen
  · intro request
    cases request <;> rfl
  · intro o s s' call call' before after _ _ hStep
    exact ticket_step hStep

theorem step_reaches {a : Address} {o : Outcome} {s s' : Store} {call call' : Call}
    {before after : List Call} (hPlain : reg.Plain userId) (hAddress : chain.address userId = some a)
    (hStart : Mirrored reg chain userId start)
    (hRun : (program reg chain).Reaches ok (Program.idle start) ⟨s, before ++ call :: after⟩)
    (hKept : Kept reg chain userId start s) (hKnows : Knows reg chain userId start s call)
    (hExact : Exact reg userId o s call) (hHeeds : Heeds reg userId o s call)
    (hStep : step reg chain o s call = some (s', call')) :
    (Kept reg chain userId start s' ∧ Knows reg chain userId start s' call') ∧ Grows s s' := by
  cases call with
  | ledger inner =>
    obtain ⟨next, hNext, hStore⟩ := Option.map_eq_some_iff.mp hStep
    cases hStore
    exact kept_ledger hPlain hAddress hKept hKnows hExact hHeeds hNext
  | _ =>
    refine kept_step hKept hKnows hExact hHeeds ?_ (fun inner hCall => by cases hCall) hStep
    intro row rest hCall hMem
    have hOnce := (rowTicket_sound hStart hRun row.key).fired_add_le
    rw [hCall] at hOnce
    have hPos : 0 < s.transferred.count row.key := List.count_pos_iff.mpr hMem
    simp only [rowTicket, Call.holds, if_true] at hOnce
    omega

/-- In every run whose rows tell what they book and whose top-ups stand. -/
theorem chain_covered (hPlain : reg.Plain userId) (hStart : Mirrored reg chain userId start)
    (h : (program reg chain).Reaches
      (fun o s call => Exact reg userId o s call ∧ Heeds reg userId o s call)
      (Program.idle start) c) : Covered reg chain userId c.store := by
  intro hSettled address hAddress
  refine (h.assertions_among (Kept reg chain userId start) (Knows reg chain userId start)
    ⟨hStart.kept, fun _ hMem => absurd hMem List.not_mem_nil⟩ ?_ ?_ ?_).1.covered hSettled address
      hAddress
  · intro request s _
    cases request with
    | ledger request => cases request <;> exact ⟨trivial, trivial⟩
    | deposit _ _ | process _ | reconcile _ => trivial
  · intro o s s' call call' before after hRun hKept hKnows hOk hStep
    exact (step_reaches hPlain hAddress hStart hRun hKept hKnows hOk.1 hOk.2 hStep).1
  · intro o s s' call call' before after other hRun _ hKept hKnows hOther hOk hStep
    have hGrows := (step_reaches hPlain hAddress hStart hRun hKept hKnows hOk.1 hOk.2 hStep).2
    exact hGrows.knows hOther

end Runs

/-! Of the 100 FARM of user 1, 40 are locked for an escrow, so the address has 60. That of user 2 has
90 of 100. -/

def mirroredEscrow : Store where
  ledger := oneEscrow
  status _ := .pending
  holdings address :=
    if address = 99 then 100000000 else if address = 11 then 6000 else if address = 12 then 9000 else 0
  transferred := []

/-- Before the escrow was made. -/
def unlocked : EscrowDb :=
  { oneEscrow.db with
    bank :=
      { oneEscrow.db.bank with
        wallets := fun id => if id ≤ 2 then some ⟨Wallets.toUnits 100, 0, false⟩ else none }
    escrows := [] }

theorem mirroredEscrow_held : Held mirroredEscrow.ledger.db := by
  refine ⟨unlocked, ?_, ?_, ?_⟩
  · intro id w hWallet
    simp only [unlocked, Option.ite_none_right_eq_some, Option.some.injEq] at hWallet
    exact hWallet.2 ▸ le_rfl
  · intro row hMem
    obtain rfl := List.mem_singleton.mp hMem
    exact ⟨⟨1, rfl⟩, by decide, by decide +kernel, by decide⟩
  · intro id w hWallet
    simp only [mirroredEscrow, oneEscrow, Option.ite_none_right_eq_some, Option.some.injEq] at hWallet
    obtain ⟨hId, rfl⟩ := hWallet
    refine ⟨⟨Wallets.toUnits 100, 0, false⟩, if_pos hId, ?_⟩
    have hThree : ∀ id < 3, mirroredEscrow.ledger.db.lockedFor id =
        if id = 1 then Wallets.toUnits 40 else 0 := by decide +kernel
    rw [hThree id (Nat.lt_succ_of_le hId), zero_add]

theorem mirroredEscrow_mirrored {userId : UserId} (hUser : userId = 1 ∨ userId = 2) :
    Mirrored threeUsers allReady userId mirroredEscrow := by
  refine ⟨oneEscrow_drained, mirroredEscrow_held, ?_, rfl, fun _ => rfl, ?_⟩
  · rcases hUser with rfl | rfl <;> decide +kernel
  · rcases hUser with rfl | rfl
    · rintro address ⟨⟩
      decide +kernel
    · rintro address ⟨⟩
      decide +kernel

def undisturbed : Outcome := ⟨0, FEE_DEFAULTS, true, 0, fun _ => true, [1, 2]⟩

def times (index n : ℕ) : List (Move Request Outcome) := List.replicate n (.run index undisturbed)

/-- `enqueue`, then `process`. -/
def thenSync (index : ℕ) : List (Move Request Outcome) :=
  .enter (.ledger (.enqueue 200)) :: times index 4 ++
    .enter (.process 20) :: times (index + 1) 6

/-- User 2 is topped up before the transfer. -/
def toppedUpFirst : List (Move Request Outcome) :=
  .enter (.reconcile 100) :: times 0 9 ++
    .enter (.ledger (.ledger (.sendFunds 1 2 50 false))) :: times 1 1 ++ thenSync 2

theorem chain_covered_after_topUp : ∃ c,
    (program threeUsers allReady).Reaches
      (fun o s call => Exact threeUsers 2 o s call ∧ Heeds threeUsers 2 o s call)
      (Program.idle mirroredEscrow) c ∧
      c.store.Settled ∧ c.store.holdings 12 = 15000 ∧ Covered threeUsers allReady 2 c.store := by
  have hRun : (((program threeUsers allReady).guarded
      fun o s call => Exact threeUsers 2 o s call ∧ Heeds threeUsers 2 o s call).schedule toppedUpFirst
        (Program.idle mirroredEscrow)).any (fun c => decide c.store.Settled &&
          decide (c.store.holdings 12 = 15000)) = true := by
    decide +kernel
  obtain ⟨c, hReach, hEnd⟩ := Program.reaches_of_guarded_any hRun
  rw [Bool.and_eq_true, decide_eq_true_eq, decide_eq_true_eq] at hEnd
  exact ⟨c, hReach, hEnd.1, hEnd.2,
    chain_covered (threeUsers_plain 2) (mirroredEscrow_mirrored (.inr rfl)) hReach⟩

/-- User 1 is topped up for what is locked, and then the escrow is released. -/
def lockedToppedUp : List (Move Request Outcome) :=
  .enter (.reconcile 100) :: times 0 9 ++
    .enter (.ledger (.ledger (.executeRelease 0 escrowOf40 false))) :: times 1 1 ++ thenSync 2

/-- User 2 is topped up for a transfer that is not in the outbox yet. -/
def waitingToppedUp : List (Move Request Outcome) :=
  .enter (.ledger (.ledger (.sendFunds 1 2 50 false))) :: times 0 1 ++
    .enter (.reconcile 100) :: times 1 9 ++ thenSync 2

theorem chain_above_ledger :
    (Mirrored threeUsers allReady 1 mirroredEscrow ∧ ∃ c,
      (program threeUsers allReady).Reaches (Exact threeUsers 1) (Program.idle mirroredEscrow) c ∧
        ¬Covered threeUsers allReady 1 c.store) ∧
      Mirrored threeUsers allReady 2 mirroredEscrow ∧ ∃ c,
        (program threeUsers allReady).Reaches (Exact threeUsers 2) (Program.idle mirroredEscrow) c ∧
          ¬Covered threeUsers allReady 2 c.store := by
  have hLocked : (((program threeUsers allReady).guarded (Exact threeUsers 1)).schedule lockedToppedUp
      (Program.idle mirroredEscrow)).any (fun c => decide c.store.Settled &&
        decide (ledgerBalance threeUsers 1 c.store < 1000000 * c.store.holdings 11)) = true := by
    decide +kernel
  have hWaiting : (((program threeUsers allReady).guarded (Exact threeUsers 2)).schedule
      waitingToppedUp (Program.idle mirroredEscrow)).any (fun c => decide c.store.Settled &&
        decide (ledgerBalance threeUsers 2 c.store < 1000000 * c.store.holdings 12)) = true := by
    decide +kernel
  refine ⟨⟨mirroredEscrow_mirrored (.inl rfl), ?_⟩, mirroredEscrow_mirrored (.inr rfl), ?_⟩
  · obtain ⟨c, hReach, hEnd⟩ := Program.reaches_of_guarded_any hLocked
    rw [Bool.and_eq_true, decide_eq_true_eq, decide_eq_true_eq] at hEnd
    exact ⟨c, hReach, fun hCovered => absurd (hCovered hEnd.1 11 rfl) (not_le.mpr hEnd.2)⟩
  · obtain ⟨c, hReach, hEnd⟩ := Program.reaches_of_guarded_any hWaiting
    rw [Bool.and_eq_true, decide_eq_true_eq, decide_eq_true_eq] at hEnd
    exact ⟨c, hReach, fun hCovered => absurd (hCovered hEnd.1 12 rfl) (not_le.mpr hEnd.2)⟩

end FarmBackend.ChainReconciliation
