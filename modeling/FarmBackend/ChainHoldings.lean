import FarmBackend.ChainReconciliation
import FarmBackend.OutboxMirror
import FarmBackend.Ticket
import Mathlib.Algebra.BigOperators.Ring.Finset

/-!
# What the addresses hold beside the ledger

What a user's address holds is what it held, what the rows that were sent have brought, and what was
topped up. The rows bring what the ledger books; a top-up that nothing else is about to bring fills the
rest.
-/

namespace FarmBackend.ChainReconciliation
open Decimal Fees Wallets Interleaving
open ChainLegs
open ChainOutbox (OutboxStatus)
open Escrow (EscrowDb EscrowContract)

set_option autoImplicit false

/-! ### Who holds what -/

/-- Both ends of a row are those of the users it names. -/
def Named (reg : Registry) (chain : ChainWallets reg.reserve) (row : OutboxRow) : Prop :=
  reg.Names chain ⟨row.fromUserId, row.fromAddress⟩ ∧ reg.Names chain ⟨row.toUserId, row.toAddress⟩

section Addresses
variable {reg : Registry} {chain : ChainWallets reg.reserve} {userId : UserId} {address : Address}

theorem named_of_mem_legs {walletIds : List WalletId} {id : ℕ} {t : Transaction} {row : OutboxRow}
    (h : row ∈ reg.legs chain walletIds id t) : Named reg chain row := by
  rcases mem_legs.mp h with ⟨-, -, rfl⟩ | ⟨-, -, -, rfl⟩
  · exact ⟨names_sourceOf, names_partyOf⟩
  · exact ⟨names_sourceOf, names_reserveParty⟩

theorem address_eq_of_names {p : Party} (hAddress : chain.address userId = some address)
    (hNames : reg.Names chain p) : address = p.address ↔ p.userId = some userId := by
  cases hUser : p.userId with
  | none =>
    simp only [Registry.Names, hUser] at hNames
    refine iff_of_false (fun h => ?_) (Option.some_ne_none userId).symm
    exact chain.ne_reserve userId address hAddress (h.trans hNames)
  | some other =>
    simp only [Registry.Names, hUser] at hNames
    constructor
    · rintro rfl
      rw [chain.unique other userId _ hNames hAddress]
    · rintro ⟨⟩
      exact Option.some.inj (hAddress.symm.trans hNames)

/-- A row that is sent brings a user what it is worth to the user. -/
theorem holdings_transfer {s : Store} {row : OutboxRow}
    (hAddress : chain.address userId = some address) (hNamed : Named reg chain row) :
    (s.transfer row.fromAddress row.toAddress row.amountUnits).holdings address =
      s.holdings address + signedUnits userId row := by
  have hSource := address_eq_of_names hAddress hNamed.1
  have hTarget := address_eq_of_names hAddress hNamed.2
  simp only [Store.transfer, signedUnits, hSource, hTarget]

end Addresses

/-! ### What a deposit books -/

theorem books_depositTx {reg : Registry} {userId : UserId} {walletId : WalletId} {amount : ℤ}
    {now : Time} {bank bank' : Bank} (hAmount : 0 < amount)
    (h : depositTx walletId amount now bank = some bank') : Books reg userId bank bank' := by
  simp only [depositTx, Option.bind_eq_bind, Option.bind_eq_some_iff, Option.pure_def,
    Option.some.injEq] at h
  obtain ⟨bank₁, hUpdate, rfl⟩ := h
  obtain ⟨w, -, hAdded⟩ := @shifts_walletsUpdate (reg.walletsOf userId) _ _ _ _ hUpdate
  have hGive : w.balance + amount - w.lockedBalance - (w.balance - w.lockedBalance) = amount := by
    ring
  refine .row _ _ (hAdded.trans ((shifts_transactionsCreate _).trans (shifts_ledgerCreate _))) rfl
    (gross_nonneg hAmount.le) le_rfl ?_
  rw [told_eq rfl]
  simp only [gross, owns_some, owns_none, Bool.false_eq_true, if_false, sub_zero, add_zero, ite_self,
    Wallet.incrementBalance_locked, Wallet.incrementBalance_toNumber, hGive]
  simp

/-! ### What is locked -/

/-- A wallet has locked what its open escrows hold, and what it had locked before them. -/
def Held (db : EscrowDb) : Prop :=
  ∃ db₀ : EscrowDb, (∀ walletId w, db₀.bank.wallets walletId = some w → 0 ≤ w.lockedBalance) ∧
    Escrow.Accounted db₀ db

section Locks
variable {bank bank' : Bank} {db db' : EscrowDb} {rules : FeeRules} {now : Time}

theorem Held.locked_nonneg (h : Held db) {id : WalletId} {w : Wallet}
    (hWallet : db.bank.wallets id = some w) : 0 ≤ w.lockedBalance := by
  obtain ⟨db₀, hStart, hAccounted⟩ := h
  obtain ⟨w₀, hBefore, hLocked⟩ := hAccounted.locks id w hWallet
  have hBase := hStart id w₀ hBefore
  have hOpen := Escrow.lockedFor_nonneg hAccounted.sound id
  omega

theorem Held.lockedOf_nonneg (h : Held db) (id : WalletId) : 0 ≤ db.bank.lockedOf id := by
  unfold Bank.lockedOf
  split
  · exact le_rfl
  · rename_i w hWallet
    exact h.locked_nonneg hWallet

theorem Held.keeps (h : Held db) (hEscrows : db'.escrows = db.escrows)
    (hKeeps : Bank.KeepsLocks db.bank db'.bank) : Held db' := by
  obtain ⟨db₀, hStart, hSound, hLocks⟩ := h
  refine ⟨db₀, hStart, hEscrows ▸ hSound, fun id w' hWallet' => ?_⟩
  obtain ⟨w, hWallet, hSame⟩ := hKeeps id w' hWallet'
  obtain ⟨w₀, hBefore, hLocked⟩ := hLocks id w hWallet
  refine ⟨w₀, hBefore, ?_⟩
  rw [hSame, hLocked, EscrowDb.lockedFor, EscrowDb.lockedFor, hEscrows]

theorem Held.effect (h : Held db) (hEffect : Escrow.Effect db db') : Held db' := by
  obtain ⟨db₀, hStart, hAccounted⟩ := h
  exact ⟨db₀, hStart, hEffect.accounted hAccounted⟩

theorem Held.sound (h : Held db) : ∀ row ∈ db.escrows, row.Sound := by
  obtain ⟨_, _, hAccounted⟩ := h
  exact hAccounted.sound

theorem keepsLocks_pay {sender receiver : WalletId} {x y : ℚ} {bank₁ bank₂ : Bank}
    (hDebit : bank.walletsUpdate sender (Wallet.decrementBalance x) = some bank₁)
    (hCredit : bank₁.walletsUpdate receiver (Wallet.incrementBalance y) = some bank₂) :
    Bank.KeepsLocks bank bank₂ :=
  (Bank.keepsLocks_walletsUpdate (Wallet.decrementBalance_locked x) hDebit).trans
    (Bank.keepsLocks_walletsUpdate (Wallet.incrementBalance_locked y) hCredit)

theorem keepsLocks_sendFundsTx {sender receiver : WalletId} {amount fee merchantFee : ℚ}
    (h : SendFunds.sendFundsTx sender receiver amount fee merchantFee now bank = some bank') :
    Bank.KeepsLocks bank bank' := by
  simp only [SendFunds.sendFundsTx, Option.bind_eq_bind, Option.bind_eq_some_iff] at h
  obtain ⟨bank₁, hDebit, bank₂, hCredit, bank₃, hMerchant, hFee⟩ := h
  have hPaid := (Bank.keepsLocks_transactionsCreate _ bank).trans (keepsLocks_pay hDebit hCredit)
  have hFees := (Bank.keepsLocks_creditPlatformInTx hMerchant).trans
    (Bank.keepsLocks_creditPlatformInTx hFee)
  exact hPaid.trans ((Bank.keepsLocks_ledgerCreate _ _).trans
    ((Bank.keepsLocks_ledgerCreate _ _).trans hFees))

theorem keepsLocks_acceptTx {requestId : ℕ} {payer requester : WalletId} {amount : ℤ} {fee : ℚ}
    (h : MoneyRequests.acceptTx requestId payer requester amount fee now bank = some bank') :
    Bank.KeepsLocks bank bank' := by
  simp only [MoneyRequests.acceptTx, Option.bind_eq_bind, Option.bind_eq_some_iff, Option.pure_def,
    Option.some.injEq] at h
  obtain ⟨bank₁, hDebit, bank₂, hCredit, rfl⟩ := h
  have hPaid := (Bank.keepsLocks_transactionsCreate _ bank).trans (keepsLocks_pay hDebit hCredit)
  exact hPaid.trans ((Bank.keepsLocks_ledgerCreate _ _).trans (Bank.keepsLocks_ledgerCreate _ _))

theorem keepsLocks_depositTx {walletId : WalletId} {amount : ℤ}
    (h : depositTx walletId amount now bank = some bank') : Bank.KeepsLocks bank bank' := by
  simp only [depositTx, Option.bind_eq_bind, Option.bind_eq_some_iff, Option.pure_def,
    Option.some.injEq] at h
  obtain ⟨bank₁, hUpdate, rfl⟩ := h
  have hCredit := Bank.keepsLocks_walletsUpdate (Wallet.incrementBalance_locked _) hUpdate
  exact hCredit.trans ((Bank.keepsLocks_transactionsCreate _ _).trans
    (Bank.keepsLocks_ledgerCreate _ _))

/-- An escrow moves what it holds; nothing else touches what is locked. -/
theorem Held.commit (h : Held db) {op : LedgerOp}
    (hRead : ∀ contract ∈ contractOf (.ledger (.ledger op)),
      Escrow.Matches db contract.1 contract.2)
    (hCommit : op.commit rules now db = some db') : Held db' := by
  cases op with
  | sendFunds sender receiver amount isMerchant =>
    simp only [LedgerOp.commit, Option.ite_none_right_eq_some, Option.map_eq_some_iff] at hCommit
    obtain ⟨-, bank', hTx, rfl⟩ := hCommit
    exact h.keeps rfl (keepsLocks_sendFundsTx hTx)
  | acceptAndTransfer requestId payer requester amount =>
    simp only [LedgerOp.commit, Option.ite_none_right_eq_some, Option.map_eq_some_iff] at hCommit
    obtain ⟨-, bank', hTx, rfl⟩ := hCommit
    exact h.keeps rfl (keepsLocks_acceptTx hTx)
  | create buyerId dto buyerWalletId sellerId sellerWalletId =>
    simp only [LedgerOp.commit, Option.ite_none_right_eq_some] at hCommit
    obtain ⟨hValid, hTx⟩ := hCommit
    simp only [Escrow.CreateDto.valid, Bool.and_eq_true, decide_eq_true_eq] at hValid
    exact h.effect (Escrow.effect_createTx hValid.1.1.1.1 (fun _ => h.locked_nonneg) hTx)
  | releasePartial escrowId escrow buyerId amount =>
    simp only [LedgerOp.commit, Option.bind_eq_bind, Option.bind_eq_some_iff] at hCommit
    obtain ⟨part, hPart, hTx⟩ := hCommit
    obtain ⟨n, hPos, rfl⟩ := Escrow.part_of_releasePartialChecks hPart
    exact h.effect (Escrow.effect_releasePartialTx hPos h.sound (hRead _ rfl) hTx)
  | executeRelease escrowId escrow resolution =>
    exact h.effect (Escrow.effect_executeRelease h.sound (hRead _ rfl) hCommit)
  | executeRefund escrowId escrow resolution =>
    exact h.effect (Escrow.effect_executeRefund h.sound (hRead _ rfl) hCommit)

end Locks

/-! ### Who works on a row -/

def Call.holds (key : RowKey) : Call → ℕ
  | .checks row _ | .send row _ | .fail row _ => if row.key = key then 1 else 0
  | _ => 0

/-- A row that waits has not been transferred, and neither has one that somebody works on. -/
def rowTicket (key : RowKey) : Ticket Store Call where
  isOpen s := (s.status key).isWaiting = true
  fired s := s.transferred.count key
  holds := Call.holds key

section Tickets
variable {reg : Registry} {chain : ChainWallets reg.reserve} {o : Outcome} {s s' : Store}
  {call call' : Call} {key : RowKey}

/-- A step that touches no row and starts no work. -/
theorem keeps_aside (hStatus : s'.status = s.status) (hTransferred : s'.transferred = s.transferred)
    (hHolds : call'.holds key ≤ call.holds key) :
    (rowTicket key).Keeps s call s' call' := by
  constructor
  · simp only [rowTicket, hTransferred]
    exact Nat.add_le_add_left hHolds _
  · intro hOpen
    simp only [rowTicket, hStatus] at hOpen
    exact .inl hOpen

theorem ticket_step (h : step reg chain o s call = some (s', call')) :
    (rowTicket key).Keeps s call s' call' ∨ (rowTicket key).Takes s call s' call' := by
  cases call with
  | ledger call =>
    obtain ⟨next, -, hNext⟩ := Option.map_eq_some_iff.mp h
    cases hNext
    exact .inl (keeps_aside rfl rfl le_rfl)
  | deposit walletId amount =>
    simp only [step] at h
    split at h
    · obtain ⟨bank, -, hNext⟩ := Option.map_eq_some_iff.mp h
      cases hNext
      exact .inl (keeps_aside rfl rfl le_rfl)
    · cases h
  | claim rows =>
    cases rows with
    | nil =>
      cases h
      exact .inl (keeps_aside rfl rfl le_rfl)
    | cons due rest =>
      simp only [step] at h
      split at h <;> cases h
      · rename_i hRead
        by_cases hKey : due.row.key = key
        · subst hKey
          refine .inr ⟨?_, ?_, ?_⟩
          · simp only [rowTicket, hRead]
            exact due.waiting
          · simp [rowTicket, Store.setStatus, OutboxStatus.isWaiting]
          · simp [rowTicket, Call.holds, Store.setStatus]
        · refine .inl ⟨?_, ?_⟩
          · simp [rowTicket, Call.holds, Store.setStatus, hKey]
          · intro hOpen
            simp only [rowTicket, Store.setStatus, Function.update_of_ne (Ne.symm hKey)] at hOpen
            exact .inl hOpen
      · exact .inl (keeps_aside rfl rfl le_rfl)
  | checks row rest =>
    cases h
    split <;> exact .inl (keeps_aside rfl rfl le_rfl)
  | send row rest =>
    cases h
    refine .inl ⟨?_, .inl⟩
    simp only [rowTicket, Call.holds, List.count_cons, beq_iff_eq]
    exact le_rfl
  | markSent row rest =>
    cases h
    refine .inl ⟨le_rfl, ?_⟩
    intro hOpen
    by_cases hKey : row.key = key
    · subst hKey
      simp [rowTicket, Store.setStatus, OutboxStatus.isWaiting] at hOpen
    · simp only [rowTicket, Store.setStatus, Function.update_of_ne (Ne.symm hKey)] at hOpen
      exact .inl hOpen
  | fail row rest =>
    cases h
    refine .inl ⟨Nat.add_le_add_left (Nat.zero_le _) _, ?_⟩
    intro hOpen
    by_cases hKey : row.key = key
    · subst hKey
      right
      simp [rowTicket, Call.holds, Store.setStatus]
    · simp only [rowTicket, Store.setStatus, Function.update_of_ne (Ne.symm hKey)] at hOpen
      exact .inl hOpen
  | process limit | reconcile limit =>
    cases h
    split <;> exact .inl (keeps_aside rfl rfl le_rfl)
  | findWallets limit | assetBalance userId address units rest =>
    cases h
    exact .inl (keeps_aside rfl rfl le_rfl)
  | aggregate wallets =>
    cases wallets with
    | nil =>
      cases h
      exact .inl (keeps_aside rfl rfl le_rfl)
    | cons w rest =>
      cases h
      exact .inl (keeps_aside rfl rfl le_rfl)
  | topUp userId address units chainUnits rest =>
    cases h
    split <;> exact .inl (keeps_aside rfl rfl le_rfl)
  | done => cases h

end Tickets

/-! ### What the store keeps -/

/-- What the transfers of the run's rows have brought a user. -/
def arrived (userId : UserId) (start s : Store) : ℤ :=
  moved userId ((s.ledger.rowsSince start.ledger.transactions.length).filter fun row =>
    decide (row.key ∈ s.transferred))

section Kept
variable (reg : Registry) (chain : ChainWallets reg.reserve) (userId : UserId) (start : Store)

structure Kept (s : Store) : Prop where
  tracks : Tracks reg userId start.ledger s.ledger
  held : Held s.ledger.db
  whole : Whole reg userId s.ledger.db.bank
  named : ∀ row ∈ s.ledger.outbox, start.ledger.transactions.length ≤ row.transactionId →
    Named reg chain row
  old : ∀ row ∈ s.ledger.outbox, row.transactionId < start.ledger.transactions.length →
    row.key ∈ s.transferred
  known : ∀ key ∈ s.transferred, key ∈ KeyedTable.keys OutboxRow.key s.ledger.outbox
  sent : ∀ key, s.status key = .sent → key ∈ s.transferred
  exact : available (reg.walletsOf userId) s.ledger.db.bank =
    available (reg.walletsOf userId) start.ledger.db.bank +
      1000000 * owed reg userId start.ledger s.ledger
  within : ∀ address, chain.address userId = some address →
    1000000 * (s.holdings address - arrived userId start s) ≤
      available (reg.walletsOf userId) start.ledger.db.bank

/-- What a call has read of the outbox and of the chain wallets. -/
def Knows (s : Store) : Call → Prop
  | .ledger call => ChainLegs.Knows reg userId start.ledger s.ledger call ∧
    match call with
    | .createMany _ rows => ∀ row ∈ rows, Named reg chain row
    | _ => True
  | .claim rows => ∀ due ∈ rows, due.row ∈ s.ledger.outbox
  | .checks row rest | .send row rest | .fail row rest =>
    row ∈ s.ledger.outbox ∧ ∀ due ∈ rest, due.row ∈ s.ledger.outbox
  | .markSent row rest => row.key ∈ s.transferred ∧ ∀ due ∈ rest, due.row ∈ s.ledger.outbox
  | .aggregate wallets => ∀ w ∈ wallets, chain.address w.1 = some w.2
  | .assetBalance other address _ rest | .topUp other address _ _ rest =>
    chain.address other = some address ∧ ∀ w ∈ rest, chain.address w.1 = some w.2
  | _ => True

end Kept

section Steps
variable {reg : Registry} {chain : ChainWallets reg.reserve} {userId : UserId} {start : Store}
  {o : Outcome} {s s' : Store} {call call' : Call} {row : OutboxRow}

theorem Whole.available {bank : Bank} (h : Whole reg userId bank) :
    1000000 ∣ available (reg.walletsOf userId) bank :=
  Finset.dvd_sum fun id hMem => Int.dvd_sub (h.wallets id hMem).1 (h.wallets id hMem).2

theorem status_setStatus (s : Store) (key other : RowKey) (status : OutboxStatus) :
    (s.setStatus key status).status other = if other = key then status else s.status other :=
  Function.update_apply _ _ _ _

/-- The books grow by what the legs of the new row are worth. -/
theorem Kept.commit (h : Kept reg chain userId start s) {db : EscrowDb}
    (hBooks : Books reg userId s.ledger.db.bank db.bank) (hHeld : Held db)
    (hWhole : Whole reg userId db.bank) :
    Kept reg chain userId start { s with ledger := { s.ledger with db := db } } := by
  obtain ⟨hTracks, -⟩ := tracks_commit h.tracks hBooks.booked
  refine ⟨hTracks, hHeld, hWhole, h.named, h.old, h.known, h.sent, ?_, h.within⟩
  cases hBooks with
  | nothing hShifts =>
    have hOwed : owed reg userId start.ledger { s.ledger with db := db } =
        owed reg userId start.ledger s.ledger := by
      have hSame : ({ s.ledger with db := db } : ChainLegs.Store).transactions =
          s.ledger.transactions := hShifts.transactions_eq.trans (List.append_nil _)
      unfold owed worthAt
      rw [hSame]
    change available (reg.walletsOf userId) db.bank = _
    rw [hOwed, hShifts.available_eq, add_zero, h.exact]
  | row t delta hShifts hStatus hGross hFee hTold =>
    have hOwed : owed reg userId start.ledger { s.ledger with db := db } =
        owed reg userId start.ledger s.ledger + reg.mirrored userId t :=
      owed_of_append hShifts.transactions_eq h.tracks.grows
    have hRow : t ∈ db.bank.transactions := by
      rw [hShifts.transactions_eq]
      exact List.mem_append_right _ List.mem_cons_self
    obtain ⟨hGrossUnits, hFeeUnits⟩ := hWhole.rows t hRow
    have hUnits : 1000000 ∣ delta := by
      rw [← Int.dvd_add_right h.whole.available, ← hShifts.available_eq]
      exact hWhole.available
    have hMirrored := mirrored_exact hGross hFee hTold hGrossUnits hFeeUnits hUnits
    change available (reg.walletsOf userId) db.bank = _
    rw [hOwed, hShifts.available_eq, h.exact, ← hMirrored]
    ring

/-- New rows have not been transferred. -/
theorem Kept.createMany (h : Kept reg chain userId start s) {ids : List ℕ} {rows : List OutboxRow}
    (hKnows : Knows reg chain userId start s (.ledger (.createMany ids rows))) :
    Kept reg chain userId start { s with ledger := { s.ledger.mark ids with
      outbox := KeyedTable.insertMany OutboxRow.key s.ledger.outbox rows } } := by
  obtain ⟨hRows, hNamed⟩ := hKnows
  refine ⟨tracks_createMany h.tracks hRows, h.held, h.whole, ?_, ?_, ?_, h.sent, h.exact, ?_⟩
  · intro row hMem hId
    rcases KeyedTable.mem_insertMany hMem with hOld | hNew
    · exact h.named row hOld hId
    · exact hNamed row hNew
  · intro row hMem hId
    rcases KeyedTable.mem_insertMany hMem with hOld | hNew
    · exact h.old row hOld hId
    · have hLe := (hRows.2 _ (hRows.1 row hNew).1).1
      exact absurd hId (not_lt.mpr hLe)
  · intro key hMem
    exact KeyedTable.mem_keys_insertMany.mpr (.inl (h.known key hMem))
  · intro address hAddress
    have hArrived : arrived userId start { s with ledger := { s.ledger.mark ids with
        outbox := KeyedTable.insertMany OutboxRow.key s.ledger.outbox rows } } =
          arrived userId start s := by
      unfold arrived ChainLegs.Store.rowsSince
      rw [List.filter_filter, List.filter_filter]
      congr 1
      refine KeyedTable.filter_insertMany fun row _ hTaken => h.known _ ?_
      rw [Bool.and_eq_true, decide_eq_true_eq] at hTaken
      exact hTaken.1
    rw [hArrived]
    exact h.within address hAddress

theorem Kept.setStatus (h : Kept reg chain userId start s) {key : RowKey} {status : OutboxStatus}
    (hSent : status = .sent → key ∈ s.transferred) :
    Kept reg chain userId start (s.setStatus key status) := by
  refine ⟨h.tracks, h.held, h.whole, h.named, h.old, h.known, fun other hStatus => ?_, h.exact, h.within⟩
  rw [status_setStatus] at hStatus
  split at hStatus
  · rename_i hKey
    exact hKey ▸ hSent hStatus
  · exact h.sent other hStatus

/-- What a row brings has arrived. -/
theorem Kept.send (h : Kept reg chain userId start s) (hMem : row ∈ s.ledger.outbox)
    (hNew : row.key ∉ s.transferred) :
    Kept reg chain userId start { s.transfer row.fromAddress row.toAddress row.amountUnits with
      transferred := row.key :: s.transferred } := by
  have hId : start.ledger.transactions.length ≤ row.transactionId := by
    by_contra hOld
    exact hNew (h.old row hMem (not_le.mp hOld))
  refine ⟨h.tracks, h.held, h.whole, h.named, ?_, ?_, ?_, h.exact, ?_⟩
  · intro other hOther hLt
    exact List.mem_cons_of_mem _ (h.old other hOther hLt)
  · intro key hKey
    rcases List.mem_cons.mp hKey with rfl | hOld
    · exact List.mem_map_of_mem hMem
    · exact h.known key hOld
  · intro key hStatus
    exact List.mem_cons_of_mem _ (h.sent key hStatus)
  · intro address hAddress
    have hSince : row ∈ s.ledger.rowsSince start.ledger.transactions.length :=
      List.mem_filter.mpr ⟨hMem, decide_eq_true hId⟩
    have hNodup : (KeyedTable.keys OutboxRow.key
        (s.ledger.rowsSince start.ledger.transactions.length)).Nodup :=
      h.tracks.nodup.sublist (List.filter_sublist.map _)
    have hArrived : arrived userId start
        { s.transfer row.fromAddress row.toAddress row.amountUnits with
          transferred := row.key :: s.transferred } =
          arrived userId start s + signedUnits userId row := by
      unfold arrived moved
      refine KeyedTable.sum_filter_add hNodup hSince (decide_eq_false hNew) fun other _ => ?_
      rw [decide_eq_true_eq, decide_eq_true_eq, List.mem_cons]
    have hHoldings := holdings_transfer (s := s) hAddress (h.named row hMem hId)
    have hWithin := h.within address hAddress
    rw [hArrived]
    change 1000000 * ((s.transfer _ _ _).holdings address - _) ≤ _
    rw [hHoldings]
    omega

theorem Kept.settled (h : Kept reg chain userId start s) (hSettled : s.Settled) :
    arrived userId start s = owed reg userId start.ledger s.ledger := by
  obtain ⟨hIdle, hSent⟩ := hSettled
  have hAll : (s.ledger.rowsSince start.ledger.transactions.length).filter
      (fun row => decide (row.key ∈ s.transferred)) =
        s.ledger.rowsSince start.ledger.transactions.length := by
    refine List.filter_eq_self.mpr fun row hMem => decide_eq_true ?_
    exact h.sent _ (hSent row (List.mem_of_mem_filter hMem))
  rw [arrived, hAll, moved_rowsSince h.tracks hIdle]

/-- Nothing is above the ledger once everything has arrived. -/
theorem Kept.covered (h : Kept reg chain userId start s) : Covered reg chain userId s := by
  intro hSettled address hAddress
  have hWithin := h.within address hAddress
  have hExact := h.exact
  rw [h.settled hSettled] at hWithin
  have hLocked : available (reg.walletsOf userId) s.ledger.db.bank ≤ ledgerBalance reg userId s :=
    Finset.sum_le_sum fun id hMem => Int.sub_le_self _ (h.held.lockedOf_nonneg id)
  omega

theorem ledgerUnits_le (userId : UserId) (s : Store) :
    1000000 * ledgerUnits reg userId s ≤ ledgerBalance reg userId s := by
  rw [ledgerUnits, assetUnits_toNumber]
  omega

/-- Where what was read stands, a top-up goes up to what is available. -/
theorem Kept.topUp (h : Kept reg chain userId start s) {other : UserId} {address : Address}
    {units chainUnits : ℤ} (hAddress : chain.address other = some address)
    (hUnits : 0 < units - chainUnits)
    (hStands : other = userId → 0 < units - chainUnits →
      Stands reg userId address units chainUnits s) :
    Kept reg chain userId start (s.transfer reg.reserve address (units - chainUnits)) := by
  refine ⟨h.tracks, h.held, h.whole, h.named, h.old, h.known, h.sent, h.exact, fun own hOwn => ?_⟩
  have hWithin := h.within own hOwn
  have hNotReserve : own ≠ reg.reserve := chain.ne_reserve userId own hOwn
  change 1000000 * ((s.transfer _ _ _).holdings own - arrived userId start s) ≤ _
  simp only [Store.transfer, if_neg hNotReserve, sub_zero]
  split
  · rename_i hSame
    subst hSame
    have hUser : other = userId := chain.unique other userId own hAddress hOwn
    obtain ⟨hSettled, hUnlocked, hLedger, hChain⟩ := hStands hUser hUnits
    have hAvailable : available (reg.walletsOf userId) s.ledger.db.bank =
        ledgerBalance reg userId s :=
      Finset.sum_congr rfl fun id hMem => by rw [hUnlocked id hMem, sub_zero]
    have hFloor := @ledgerUnits_le reg userId s
    have hExact := h.exact
    rw [h.settled hSettled, hChain]
    omega
  · rw [add_zero]
    exact hWithin

end Steps

end FarmBackend.ChainReconciliation
