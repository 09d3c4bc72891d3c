import FarmBackend.Rows
import FarmBackend.Wallets

/-!
# Escrow contracts (`escrow/escrow.service.ts`)

The transactions of `EscrowService` as functions on the rows they touch; `none` is a thrown
error, after which PostgreSQL keeps nothing of the transaction. The id of a contract is its
position in the table. A `resolution` is present exactly in the admin's calls; its note, the
notifications and the texts of the rows are left out.
-/

namespace FarmBackend.Escrow
open Decimal Fees Wallets

set_option autoImplicit false

inductive EscrowStatus where
  | pending
  | active
  | completed
  | disputed
  | cancelled
  | refunded
  deriving DecidableEq, Repr

structure EscrowContract where
  buyerId : UserId
  sellerId : UserId
  buyerWalletId : Option WalletId
  sellerWalletId : Option WalletId
  amount : ℤ
  fee : ℤ
  status : EscrowStatus
  releasedAmount : ℤ
  autoReleaseAt : Time
  createdAt : Time
  deriving DecidableEq, Repr

/-- `findUser` looks a user up by username or phone, `activeWallet` is the user's first active
wallet. -/
structure EscrowDb where
  bank : Bank
  findUser : String → Option UserId
  activeWallet : UserId → Option WalletId
  escrows : List EscrowContract

/-- Amount still locked in an escrow after milestone releases. -/
def remainingAmount (amount releasedAmount : ℤ) : ℚ :=
  let left := toNumber amount - toNumber releasedAmount
  if 0 < left then toFixed 8 left else 0

/-- `sellerIdentifier` and the title are trimmed already; of the title only its length counts. -/
structure CreateDto where
  sellerIdentifier : String
  titleLength : ℕ
  amount : ℚ
  autoReleaseDays : Option ℤ
  deriving DecidableEq

def CreateDto.valid (dto : CreateDto) : Bool :=
  decide (0 < dto.amount) && dto.sellerIdentifier != "" && dto.titleLength != 0 &&
    decide (dto.titleLength ≤ 255) &&
    match dto.autoReleaseDays with
    | none => true
    | some days => decide (1 ≤ days ∧ days ≤ 90)

/-- Half of the 3% escrow fee is paid when the escrow is created. -/
def creationFee (rules : FeeRules) (amount : ℚ) : ℚ := feeFor rules .escrowCreation amount 2

/-- `Date.now() + (dto.auto_release_days || 7) * 86400_000`. -/
def CreateDto.autoReleaseAt (dto : CreateDto) (now : Time) : Time :=
  match dto.autoReleaseDays with
  | none => now + 7 * 86400000
  | some days => now + days.toNat * 86400000

namespace EscrowDb

/-- `recentDuplicate`: the same buyer, seller and amount within the last minute. -/
def recentDuplicate (buyerId sellerId : UserId) (amount : ℚ) (now : Time) (db : EscrowDb) : Bool :=
  db.escrows.any fun e => e.buyerId == buyerId && e.sellerId == sellerId &&
    decide (toNumber e.amount = amount) && decide (now ≤ e.createdAt + 60000)

def creditSuperadminWalletInTx (amount : ℚ) (bank : Bank) : Option Bank :=
  bank.creditPlatformInTx amount none

def createTx (buyerId : UserId) (dto : CreateDto) (buyerWalletId : WalletId) (sellerId : UserId)
    (sellerWalletId : WalletId) (fee : ℚ) (autoReleaseAt now : Time) (db : EscrowDb) :
    Option EscrowDb := do
  let lockedWallet ← db.bank.wallets buyerWalletId
  if lockedWallet.available < dto.amount + fee then none
  let bank ← db.bank.walletsUpdate buyerWalletId
    (Wallet.incrementLocked dto.amount ∘ Wallet.decrementBalance fee)
  let bank := bank.transactionsCreate
    { senderWalletId := some buyerWalletId
      receiverWalletId := none
      transactionType := .escrowLock
      status := .completed
      amount := toUnits dto.amount
      fee := toUnits fee
      netAmount := toUnits dto.amount
      escrowId := some db.escrows.length
      createdAt := now }
  let bank ← creditSuperadminWalletInTx fee bank
  -- The contract is inserted as pending and is active when the transaction commits.
  let contract : EscrowContract :=
    { buyerId := buyerId
      sellerId := sellerId
      buyerWalletId := some buyerWalletId
      sellerWalletId := some sellerWalletId
      amount := toUnits dto.amount
      fee := toUnits fee
      status := .active
      releasedAmount := 0
      autoReleaseAt := autoReleaseAt
      createdAt := now }
  return { db with bank := bank, escrows := db.escrows ++ [contract] }

/-- What a release books: the buyer's locked part leaves, the seller gets it less the release
fee, the super admin gets the fee. -/
def payRelease (escrowId : ℕ) (buyerWalletId sellerWalletId : WalletId)
    (amount fee toSeller : ℚ) (now : Time) (bank : Bank) : Option Bank := do
  let bank ← bank.walletsUpdate buyerWalletId
    (Wallet.decrementBalance amount ∘ Wallet.decrementLocked amount)
  let bank ← bank.walletsUpdate sellerWalletId (Wallet.incrementBalance toSeller)
  let txnId := bank.transactions.length
  let bank := bank.transactionsCreate
    { senderWalletId := some buyerWalletId
      receiverWalletId := some sellerWalletId
      transactionType := .escrowRelease
      status := .completed
      amount := toUnits amount
      fee := toUnits fee
      netAmount := toUnits toSeller
      escrowId := some escrowId
      createdAt := now }
  let bank := bank.ledgerCreate ⟨some txnId, buyerWalletId, .debit, toUnits amount⟩
  let bank := bank.ledgerCreate ⟨some txnId, sellerWalletId, .credit, toUnits toSeller⟩
  creditSuperadminWalletInTx fee bank

def releasePartialTx (rules : FeeRules) (escrowId : ℕ) (escrow : EscrowContract) (part : ℚ) (now : Time)
    (db : EscrowDb) : Option EscrowDb := do
  let buyerWalletId ← escrow.buyerWalletId
  let sellerWalletId ← escrow.sellerWalletId
  let fee := feeFor rules .escrowRelease part 2
  let toSeller := toFixed 8 (part - fee)
  let row ← db.escrows[escrowId]?
  if row.status = .active ∧ toNumber row.releasedAmount + part ≤ toNumber row.amount then
    let released := toUnits (toNumber row.releasedAmount + part)
    let status := if remainingAmount row.amount released ≤ 0 then .completed else row.status
    let bank ← payRelease escrowId buyerWalletId sellerWalletId part fee toSeller now db.bank
    return { db with
      bank := bank
      escrows := db.escrows.modify escrowId fun e =>
        { e with releasedAmount := released, status := status } }
  else none

/-- `releasePartial` up to its transaction: what is released is the amount rounded to cents. -/
def releasePartialChecks (escrow : EscrowContract) (buyerId : UserId) (amount : ℚ) : Option ℚ :=
  let part := toFixed 2 amount
  if 0 < part ∧ escrow.buyerId = buyerId ∧ escrow.status = .active ∧
      escrow.buyerWalletId.isSome ∧ escrow.sellerWalletId.isSome then some part
  else none

/-- The status an escrow must have: an admin resolves disputes, everybody else acts on active
escrows. -/
def claimable (resolution : Bool) : EscrowStatus := if resolution then .disputed else .active

/-- `executeRelease`, with the contract its caller read earlier. -/
def executeRelease (rules : FeeRules) (escrowId : ℕ) (escrow : EscrowContract) (resolution : Bool)
    (now : Time) (db : EscrowDb) : Option EscrowDb := do
  let buyerWalletId ← escrow.buyerWalletId
  let sellerWalletId ← escrow.sellerWalletId
  if toNumber escrow.amount ≤ 0 then none
  let fresh ← db.escrows[escrowId]?
  if fresh.status = claimable resolution then
    let db := { db with escrows := db.escrows.modify escrowId ({ · with status := .completed }) }
    -- Only release what milestone releases have not already paid out.
    let amountLocked := remainingAmount fresh.amount fresh.releasedAmount
    let releaseFee := feeFor rules .escrowRelease amountLocked 2
    let amountToSeller := toFixed 8 (amountLocked - releaseFee)
    if amountLocked ≤ 0 then return db
    let bank ← payRelease escrowId buyerWalletId sellerWalletId amountLocked releaseFee
      amountToSeller now db.bank
    return { db with bank := bank }
  else none

def executeRefund (escrowId : ℕ) (escrow : EscrowContract) (resolution : Bool) (now : Time)
    (db : EscrowDb) : Option EscrowDb := do
  let fresh ← db.escrows[escrowId]?
  if fresh.status = claimable resolution then
    let amount := remainingAmount fresh.amount fresh.releasedAmount
    let buyerWalletId ← escrow.buyerWalletId
    let bank ← db.bank.walletsUpdate buyerWalletId (Wallet.decrementLocked amount)
    let bank := bank.transactionsCreate
      { senderWalletId := none
        receiverWalletId := some buyerWalletId
        transactionType := .escrowRefund
        status := .completed
        amount := toUnits amount
        fee := 0
        netAmount := toUnits amount
        escrowId := some escrowId
        createdAt := now }
    return { db with
      bank := bank
      escrows := db.escrows.modify escrowId ({ · with status := .refunded }) }
  else none

def disputeTx (escrowId : ℕ) (db : EscrowDb) : Option EscrowDb := do
  let row ← db.escrows[escrowId]?
  if row.status = .active then
    return { db with escrows := db.escrows.modify escrowId ({ · with status := .disputed }) }
  else none

/-- The last write of `cancel`, by id alone. -/
def cancelUpdate (escrowId : ℕ) (db : EscrowDb) : Option EscrowDb := do
  let _ ← db.escrows[escrowId]?
  return { db with escrows := db.escrows.modify escrowId ({ · with status := .cancelled }) }

end EscrowDb

theorem remainingAmount_eq (amount releasedAmount : ℤ) :
    remainingAmount amount releasedAmount = toNumber (max 0 (amount - releasedAmount)) := by
  unfold remainingAmount
  simp only [value_sub, toFixed_value]
  split
  · rename_i hPos
    rw [max_eq_right (value_pos.mp hPos).le]
  · rename_i hPos
    have hNeg : amount - releasedAmount ≤ 0 := by
      by_contra hLt
      exact hPos (value_pos.mpr (by omega))
    simp only [max_eq_left hNeg, value_zero]

theorem part_of_releasePartialChecks {escrow : EscrowContract} {buyerId : UserId} {amount part : ℚ}
    (h : EscrowDb.releasePartialChecks escrow buyerId amount = some part) :
    ∃ n : ℤ, 0 < n ∧ part = toNumber n := by
  unfold EscrowDb.releasePartialChecks at h
  simp only at h
  split at h
  · rename_i hChecks
    simp only [Option.some.injEq] at h
    subst h
    refine ⟨column 2 amount * 10 ^ 6, ?_, toNumber_cents _⟩
    have hPos : 0 < column 2 amount := value_pos.mp hChecks.1
    omega
  · cases h

section Locks
variable {bank bank' : Bank} {escrowId : ℕ} {buyerWalletId sellerWalletId : WalletId}
  {fee toSeller : ℚ} {now : Time}

theorem locks_payRelease {n : ℤ}
    (h : EscrowDb.payRelease escrowId buyerWalletId sellerWalletId (toNumber n) fee toSeller now
      bank = some bank') : Bank.LocksBy buyerWalletId (-n) bank bank' := by
  simp only [EscrowDb.payRelease, Option.bind_eq_bind, Option.bind_eq_some_iff] at h
  obtain ⟨bank₁, hBuyer, bank₂, hSeller, hFee⟩ := h
  have hDebit : Bank.LocksBy buyerWalletId (-n) bank bank₁ := by
    refine Bank.locksBy_walletsUpdate ?_ hBuyer
    intro w _
    rw [Function.comp_apply, Wallet.decrementBalance_locked, Wallet.decrementLocked_toNumber,
      sub_eq_add_neg]
  have hCredit : Bank.KeepsLocks bank₁ bank₂ :=
    Bank.keepsLocks_walletsUpdate (Wallet.incrementBalance_locked toSeller) hSeller
  have hBooks := Bank.keepsLocks_creditPlatformInTx hFee
  exact hDebit.trans (hCredit.trans hBooks)

theorem transactions_payRelease {amount : ℚ}
    (h : EscrowDb.payRelease escrowId buyerWalletId sellerWalletId amount fee toSeller now
      bank = some bank') :
    ∃ row : Transaction, row.escrowId = some escrowId ∧
      bank'.transactions = bank.transactions ++ [row] := by
  simp only [EscrowDb.payRelease, Option.bind_eq_bind, Option.bind_eq_some_iff] at h
  obtain ⟨bank₁, hBuyer, bank₂, hSeller, hFee⟩ := h
  rw [(Bank.rest_creditPlatformInTx hFee).2]
  simp only [Bank.transactions_ledgerCreate, Bank.transactionsCreate]
  rw [(Bank.rest_walletsUpdate hSeller).2.1, (Bank.rest_walletsUpdate hBuyer).2.1]
  exact ⟨_, rfl, rfl⟩

end Locks

end FarmBackend.Escrow
