import FarmBackend.Escrow
import FarmBackend.Interleaving

/-!
# Runs of the escrow service

`create`, `release`, `releasePartial`, `dispute`, `cancel`, the auto-release job and the admin's
`resolveDispute`, any number of each at once on any number of contracts. A read is a step, a
transaction is a step at its commit: its statements lock the rows they write, so the committed
states are those of the statements run together. `executeRelease` and `executeRefund` are
handed the contract their caller read.

A wallet's locked balance is then what it was before the first escrow plus what its open
escrows still hold, in every state a run can reach.
-/

namespace FarmBackend.Escrow
open Decimal Fees Wallets Rows Interleaving

set_option autoImplicit false

/-- What the world answers during a step: the clock, the fee configuration, the PIN or device
check, and whether the database fails on its own account. -/
structure Outcome where
  now : Time
  rules : FeeRules
  verified : Bool
  dbFails : Bool

inductive Winner where
  | buyer
  | seller
  deriving DecidableEq

inductive Request where
  | create (buyerId : UserId) (dto : CreateDto)
  | release (escrowId : ℕ) (buyerId : UserId)
  | releasePartial (escrowId : ℕ) (buyerId : UserId) (amount : ℚ)
  | dispute (escrowId : ℕ) (userId : UserId)
  | cancel (escrowId : ℕ) (userId : UserId)
  | resolveDispute (escrowId : ℕ) (winner : Winner)
  | processAutoReleases

/-- A running call, named after its next step. -/
inductive Call where
  | create (buyerId : UserId) (dto : CreateDto)
  | createSeller (buyerId : UserId) (dto : CreateDto) (buyerWalletId : WalletId) (wallet : Wallet)
  | createDuplicate (buyerId : UserId) (dto : CreateDto) (buyerWalletId : WalletId)
      (wallet : Wallet) (sellerId : UserId) (sellerWalletId : WalletId)
  | createFee (buyerId : UserId) (dto : CreateDto) (buyerWalletId : WalletId) (wallet : Wallet)
      (sellerId : UserId) (sellerWalletId : WalletId)
  | createTx (buyerId : UserId) (dto : CreateDto) (buyerWalletId : WalletId) (sellerId : UserId)
      (sellerWalletId : WalletId) (fee : ℚ) (autoReleaseAt : Time)
  | release (escrowId : ℕ) (buyerId : UserId)
  | executeRelease (escrowId : ℕ) (escrow : EscrowContract) (resolution : Bool)
  | executeRefund (escrowId : ℕ) (escrow : EscrowContract) (resolution : Bool)
  | releasePartial (escrowId : ℕ) (buyerId : UserId) (amount : ℚ)
  | releasePartialTx (escrowId : ℕ) (escrow : EscrowContract) (part : ℚ)
  | dispute (escrowId : ℕ) (userId : UserId)
  | disputeTx (escrowId : ℕ)
  | cancel (escrowId : ℕ) (userId : UserId)
  | cancelUpdate (escrowId : ℕ)
  | resolveDispute (escrowId : ℕ) (winner : Winner)
  | processAutoReleases
  | autoReleases (expired : List (ℕ × EscrowContract))
  | done

def enter : Request → Call
  | .create buyerId dto => .create buyerId dto
  | .release escrowId buyerId => .release escrowId buyerId
  | .releasePartial escrowId buyerId amount => .releasePartial escrowId buyerId amount
  | .dispute escrowId userId => .dispute escrowId userId
  | .cancel escrowId userId => .cancel escrowId userId
  | .resolveDispute escrowId winner => .resolveDispute escrowId winner
  | .processAutoReleases => .processAutoReleases

/-- The rows `processAutoReleases` selects. -/
def EscrowDb.expired (now : Time) (db : EscrowDb) : List (ℕ × EscrowContract) :=
  db.escrows.zipIdx.filterMap fun (row, id) =>
    if row.status = .active ∧ row.autoReleaseAt ≤ now then some (id, row) else none

/-- A transaction commits and its call has nothing more to write. -/
def committed (db : Option EscrowDb) : Option (EscrowDb × Call) := db.map (·, .done)

theorem committed_eq_some {db : Option EscrowDb} {db' : EscrowDb} {call' : Call} :
    committed db = some (db', call') ↔ db = some db' ∧ call' = .done := by
  cases db <;> simp [committed, eq_comm]

def step (o : Outcome) (db : EscrowDb) : Call → Option (EscrowDb × Call)
  | .create buyerId dto => do
    let buyerWalletId ← db.activeWallet buyerId
    let wallet ← db.bank.wallets buyerWalletId
    if dto.valid ∧ o.verified ∧ !wallet.isFrozen then
      return (db, .createSeller buyerId dto buyerWalletId wallet)
    else none
  | .createSeller buyerId dto buyerWalletId wallet => do
    let sellerId ← db.findUser dto.sellerIdentifier
    let sellerWalletId ← db.activeWallet sellerId
    if sellerId ≠ buyerId then
      return (db, .createDuplicate buyerId dto buyerWalletId wallet sellerId sellerWalletId)
    else none
  | .createDuplicate buyerId dto buyerWalletId wallet sellerId sellerWalletId =>
    if !db.recentDuplicate buyerId sellerId dto.amount o.now then
      some (db, .createFee buyerId dto buyerWalletId wallet sellerId sellerWalletId)
    else none
  | .createFee buyerId dto buyerWalletId wallet sellerId sellerWalletId =>
    let fee := creationFee o.rules dto.amount
    if dto.amount + fee ≤ wallet.available then
      some (db, .createTx buyerId dto buyerWalletId sellerId sellerWalletId fee
        (dto.autoReleaseAt o.now))
    else none
  | .createTx buyerId dto buyerWalletId sellerId sellerWalletId fee autoReleaseAt =>
    committed (db.createTx buyerId dto buyerWalletId sellerId sellerWalletId fee autoReleaseAt o.now)
  | .release escrowId buyerId => do
    let escrow ← db.escrows[escrowId]?
    if escrow.buyerId = buyerId ∧ escrow.status = .active ∧ o.verified then
      return (db, .executeRelease escrowId escrow false)
    else none
  | .executeRelease escrowId escrow resolution =>
    committed (db.executeRelease o.rules escrowId escrow resolution o.now)
  | .executeRefund escrowId escrow resolution =>
    committed (db.executeRefund escrowId escrow resolution o.now)
  | .releasePartial escrowId buyerId amount => do
    let escrow ← db.escrows[escrowId]?
    let part ← EscrowDb.releasePartialChecks escrow buyerId amount
    if o.verified then return (db, .releasePartialTx escrowId escrow part) else none
  | .releasePartialTx escrowId escrow part =>
    committed (db.releasePartialTx o.rules escrowId escrow part o.now)
  | .dispute escrowId userId => do
    let escrow ← db.escrows[escrowId]?
    if (escrow.buyerId = userId ∨ escrow.sellerId = userId) ∧ escrow.status = .active then
      return (db, .disputeTx escrowId)
    else none
  | .disputeTx escrowId => committed (db.disputeTx escrowId)
  | .cancel escrowId userId => do
    let escrow ← db.escrows[escrowId]?
    if escrow.buyerId = userId ∧ escrow.status = .pending then
      return (db, .cancelUpdate escrowId)
    else none
  | .cancelUpdate escrowId => committed (db.cancelUpdate escrowId)
  | .resolveDispute escrowId winner => do
    let escrow ← db.escrows[escrowId]?
    if escrow.status = .disputed then
      return (db, match winner with
        | .seller => .executeRelease escrowId escrow true
        | .buyer => .executeRefund escrowId escrow true)
    else none
  | .processAutoReleases => some (db, .autoReleases (db.expired o.now))
  | .autoReleases [] => some (db, .done)
  | .autoReleases ((escrowId, escrow) :: expired) =>
    -- A release that throws is logged and the job goes on with the next contract.
    match if o.dbFails then none else db.executeRelease o.rules escrowId escrow false o.now with
    | none => some (db, .autoReleases expired)
    | some db => some (db, .autoReleases expired)
  | .done => none

def program : Program EscrowDb Call Request Outcome := ⟨enter, step⟩

/-- An escrow in one of these states holds the buyer's money. -/
def EscrowStatus.holdsMoney (status : EscrowStatus) : Bool :=
  status == .active || status == .disputed

def EscrowContract.lockedPart (row : EscrowContract) : ℤ :=
  if row.status.holdsMoney then row.amount - row.releasedAmount else 0

def EscrowContract.lockedIn (walletId : WalletId) (row : EscrowContract) : ℤ :=
  if row.buyerWalletId = some walletId then row.lockedPart else 0

/-- The open escrows of a wallet: the sum of `amount - released_amount` over its active and
disputed contracts. -/
def EscrowDb.lockedFor (db : EscrowDb) (walletId : WalletId) : ℤ :=
  (db.escrows.map (EscrowContract.lockedIn walletId)).sum

def EscrowDb.isLocked (escrowId : ℕ) (db : EscrowDb) : Bool :=
  match db.escrows[escrowId]? with
  | none => false
  | some row => row.status.holdsMoney

def EscrowDb.isCreated (escrowId : ℕ) (db : EscrowDb) : Bool :=
  db.escrows[escrowId]?.isSome

end FarmBackend.Escrow
