import FarmBackend.Escrow
import FarmBackend.KeyedTable
import FarmBackend.MoneyRequests
import FarmBackend.SendFunds
import Mathlib.Data.List.Sort

/-!
# `ChainSyncService.enqueue`

Ledger transactions complete, and enqueue runs turn them into rows of `chain_outbox`, any number of
both at once. What `sendFunds`, `acceptAndTransfer` and the escrow service do before their
transaction commits leaves no trace here: each is its commit, with any arguments. An enqueue run is
the go-live boundary, the read of the transactions, the lookup of the accounts, and the transaction
that writes the rows and the markers.
-/

namespace FarmBackend.ChainLegs
open Decimal Fees Wallets Interleaving
open Escrow (EscrowDb EscrowContract CreateDto)

set_option autoImplicit false

abbrev Address := ℕ

inductive WalletType where
  | user
  | merchant
  | platform
  | treasury
  | operations
  | creator
  deriving DecidableEq, Repr

/-- What `addressOf` selects of a row of `wallets`. -/
structure WalletRow where
  userId : Option UserId
  walletType : WalletType
  deriving DecidableEq

/-- Whose the wallets are, which no update changes, and the address of the reserve. -/
structure Registry where
  wallet : WalletId → Option WalletRow
  walletsOf : UserId → Finset WalletId
  mem_walletsOf : ∀ userId id,
    id ∈ walletsOf userId ↔ ∃ w, wallet id = some w ∧ w.userId = some userId
  reserve : Address

/-- The rows of `user_chain_wallets` that are ready. Their addresses are unique, and the reserve
is none of them. -/
structure ChainWallets (reserve : Address) where
  address : UserId → Option Address
  unique : ∀ userId other a, address userId = some a → address other = some a → userId = other
  ne_reserve : ∀ userId a, address userId = some a → a ≠ reserve

/-- One end of a leg; the reserve has no user. -/
structure Party where
  userId : Option UserId
  address : Address
  deriving DecidableEq

inductive Leg where
  | main
  | fee
  deriving DecidableEq, Repr

structure OutboxRow where
  transactionId : ℕ
  leg : Leg
  fromUserId : Option UserId
  toUserId : Option UserId
  fromAddress : Address
  toAddress : Address
  amountUnits : ℤ
  deriving DecidableEq

/-- `@@unique([transaction_id, leg])`. -/
def OutboxRow.key (row : OutboxRow) : ℕ × Leg := (row.transactionId, row.leg)

def FARM_DECIMALS : ℕ := 2

/-- `toUnits` of this module: whole units of the asset, rounded down. -/
def assetUnits (x : ℚ) : ℤ := ⌊x * 10 ^ FARM_DECIMALS⌋

/-- `RESERVE_FUNDED.has(transaction_type)`. -/
def reserveFunded (transactionType : TransactionType) : Bool := transactionType == .escrowRelease

namespace Registry
variable (reg : Registry) (chain : ChainWallets reg.reserve)

def reserveParty : Party := ⟨none, reg.reserve⟩

/-- The users whose chain wallets are looked up. -/
def userIds (walletIds : List WalletId) : List UserId :=
  walletIds.filterMap fun id => (reg.wallet id).bind fun w =>
    if w.walletType ≠ .platform ∧ w.walletType ≠ .treasury then w.userId else none

/-- The map that `addressOf` answers for some wallets. -/
def addressOf (walletIds : List WalletId) (id : WalletId) : Option Party :=
  if id ∈ walletIds then
    (reg.wallet id).map fun w =>
      let a := w.userId.bind fun userId =>
        if userId ∈ reg.userIds walletIds then chain.address userId else none
      match a with
      | some address => ⟨w.userId, address⟩
      | none => reg.reserveParty
  else none

/-- `(wallet_id && map.get(wallet_id)) || reserve`. -/
def partyOf (walletIds : List WalletId) (walletId : Option WalletId) : Party :=
  (walletId.bind (reg.addressOf chain walletIds)).getD reg.reserveParty

/-- The rows for the transaction with an id, unless it is settled on the chain already. -/
def legs (walletIds : List WalletId) (id : ℕ) (t : Transaction) : List OutboxRow :=
  let source := if reserveFunded t.transactionType then reg.reserveParty
    else reg.partyOf chain walletIds t.senderWalletId
  let target := reg.partyOf chain walletIds t.receiverWalletId
  let net := assetUnits (if 0 < toNumber t.netAmount then toNumber t.netAmount
    else toNumber t.amount)
  let fee := assetUnits (toNumber t.fee)
  let legs := (Leg.main, source, target, net) ::
    if 0 < fee ∧ t.senderWalletId.isSome then [(Leg.fee, source, reg.reserveParty, fee)] else []
  legs.filterMap fun (leg, f, d, units) =>
    if units ≤ 0 ∨ f.address = d.address then none
    else some ⟨id, leg, f.userId, d.userId, f.address, d.address, units⟩

end Registry

/-- The id of a transaction is its position. `chainSettled` and `enqueuedAt` are the ids of those
whose metadata has `chain_settled`, which none of the producers here sets, and of those with
`chain_enqueued_at`. -/
structure Store where
  db : EscrowDb
  chainSettled : List ℕ
  enqueuedAt : List ℕ
  goLive : Bool
  outbox : List OutboxRow

namespace Store

def transactions (s : Store) : List Transaction := s.db.bank.transactions

/-- Completed and not enqueued. -/
def waiting (s : Store) : List (Transaction × ℕ) :=
  s.transactions.zipIdx.filter fun (t, id) => t.status == .completed && !s.enqueuedAt.contains id

/-- What `findMany` answers: the oldest first, at most `limit`. -/
def oldest (limit : ℕ) (s : Store) : List (Transaction × ℕ) :=
  (s.waiting.insertionSort fun a b => a.1.createdAt ≤ b.1.createdAt).take limit

/-- Marks the transactions with these ids that are still waiting. -/
def mark (ids : List ℕ) (s : Store) : Store :=
  { s with enqueuedAt := s.enqueuedAt ++ ids.filter fun id => s.waiting.any fun (_, i) => i == id }

/-- The one-time boundary: what completed before it is matched by reconciliation. -/
def ensureGoLive (cutoff : Time) (s : Store) : Store :=
  if s.goLive then s
  else { s.mark ((s.waiting.filter fun (t, _) => t.createdAt < cutoff).map Prod.snd) with
    goLive := true }

def rowsOf (s : Store) (id : ℕ) : List OutboxRow := s.outbox.filter fun row => row.transactionId == id

end Store

/-- The wallets that a batch of transactions names. -/
def walletIdsOf (txs : List (Transaction × ℕ)) : List WalletId :=
  txs.flatMap fun (t, _) => t.senderWalletId.toList ++ t.receiverWalletId.toList

/-- The ledger transactions that complete. The escrow releases and refunds are handed the contract
their caller read. -/
inductive LedgerOp where
  | sendFunds (senderWalletId receiverWalletId : WalletId) (amount : ℚ) (isMerchant : Bool)
  | acceptAndTransfer (requestId : ℕ) (payerWalletId requesterWalletId : WalletId) (amount : ℤ)
  | create (buyerId : UserId) (dto : CreateDto) (buyerWalletId : WalletId) (sellerId : UserId)
      (sellerWalletId : WalletId)
  | releasePartial (escrowId : ℕ) (escrow : EscrowContract) (buyerId : UserId) (amount : ℚ)
  | executeRelease (escrowId : ℕ) (escrow : EscrowContract) (resolution : Bool)
  | executeRefund (escrowId : ℕ) (escrow : EscrowContract) (resolution : Bool)

/-- The commit of a ledger transaction. A send and a request for money are positive. -/
def LedgerOp.commit (rules : FeeRules) (now : Time) (db : EscrowDb) : LedgerOp → Option EscrowDb
  | .sendFunds senderWalletId receiverWalletId amount isMerchant =>
    if 0 < amount then
      let fee := SendFunds.transferFee rules amount
      let merchantFee := SendFunds.merchantFeeOf rules isMerchant amount
      (SendFunds.sendFundsTx senderWalletId receiverWalletId amount fee merchantFee now db.bank).map
        fun bank => { db with bank := bank }
    else none
  | .acceptAndTransfer requestId payerWalletId requesterWalletId amount =>
    if 0 < amount then
      let fee := MoneyRequests.transferFee rules amount
      (MoneyRequests.acceptTx requestId payerWalletId requesterWalletId amount fee now db.bank).map
        fun bank => { db with bank := bank }
    else none
  | .create buyerId dto buyerWalletId sellerId sellerWalletId =>
    if dto.valid then
      db.createTx buyerId dto buyerWalletId sellerId sellerWalletId
        (Escrow.creationFee rules dto.amount) (dto.autoReleaseAt now) now
    else none
  | .releasePartial escrowId escrow buyerId amount => do
    let part ← EscrowDb.releasePartialChecks escrow buyerId amount
    db.releasePartialTx rules escrowId escrow part now
  | .executeRelease escrowId escrow resolution =>
    db.executeRelease rules escrowId escrow resolution now
  | .executeRefund escrowId escrow resolution => db.executeRefund escrowId escrow resolution now

inductive Request where
  | ledger (op : LedgerOp)
  | enqueue (limit : ℕ)

/-- A running call, named after its next step. -/
inductive Call where
  | ledger (op : LedgerOp)
  | enqueue (limit : ℕ)
  | findMany (limit : ℕ)
  | addressOf (txs : List (Transaction × ℕ))
  | createMany (ids : List ℕ) (rows : List OutboxRow)
  | done

/-- `chain` are the chain wallets as a lookup finds them, `cutoff` the time `ensureGoLive` takes. -/
structure Outcome (reserve : Address) where
  now : Time
  rules : FeeRules
  syncEnabled : Bool
  cutoff : Time
  chain : ChainWallets reserve

variable (reg : Registry)

def step (o : Outcome reg.reserve) (s : Store) : Call → Option (Store × Call)
  | .ledger op => (op.commit o.rules o.now s.db).map fun db => ({ s with db := db }, .done)
  | .enqueue limit =>
    some (if o.syncEnabled then (s.ensureGoLive o.cutoff, .findMany limit) else (s, .done))
  | .findMany limit =>
    some (s, if (s.oldest limit).isEmpty then .done else .addressOf (s.oldest limit))
  | .addressOf txs =>
    let unsettled := txs.filter fun (_, id) => !s.chainSettled.contains id
    let rows := unsettled.flatMap fun (t, id) => reg.legs o.chain (walletIdsOf txs) id t
    some (s, .createMany (txs.map Prod.snd) rows)
  | .createMany ids rows =>
    let s' := s.mark ids
    some ({ s' with outbox := KeyedTable.insertMany OutboxRow.key s.outbox rows }, .done)
  | .done => none

def program : Program Store Call Request (Outcome reg.reserve) where
  enter
    | .ledger op => .ledger op
    | .enqueue limit => .enqueue limit
  step := step reg

/-! What the legs and the ledger give a user. -/

/-- The units a row brings a user, negative where it takes them. -/
def signedUnits (userId : UserId) (row : OutboxRow) : ℤ :=
  (if row.toUserId = some userId then row.amountUnits else 0) -
    if row.fromUserId = some userId then row.amountUnits else 0

def moved (userId : UserId) (rows : List OutboxRow) : ℤ := (rows.map (signedUnits userId)).sum

/-- The balances of some wallets less what they have locked. -/
def available (ids : Finset WalletId) (bank : Bank) : ℤ :=
  ∑ id ∈ ids, (bank.balanceOf id - bank.lockedOf id)

end FarmBackend.ChainLegs
