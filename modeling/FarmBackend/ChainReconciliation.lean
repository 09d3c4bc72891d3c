import FarmBackend.ChainOutbox
import FarmBackend.EscrowLocks
import FarmBackend.OutboxRuns

/-!
# `ChainWalletService.reconcile` beside the outbox

The ledger, `enqueue`, the workers of `process` and reconciliations in execute mode, any number of
each, and what the addresses hold. Whose chain wallets are ready does not change, and every transfer
on the chain succeeds. A deposit is one that the reserve has to pay for: FARM that is received on the
chain is there already.
-/

namespace FarmBackend.ChainReconciliation
open Decimal Fees Wallets Interleaving
open ChainLegs
open ChainOutbox (OutboxStatus)
open Escrow (EscrowDb EscrowContract)

set_option autoImplicit false

/-- The key of a row of the outbox. -/
abbrev RowKey := ℕ × Leg

/-- The rows are those of the ledger's `outbox`, with their `status` beside them. `holdings` are the
units that an address has on the chain. `transferred` is history: the rows whose transfer has been
made. -/
structure Store where
  ledger : ChainLegs.Store
  status : RowKey → OutboxStatus
  holdings : Address → ℤ
  transferred : List RowKey

/-- A row as `process` has found it. -/
structure Due where
  row : OutboxRow
  status : OutboxStatus
  waiting : status.isWaiting = true

/-- `due` says which rows may be tried again, `users` in which order the chain wallets were made. -/
structure Outcome where
  now : Time
  rules : FeeRules
  syncEnabled : Bool
  cutoff : Time
  due : RowKey → Bool
  users : List UserId

inductive Request where
  | ledger (request : ChainLegs.Request)
  | deposit (walletId : WalletId) (amount : ℤ)
  | process (limit : ℕ)
  | reconcile (limit : ℕ)

/-- A running call, named after its next step. `fail` is the update that gives a claimed row back. -/
inductive Call where
  | ledger (call : ChainLegs.Call)
  | deposit (walletId : WalletId) (amount : ℤ)
  | process (limit : ℕ)
  | claim (rows : List Due)
  | checks (row : OutboxRow) (rest : List Due)
  | send (row : OutboxRow) (rest : List Due)
  | markSent (row : OutboxRow) (rest : List Due)
  | fail (row : OutboxRow) (rest : List Due)
  | reconcile (limit : ℕ)
  | findWallets (limit : ℕ)
  | aggregate (wallets : List (UserId × Address))
  | assetBalance (userId : UserId) (address : Address) (ledgerUnits : ℤ)
      (rest : List (UserId × Address))
  | topUp (userId : UserId) (address : Address) (ledgerUnits chainUnits : ℤ)
      (rest : List (UserId × Address))
  | done

/-- The commit of a deposit. -/
def depositTx (walletId : WalletId) (amount : ℤ) (now : Time) (bank : Bank) : Option Bank := do
  let bank ← bank.walletsUpdate walletId (Wallet.incrementBalance (toNumber amount))
  let transactionId := bank.transactions.length
  let bank := bank.transactionsCreate
    { senderWalletId := none
      receiverWalletId := some walletId
      transactionType := .deposit
      status := .completed
      amount := amount
      fee := 0
      netAmount := amount
      createdAt := now }
  return bank.ledgerCreate ⟨some transactionId, walletId, .credit, amount⟩

namespace Store

/-- A transfer on the chain. -/
def transfer (s : Store) (source target : Address) (units : ℤ) : Store :=
  { s with holdings := fun address =>
      s.holdings address + ((if address = target then units else 0) -
        if address = source then units else 0) }

def setStatus (s : Store) (key : RowKey) (status : OutboxStatus) : Store :=
  { s with status := Function.update s.status key status }

/-- The rows that `process` looks for. -/
def dueRows (s : Store) (due : RowKey → Bool) : List Due :=
  s.ledger.outbox.filterMap fun row =>
    if h : (s.status row.key).isWaiting = true then
      if due row.key then some ⟨row, s.status row.key, h⟩ else none
    else none

/-- How many rows are not `sent`. -/
def busy (s : Store) : ℕ := (s.ledger.outbox.filter fun row => s.status row.key ≠ .sent).length

end Store

section Program
variable (reg : Registry) (chain : ChainWallets reg.reserve)

/-- The sum of the balances of a user's wallets. -/
def ledgerBalance (userId : UserId) (s : Store) : ℤ :=
  ∑ id ∈ reg.walletsOf userId, s.ledger.db.bank.balanceOf id

/-- `Math.floor(ledger * 10 ** FARM_DECIMALS)`. -/
def ledgerUnits (userId : UserId) (s : Store) : ℤ := assetUnits (toNumber (ledgerBalance reg userId s))

def syncOutcome (o : Outcome) : ChainLegs.Outcome reg.reserve :=
  ⟨o.now, o.rules, o.syncEnabled, o.cutoff, chain⟩

def step (o : Outcome) (s : Store) : Call → Option (Store × Call)
  | .ledger call =>
    (ChainLegs.step reg (syncOutcome reg chain o) s.ledger call).map fun next =>
      ({ s with ledger := next.1 }, .ledger next.2)
  | .deposit walletId amount =>
    if 0 < amount then
      (depositTx walletId amount o.now s.ledger.db.bank).map fun bank =>
        ({ s with ledger := { s.ledger with db := { s.ledger.db with bank := bank } } }, .done)
    else none
  | .process limit =>
    some (s, if o.syncEnabled then .claim ((s.dueRows o.due).take limit) else .done)
  | .claim [] => some (s, .done)
  | .claim (due :: rest) =>
    some (if s.status due.row.key = due.status then
      (s.setStatus due.row.key .sending, .checks due.row rest) else (s, .claim rest))
  | .checks row rest =>
    some (s, if s.holdings row.fromAddress < row.amountUnits then .fail row rest
      else .send row rest)
  | .send row rest =>
    some ({ s.transfer row.fromAddress row.toAddress row.amountUnits with
      transferred := row.key :: s.transferred }, .markSent row rest)
  | .markSent row rest => some (s.setStatus row.key .sent, .claim rest)
  | .fail row rest => some (s.setStatus row.key .blocked, .claim rest)
  | .reconcile limit => some (s, if s.busy = 0 then .findWallets limit else .done)
  | .findWallets limit =>
    let wallets := o.users.filterMap fun userId => (chain.address userId).map (userId, ·)
    some (s, .aggregate (wallets.take (min (max limit 1) 500)))
  | .aggregate [] => some (s, .done)
  | .aggregate ((userId, address) :: rest) =>
    some (s, .assetBalance userId address (ledgerUnits reg userId s) rest)
  | .assetBalance userId address units rest =>
    some (s, .topUp userId address units (s.holdings address) rest)
  | .topUp _ address units chainUnits rest =>
    some (if 0 < units - chainUnits then s.transfer reg.reserve address (units - chainUnits) else s,
      .aggregate rest)
  | .done => none

def program : Program Store Call Request Outcome where
  enter
    | .ledger request => .ledger ((ChainLegs.program reg).enter request)
    | .deposit walletId amount => .deposit walletId amount
    | .process limit => .process limit
    | .reconcile limit => .reconcile limit
  step := step reg chain

/-! The claim and its condition. -/

/-- Every completed transaction has been enqueued and every row of the outbox is sent. -/
def Store.Settled (s : Store) : Prop :=
  s.ledger.waiting = [] ∧ ∀ row ∈ s.ledger.outbox, s.status row.key = .sent

/-- Once everything is settled, a user has no more FARM on the chain than in the ledger. -/
def Covered (userId : UserId) (s : Store) : Prop :=
  s.Settled → ∀ address, chain.address userId = some address →
    1000000 * s.holdings address ≤ ledgerBalance reg userId s

/-- What the user has and what the rows tell are whole units of the asset. -/
structure Whole (userId : UserId) (bank : Bank) : Prop where
  wallets : ∀ id ∈ reg.walletsOf userId,
    1000000 ∣ bank.balanceOf id ∧ 1000000 ∣ bank.lockedOf id
  rows : ∀ t ∈ bank.transactions, 1000000 ∣ gross t ∧ 1000000 ∣ t.fee

/-- What a step of the ledger commits. -/
def committed (o : Outcome) (s : Store) : Call → Option Bank
  | .ledger (.ledger op) => (op.commit o.rules o.now s.ledger.db).map fun db => db.bank
  | .deposit walletId amount => depositTx walletId amount o.now s.ledger.db.bank
  | _ => none

/-- The contract that a release or a refund has read. -/
def contractOf : Call → Option (ℕ × EscrowContract)
  | .ledger (.ledger (.releasePartial escrowId escrow _ _))
  | .ledger (.ledger (.executeRelease escrowId escrow _))
  | .ledger (.ledger (.executeRefund escrowId escrow _)) => some (escrowId, escrow)
  | _ => none

/-- Amounts are exact, and contracts are those of the rows. -/
def Exact (userId : UserId) (o : Outcome) (s : Store) (call : Call) : Prop :=
  (∀ bank ∈ committed o s call, Whole reg userId bank) ∧
    ∀ contract ∈ contractOf call, Escrow.Matches s.ledger.db contract.1 contract.2

/-- Nothing of the user's is on its way or locked, and the balances are as they have been read. -/
structure Stands (userId : UserId) (address : Address) (units chainUnits : ℤ) (s : Store) : Prop where
  settled : s.Settled
  unlocked : ∀ id ∈ reg.walletsOf userId, s.ledger.db.bank.lockedOf id = 0
  ledger : ledgerUnits reg userId s = units
  chain : s.holdings address = chainUnits

/-- A row tells what it books, and a wallet is topped up only where what was read stands. -/
def Heeds (userId : UserId) (o : Outcome) (s : Store) : Call → Prop
  | .ledger (.ledger op) => op.tells reg userId o.rules s.ledger.db = true
  | .topUp other address units chainUnits _ =>
    other = userId → 0 < units - chainUnits → Stands reg userId address units chainUnits s
  | _ => True

instance (s : Store) : Decidable s.Settled :=
  decidable_of_iff (s.ledger.waiting.isEmpty = true ∧ ∀ row ∈ s.ledger.outbox, s.status row.key = .sent)
    (and_congr_left' List.isEmpty_iff)

instance (userId : UserId) (bank : Bank) : Decidable (Whole reg userId bank) :=
  decidable_of_iff ((∀ id ∈ reg.walletsOf userId, 1000000 ∣ bank.balanceOf id ∧
      1000000 ∣ bank.lockedOf id) ∧
    ∀ t ∈ bank.transactions, 1000000 ∣ gross t ∧ 1000000 ∣ t.fee)
    ⟨fun h => ⟨h.1, h.2⟩, fun h => ⟨h.wallets, h.rows⟩⟩

instance (db : EscrowDb) (escrowId : ℕ) (escrow : EscrowContract) :
    Decidable (Escrow.Matches db escrowId escrow) :=
  decidable_of_iff (∃ row ∈ db.escrows[escrowId]?, row.buyerWalletId = escrow.buyerWalletId) Iff.rfl

instance (userId : UserId) (o : Outcome) (s : Store) (call : Call) :
    Decidable (Exact reg userId o s call) :=
  inferInstanceAs (Decidable (_ ∧ ∀ contract ∈ contractOf call, _))

instance (userId : UserId) (address : Address) (units chainUnits : ℤ) (s : Store) :
    Decidable (Stands reg userId address units chainUnits s) :=
  decidable_of_iff (s.Settled ∧ (∀ id ∈ reg.walletsOf userId, s.ledger.db.bank.lockedOf id = 0) ∧
      ledgerUnits reg userId s = units ∧ s.holdings address = chainUnits)
    ⟨fun ⟨hSettled, hUnlocked, hLedger, hChain⟩ => ⟨hSettled, hUnlocked, hLedger, hChain⟩,
      fun h => ⟨h.settled, h.unlocked, h.ledger, h.chain⟩⟩

instance (userId : UserId) (o : Outcome) (s : Store) (call : Call) :
    Decidable (Heeds reg userId o s call) :=
  match call with
  | .ledger (.ledger _) => inferInstanceAs (Decidable (_ = true))
  | .topUp _ _ _ _ _ => inferInstanceAs (Decidable (_ → _ → _))
  | .ledger (.enqueue _) | .ledger (.findMany _) | .ledger (.addressOf _)
  | .ledger (.createMany _ _) | .ledger .done | .deposit _ _ | .process _ | .claim _ | .checks _ _
  | .send _ _ | .markSent _ _ | .fail _ _ | .reconcile _ | .findWallets _ | .aggregate _
  | .assetBalance _ _ _ _ | .done => .isTrue trivial

end Program

end FarmBackend.ChainReconciliation
