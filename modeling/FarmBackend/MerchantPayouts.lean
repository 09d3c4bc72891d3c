import FarmBackend.PayoutCalls
import FarmBackend.Payouts
import FarmBackend.SendFunds

/-!
# Payouts of a merchant (`merchant_payouts`)

`MerchantsService.requestPayout` compares the amount with what the wallet has available and creates a
row; `AdminService.processPayout` updates the row by its id. Both run among transfers and withdrawals, any
number of each at once, at READ COMMITTED. Every read is a step, and what a transaction writes is one.
-/

namespace FarmBackend.MerchantPayouts
open Decimal Fees Wallets Interleaving
open SendFunds (SendDb SendDto)
open Withdrawals (WithdrawDb DailyLimits Withdrawal WithdrawalTransaction)
open WithdrawCalls (NewWithdrawal)

set_option autoImplicit false

inductive PayoutStatus where
  | pending
  | completed
  | failed
  deriving DecidableEq, Repr

structure Payout where
  amount : ℤ
  status : PayoutStatus
  processedBy : Option UserId
  processedAt : Option Time
  deriving DecidableEq

/-- The merchant's payouts; the id of a payout is its position. No code reads the last three: `received`
and `debited` count what the merchant's wallet was credited with and what the other calls took out of it,
`taken` what the calls of payouts took out of it or locked in it. -/
structure Store where
  withdrawDb : WithdrawDb
  findUser : String → Option UserId
  walletByAddress : String → Option WalletId
  /-- `wallets.findFirst({ where: { user_id } })`. -/
  firstWallet : UserId → Option WalletId
  payouts : List Payout
  received : ℤ
  debited : ℤ
  taken : ℤ

namespace Store

def bank (s : Store) : Bank := s.withdrawDb.bank

def setBank (s : Store) (bank : Bank) : Store :=
  { s with withdrawDb := { s.withdrawDb with bank := bank } }

/-- What a transfer sees. -/
def sendDb (s : Store) : SendDb where
  bank := s.bank
  findUser := s.findUser
  activeWallet := s.withdrawDb.activeWallet
  walletByAddress := s.walletByAddress

end Store

/-- `approved` is the merchant's standing. -/
structure Outcome where
  now : Time
  todayStart : Time
  rules : FeeRules
  verified : Bool
  limits : DailyLimits
  approved : Bool

def Outcome.send (o : Outcome) : SendFunds.Outcome := ⟨o.now, o.todayStart, o.rules, o.verified⟩

inductive Decision where
  | completed
  | failed
  deriving DecidableEq, Repr

def Decision.status : Decision → PayoutStatus
  | .completed => .completed
  | .failed => .failed

/-- The callers of a withdrawal's end pass on what they have read. -/
inductive Request where
  | requestPayout (amount : ℚ)
  | processPayout (id : ℕ) (adminId : UserId) (decision : Decision)
  | sendFunds (senderId : UserId) (dto : SendDto)
  | createWithdrawal (new : NewWithdrawal)
  | markAsSuccess (reference : ℕ) (withdrawal : Withdrawal) (transaction : WithdrawalTransaction)
      (walletId : WalletId)
  | rejectWithdrawal (reference : ℕ) (withdrawal : Withdrawal) (transaction : WithdrawalTransaction)
      (walletId : WalletId)

/-- A running call, named after its next step. -/
inductive Call where
  | requestPayout (amount : ℚ)
  | payoutWallet (amount : ℚ)
  | createPayout (amount : ℚ)
  | processPayout (id : ℕ) (adminId : UserId) (decision : Decision)
  | send (call : SendFunds.Call)
  | lockFundsInTx (new : NewWithdrawal)
  | markAsSuccessTx (reference : ℕ) (withdrawal : Withdrawal) (transaction : WithdrawalTransaction)
      (walletId : WalletId)
  | rejectWithdrawalTx (reference : ℕ) (withdrawal : Withdrawal)
      (transaction : WithdrawalTransaction) (walletId : WalletId)
  | done

def enter : Request → Call
  | .requestPayout amount => .requestPayout amount
  | .processPayout id adminId decision => .processPayout id adminId decision
  | .sendFunds senderId dto => .send (.recipient senderId dto)
  | .createWithdrawal new => .lockFundsInTx new
  | .markAsSuccess reference withdrawal transaction walletId =>
    .markAsSuccessTx reference withdrawal transaction walletId
  | .rejectWithdrawal reference withdrawal transaction walletId =>
    .rejectWithdrawalTx reference withdrawal transaction walletId

/-- `Number(wallet?.balance || 0) - Number(wallet?.locked_balance || 0)`. -/
def availableOf : Option Wallet → ℚ
  | none => 0
  | some w => w.available

/-- The step of a call; `owner` is the merchant's user. -/
def act (owner : UserId) (o : Outcome) (s : Store) : Call → Option (Store × Call)
  -- The DTO takes positive amounts only.
  | .requestPayout amount =>
    if 0 < amount ∧ o.approved = true then some (s, .payoutWallet amount) else none
  | .payoutWallet amount =>
    if amount ≤ availableOf ((s.firstWallet owner).bind s.bank.wallets) then
      some (s, .createPayout amount)
    else none
  | .createPayout amount =>
    some ({ s with payouts := s.payouts ++ [⟨toUnits amount, .pending, none, none⟩] }, .done)
  | .processPayout id adminId decision => do
    let _ ← s.payouts[id]?
    return ({ s with payouts := s.payouts.modify id fun p => { p with
      status := decision.status
      processedBy := some adminId
      processedAt := some o.now } }, .done)
  | .send call => do
    let (db, call) ← SendFunds.step o.send s.sendDb call
    return (s.setBank db.bank, .send call)
  | .lockFundsInTx new => do
    let db ← s.withdrawDb.lockFundsInTx new.walletId new.userId new.amount o.limits o.now
    return ({ s with withdrawDb := { db with rows := db.rows ++ [Payouts.newRow o.now new] } }, .done)
  | .markAsSuccessTx reference withdrawal transaction walletId => do
    let (db, _) ← s.withdrawDb.markAsSuccessTx reference withdrawal transaction walletId
    return ({ s with withdrawDb := db }, .done)
  | .rejectWithdrawalTx reference withdrawal transaction walletId => do
    let (db, _) ← s.withdrawDb.rejectWithdrawalTx reference withdrawal transaction walletId
    return ({ s with withdrawDb := db }, .done)
  | .done => none

def Call.ofPayout : Call → Bool
  | .requestPayout _ | .payoutWallet _ | .createPayout _ | .processPayout _ _ _ => true
  | _ => false

/-- The counts after a step from `before`. -/
def Store.count (wallet : WalletId) (ofPayout : Bool) (s before : Store) : Store :=
  let out := max 0 (before.bank.balanceOf wallet - s.bank.balanceOf wallet)
  let locked := max 0 (s.bank.lockedOf wallet - before.bank.lockedOf wallet)
  { s with
    received := before.received + max 0 (s.bank.balanceOf wallet - before.bank.balanceOf wallet)
    debited := before.debited + if ofPayout then 0 else out
    taken := before.taken + if ofPayout then out + locked else 0 }

def step (owner : UserId) (wallet : WalletId) (o : Outcome) (s : Store) (call : Call) :
    Option (Store × Call) :=
  (act owner o s call).map fun (s', call') => (s'.count wallet call.ofPayout s, call')

def program (owner : UserId) (wallet : WalletId) : Program Store Call Request Outcome :=
  ⟨enter, step owner wallet⟩

/-! ### The claim and its condition -/

def completedTotal (payouts : List Payout) : ℤ :=
  ((payouts.filter fun p => p.status == .completed).map (·.amount)).sum

/-- Money was taken or locked for what was paid out, and no more left the wallet than it received. -/
structure Backed (s : Store) : Prop where
  taken : completedTotal s.payouts ≤ s.taken
  received : completedTotal s.payouts + s.debited ≤ s.received

instance (s : Store) : Decidable (Backed s) :=
  decidable_of_iff (completedTotal s.payouts ≤ s.taken ∧
    completedTotal s.payouts + s.debited ≤ s.received) ⟨fun h => ⟨h.1, h.2⟩, fun h => ⟨h.1, h.2⟩⟩

/-- The payouts that were decided are as they were. -/
def StaysDecided (s later : Store) : Prop :=
  ∀ (id : ℕ) (p : Payout), s.payouts[id]? = some p → p.status ≠ .pending →
    later.payouts[id]? = some p

/-- Only pending payouts are decided and no amount is completed; a transfer leaves no negative balance. -/
def sound (wallet : WalletId) (s : Store) : Call → Bool
  | .processPayout id _ decision => s.payouts[id]?.all fun p =>
    decide (p.status = .pending ∧ (decision = .completed → p.amount ≤ 0))
  | .send (.commit senderWalletId receiverWalletId amount fee merchantFee) =>
    decide ((senderWalletId = wallet →
        SendFunds.totalOut amount fee ≤ toNumber (s.bank.balanceOf wallet)) ∧
      (receiverWalletId = wallet →
        -SendFunds.receiverCredit amount merchantFee ≤ toNumber (s.bank.balanceOf wallet)))
  | _ => true

abbrev Sound (wallet : WalletId) : Guard Store Call Outcome := fun _ s call =>
  sound wallet s call = true

end FarmBackend.MerchantPayouts
