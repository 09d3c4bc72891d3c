import FarmBackend.Escrow
import FarmBackend.Ticket
import FarmBackend.Withdrawals

/-!
# The reserved funds of one wallet

Withdrawals, their ends, escrows and investments on one user's wallet, statement by statement at READ
COMMITTED. The store is what is committed, and which of its rows a running transaction has locked. A
statement that would change or lock a locked row waits; what it then writes stays with its call until
the commit. A transaction may fail at any statement, which gives its locks back.
-/

namespace FarmBackend.ReservedFunds
open Decimal Fees Wallets Interleaving
open Withdrawals (DailyLimits WithdrawalStatus unlock)

set_option autoImplicit false

/-- A row of `Withdrawal`. -/
structure Withdrawal where
  amount : ℚ
  fee : ℚ
  status : WithdrawalStatus
  createdAt : Time
  deriving DecidableEq

/-- The reference of a withdrawal is its position. `isPlatform` says that the wallet is the super
admin's, who is paid the fees. -/
structure Store where
  wallet : Wallet
  isPlatform : Bool
  withdrawals : List Withdrawal
  walletLocked : Bool
  rowLocked : ℕ → Bool

/-- What a transaction writes beside the wallet. -/
inductive Write where
  | create (row : Withdrawal)
  | settle (status : WithdrawalStatus) (reference : ℕ)
  | keep

/-- `settle` is `markAsSuccess` or `rejectWithdrawal`. -/
inductive Request where
  | createWithdrawal (amount : ℚ)
  | settle (success : Bool) (reference : ℕ)
  | createEscrow (amount : ℚ)
  | invest (amount : ℚ)

/-- A running call, named after its next statement, with the wallet as its transaction has written
it. `checkedAt` is the time that the limits were checked at. -/
inductive Call where
  | createWithdrawal (amount : ℚ)
  | lockFunds (amount fee : ℚ)
  | checkLimits (amount fee : ℚ) (pending : Wallet)
  | insert (amount fee : ℚ) (checkedAt : Time) (pending : Wallet)
  | settle (success : Bool) (reference : ℕ)
  | claim (success : Bool) (reference : ℕ) (amount fee : ℚ)
  | settleWallet (success : Bool) (reference : ℕ) (amount fee : ℚ)
  | createEscrow (amount : ℚ)
  | selectForUpdate (amount fee : ℚ)
  | updateBuyer (amount fee : ℚ)
  | invest (amount : ℚ)
  | debit (totalDebit fee consolidation : ℚ)
  | credit (fees : List ℚ) (write : Write) (pending : Wallet)
  | commit (write : Write) (pending : Wallet)
  | done

/-- `createdAt` is what the database stores for a new row, `investment` the rule of that fee,
`consolidation` the fee of a round that the investment closes. -/
structure Outcome where
  now : Time
  createdAt : Time
  rules : FeeRules
  investment : FeeRule
  consolidation : ℚ
  aborts : Bool

def DAY : Time := 24 * 60 * 60 * 1000

def Write.reference : Write → Option ℕ
  | .settle _ reference => some reference
  | _ => none

namespace Call

/-- The call's transaction has the lock of the wallet. -/
def holdsWallet : Call → Bool
  | .checkLimits _ _ _ | .insert _ _ _ _ | .updateBuyer _ _ | .credit _ _ _ | .commit _ _ => true
  | _ => false

/-- The withdrawal whose row the call's transaction has locked. -/
def claimed : Call → Option ℕ
  | .settleWallet _ reference _ _ => some reference
  | .credit _ write _ | .commit write _ => write.reference
  | _ => none

end Call

namespace Store

/-- The user's withdrawals of the last day that did not fail. -/
def recent (now : Time) (s : Store) : List Withdrawal :=
  s.withdrawals.filter fun w => decide (now ≤ w.createdAt + DAY) && w.status != .failed

def unlockRow (reference : Option ℕ) (s : Store) : Store :=
  match reference with
  | none => s
  | some reference => { s with rowLocked := Function.update s.rowLocked reference false }

/-- What a transaction that ends gives back. -/
def release (call : Call) (s : Store) : Store :=
  { s.unlockRow call.claimed with walletLocked := s.walletLocked && !call.holdsWallet }

def write (w : Write) (s : Store) : Store :=
  match w with
  | .create row => { s with withdrawals := s.withdrawals ++ [row] }
  | .settle status reference =>
    { s with withdrawals := s.withdrawals.modify reference ({ · with status := status }) }
  | .keep => s

/-- The fee, where this wallet is paid it. -/
def creditPlatform (fee : ℚ) (pending : Wallet) (s : Store) : Wallet :=
  if s.isPlatform = true ∧ 0 < fee then pending.incrementBalance fee else pending

end Store

variable (limits : DailyLimits)

/-- The check of `lockFundsInTx`; 0 disables a limit. -/
def WithinLimits (amount : ℚ) (rows : List Withdrawal) : Prop :=
  (0 < limits.maxCount → (rows.length : ℚ) + 1 ≤ limits.maxCount) ∧
    (0 < limits.maxAmount → (rows.map Withdrawal.amount).sum + amount ≤ limits.maxAmount)

instance (amount : ℚ) (rows : List Withdrawal) : Decidable (WithinLimits limits amount rows) :=
  inferInstanceAs (Decidable (_ ∧ _))

def run (o : Outcome) (s : Store) : Call → Option (Store × Call)
  | .createWithdrawal amount =>
    if 0 < amount then some (s, .lockFunds amount (feeFor o.rules .withdrawal amount 8)) else none
  | .lockFunds amount fee =>
    if s.walletLocked then none
    else if s.wallet.isFrozen = false ∧ amount ≤ s.wallet.available then
      some ({ s with walletLocked := true },
        .checkLimits amount fee (s.wallet.incrementLocked amount))
    else some (s, .done)
  | .checkLimits amount fee pending =>
    if WithinLimits limits amount (s.recent o.now) then some (s, .insert amount fee o.now pending)
    else some ({ s with walletLocked := false }, .done)
  | .insert amount fee _ pending =>
    some (s, .commit (.create ⟨amount, fee, .pending, o.createdAt⟩) pending)
  | .settle success reference =>
    match s.withdrawals[reference]? with
    | none => some (s, .done)
    | some row =>
      if row.status.isOpen then some (s, .claim success reference row.amount row.fee)
      else some (s, .done)
  | .claim success reference amount fee =>
    if s.rowLocked reference then none
    else
      match s.withdrawals[reference]? with
      | none => some (s, .done)
      | some row =>
        if row.status.isOpen then
          some ({ s with rowLocked := Function.update s.rowLocked reference true },
            .settleWallet success reference amount fee)
        else some (s, .done)
  | .settleWallet success reference amount fee =>
    if s.walletLocked then none
    else if success then
      -- Guarded debit: never takes the balance below zero.
      if amount ≤ toNumber s.wallet.balance then
        some ({ s with walletLocked := true }, .credit [fee] (.settle .completed reference)
          ((Wallet.decrementBalance amount ∘ unlock amount) s.wallet))
      else some (s.unlockRow (some reference), .done)
    else
      some ({ s with walletLocked := true },
        .commit (.settle .failed reference) (unlock amount s.wallet))
  | .createEscrow amount =>
    if 0 < amount then some (s, .selectForUpdate amount (Escrow.creationFee o.rules amount)) else none
  | .selectForUpdate amount fee =>
    if s.walletLocked then none
    else if amount + fee ≤ s.wallet.available then
      some ({ s with walletLocked := true }, .updateBuyer amount fee)
    else some (s, .done)
  | .updateBuyer amount fee =>
    some (s, .credit [fee] .keep
      ((Wallet.incrementLocked amount ∘ Wallet.decrementBalance fee) s.wallet))
  | .invest amount =>
    let fee := computeFee o.investment amount 2
    some (s, .debit (toFixed 2 (amount + fee)) fee o.consolidation)
  | .debit totalDebit fee consolidation =>
    if s.walletLocked then none
    else if totalDebit ≤ s.wallet.available then
      some ({ s with walletLocked := true },
        .credit [fee, consolidation] .keep (s.wallet.decrementBalance totalDebit))
    else some (s, .done)
  | .credit fees write pending =>
    match fees with
    | [] => some (s, .commit write pending)
    | fee :: rest => some (s, .credit rest write (s.creditPlatform fee pending))
  | .commit write pending =>
    some ({ (s.release (.commit write pending)).write write with wallet := pending }, .done)
  | .done => none

def step (o : Outcome) (s : Store) (call : Call) : Option (Store × Call) :=
  if o.aborts then some (s.release call, .done) else run limits o s call

def enter : Request → Call
  | .createWithdrawal amount => .createWithdrawal amount
  | .settle success reference => .settle success reference
  | .createEscrow amount => .createEscrow amount
  | .invest amount => .invest amount

def program : Program Store Call Request Outcome := ⟨enter, step limits⟩

/-! What the reserved funds are for. -/

/-- What the column takes of the amount; nothing once the withdrawal is over. -/
def Withdrawal.reservedUnits (w : Withdrawal) : ℤ := if w.status.isOpen then toUnits w.amount else 0

def Withdrawal.openAmount (w : Withdrawal) : ℚ := if w.status.isOpen then w.amount else 0

namespace Store

/-- The withdrawals of the day that begins at a time, which did not fail. -/
def window (since : Time) (s : Store) : List Withdrawal :=
  s.withdrawals.filter fun w =>
    decide (since ≤ w.createdAt ∧ w.createdAt ≤ since + DAY) && w.status != .failed

structure Bounded (s : Store) : Prop where
  nonneg : 0 ≤ s.wallet.lockedBalance
  le : s.wallet.lockedBalance ≤ s.wallet.balance

/-- The wallet has locked what the pending and processing withdrawals will take. -/
def Backed (s : Store) : Prop :=
  (s.withdrawals.map Withdrawal.openAmount).sum ≤ toNumber s.wallet.lockedBalance

/-- No day has more than the limits allow. -/
structure Limited (s : Store) : Prop where
  count : 0 < limits.maxCount → ∀ since, ((s.window since).length : ℚ) ≤ limits.maxCount
  amount : 0 < limits.maxAmount →
    ∀ since, ((s.window since).map Withdrawal.amount).sum ≤ limits.maxAmount

end Store

/-- The column holds all of the amount. -/
def Fits (amount : ℚ) : Prop := amount ≤ toNumber (toUnits amount)

instance (amount : ℚ) : Decidable (Fits amount) := inferInstanceAs (Decidable (_ ≤ _))

/-- The amount that the call asks to withdraw. -/
def Call.asked : Call → Option ℚ
  | .createWithdrawal amount => some amount
  | _ => none

def Call.checkedAt : Call → Option Time
  | .insert _ _ checkedAt _ => some checkedAt
  | _ => none

/-- The column holds all of every amount that is asked for, and no row is dated before its own check
of the limits. -/
def Heeds (o : Outcome) (_ : Store) (call : Call) : Prop :=
  (∀ amount ∈ call.asked, Fits amount) ∧ ∀ checkedAt ∈ call.checkedAt, checkedAt ≤ o.createdAt

instance (o : Outcome) (s : Store) (call : Call) : Decidable (Heeds o s call) :=
  inferInstanceAs (Decidable (_ ∧ _))

end FarmBackend.ReservedFunds
