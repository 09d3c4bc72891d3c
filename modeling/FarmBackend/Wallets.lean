import FarmBackend.Fees
import Mathlib.Algebra.BigOperators.Group.Finset.Basic
import Mathlib.Algebra.Order.BigOperators.Group.Finset
import Mathlib.Tactic.Abel

/-!
# Wallets, transactions and ledger entries

The rows money lives in. Every amount column is `Decimal(30, 8)`, so a row holds an integer
count of `0.00000001` FARM and a write rounds what the service computed. An operation that
throws answers `none`: the transaction it belongs to is rolled back.
-/

namespace FarmBackend.Wallets
open Decimal

set_option autoImplicit false

abbrev WalletId := ℕ
abbrev UserId := ℕ

/-- Milliseconds. -/
abbrev Time := ℕ

/-- `Number(column)`. -/
abbrev toNumber (units : ℤ) : ℚ := value 8 units

/-- The write of a number into a `Decimal(30, 8)` column. -/
abbrev toUnits (x : ℚ) : ℤ := column 8 x

theorem toUnits_toNumber (units : ℤ) : toUnits (toNumber units) = units := column_value 8 units

theorem toNumber_cents (n : ℤ) : value 2 n = toNumber (n * 10 ^ 6) := by
  unfold toNumber value
  push_cast
  ring

structure Wallet where
  balance : ℤ
  lockedBalance : ℤ
  isFrozen : Bool
  deriving DecidableEq, Repr

inductive EntryType where
  | debit
  | credit
  deriving DecidableEq, Repr

structure LedgerEntry where
  transactionId : Option ℕ
  walletId : WalletId
  entryType : EntryType
  amount : ℤ
  deriving DecidableEq, Repr

inductive TransactionType where
  | deposit
  | withdrawal
  | transfer
  | merchantPayment
  | escrowLock
  | escrowRelease
  | escrowRefund
  deriving DecidableEq, Repr

inductive TransactionStatus where
  | pending
  | processing
  | completed
  | failed
  | cancelled
  | reversed
  deriving DecidableEq, Repr

/-- `escrowId` and `requestId` are `metadata.escrow_id` and `metadata.request_id`. -/
structure Transaction where
  senderWalletId : Option WalletId
  receiverWalletId : Option WalletId
  transactionType : TransactionType
  status : TransactionStatus
  amount : ℤ
  fee : ℤ
  netAmount : ℤ
  escrowId : Option ℕ := none
  requestId : Option ℕ := none
  createdAt : Time
  deriving DecidableEq, Repr

namespace Wallet

/-- `{ balance: { increment: x } }`, and likewise below. -/
def incrementBalance (x : ℚ) (w : Wallet) : Wallet :=
  { w with balance := toUnits (toNumber w.balance + x) }

def decrementBalance (x : ℚ) (w : Wallet) : Wallet :=
  { w with balance := toUnits (toNumber w.balance - x) }

def incrementLocked (x : ℚ) (w : Wallet) : Wallet :=
  { w with lockedBalance := toUnits (toNumber w.lockedBalance + x) }

def decrementLocked (x : ℚ) (w : Wallet) : Wallet :=
  { w with lockedBalance := toUnits (toNumber w.lockedBalance - x) }

@[simp] theorem incrementBalance_locked (x : ℚ) (w : Wallet) :
    (w.incrementBalance x).lockedBalance = w.lockedBalance := rfl

@[simp] theorem decrementBalance_locked (x : ℚ) (w : Wallet) :
    (w.decrementBalance x).lockedBalance = w.lockedBalance := rfl

@[simp] theorem incrementLocked_balance (x : ℚ) (w : Wallet) :
    (w.incrementLocked x).balance = w.balance := rfl

@[simp] theorem decrementLocked_balance (x : ℚ) (w : Wallet) :
    (w.decrementLocked x).balance = w.balance := rfl

@[simp] theorem incrementBalance_toNumber (n : ℤ) (w : Wallet) :
    (w.incrementBalance (toNumber n)).balance = w.balance + n := by
  simp [incrementBalance, value_add]

@[simp] theorem decrementBalance_toNumber (n : ℤ) (w : Wallet) :
    (w.decrementBalance (toNumber n)).balance = w.balance - n := by
  simp [decrementBalance, value_sub]

@[simp] theorem incrementLocked_toNumber (n : ℤ) (w : Wallet) :
    (w.incrementLocked (toNumber n)).lockedBalance = w.lockedBalance + n := by
  simp [incrementLocked, value_add]

@[simp] theorem decrementLocked_toNumber (n : ℤ) (w : Wallet) :
    (w.decrementLocked (toNumber n)).lockedBalance = w.lockedBalance - n := by
  simp [decrementLocked, value_sub]

/-- `Number(balance) - Number(locked_balance)`. -/
def available (w : Wallet) : ℚ := toNumber w.balance - toNumber w.lockedBalance

end Wallet

/-- `platform` is the active wallet of the super admin, when there is one. -/
structure Bank where
  wallets : WalletId → Option Wallet
  platform : Option WalletId
  transactions : List Transaction
  ledger : List LedgerEntry

namespace Bank

/-- `wallets.update({ where: { id } })`, which throws when the row is missing. -/
def walletsUpdate (id : WalletId) (f : Wallet → Wallet) (b : Bank) : Option Bank :=
  match b.wallets id with
  | none => none
  | some w => some { b with wallets := Function.update b.wallets id (some (f w)) }

def ledgerCreate (entry : LedgerEntry) (b : Bank) : Bank :=
  { b with ledger := b.ledger ++ [entry] }

def transactionsCreate (row : Transaction) (b : Bank) : Bank :=
  { b with transactions := b.transactions ++ [row] }

def creditWalletInTx (walletId : WalletId) (amount : ℚ) (transactionId : Option ℕ) (b : Bank) :
    Option Bank :=
  if 0 < amount then do
    let b ← b.walletsUpdate walletId (Wallet.incrementBalance amount)
    return b.ledgerCreate ⟨transactionId, walletId, .credit, toUnits amount⟩
  else some b

def creditPlatformInTx (amount : ℚ) (transactionId : Option ℕ) (b : Bank) : Option Bank :=
  if 0 < amount then
    match b.platform with
    | none => none
    | some walletId => b.creditWalletInTx walletId amount transactionId
  else some b

def balanceOf (b : Bank) (id : WalletId) : ℤ :=
  match b.wallets id with
  | none => 0
  | some w => w.balance

def lockedOf (b : Bank) (id : WalletId) : ℤ :=
  match b.wallets id with
  | none => 0
  | some w => w.lockedBalance

def total (b : Bank) (ids : Finset WalletId) : ℤ := ∑ id ∈ ids, b.balanceOf id

theorem balanceOf_eq {b : Bank} {id : WalletId} {w : Wallet} (h : b.wallets id = some w) :
    b.balanceOf id = w.balance := by
  simp [balanceOf, h]

theorem lockedOf_eq {b : Bank} {id : WalletId} {w : Wallet} (h : b.wallets id = some w) :
    b.lockedOf id = w.lockedBalance := by
  simp [lockedOf, h]

@[simp] theorem wallets_ledgerCreate (entry : LedgerEntry) (b : Bank) :
    (b.ledgerCreate entry).wallets = b.wallets := rfl

@[simp] theorem wallets_transactionsCreate (row : Transaction) (b : Bank) :
    (b.transactionsCreate row).wallets = b.wallets := rfl

@[simp] theorem platform_ledgerCreate (entry : LedgerEntry) (b : Bank) :
    (b.ledgerCreate entry).platform = b.platform := rfl

@[simp] theorem platform_transactionsCreate (row : Transaction) (b : Bank) :
    (b.transactionsCreate row).platform = b.platform := rfl

@[simp] theorem transactions_ledgerCreate (entry : LedgerEntry) (b : Bank) :
    (b.ledgerCreate entry).transactions = b.transactions := rfl

@[simp] theorem ledger_transactionsCreate (row : Transaction) (b : Bank) :
    (b.transactionsCreate row).ledger = b.ledger := rfl

theorem walletsUpdate_eq_some {id : WalletId} {f : Wallet → Wallet} {b b' : Bank} :
    b.walletsUpdate id f = some b' ↔
      ∃ w, b.wallets id = some w ∧
        b' = { b with wallets := Function.update b.wallets id (some (f w)) } := by
  unfold walletsUpdate
  cases b.wallets id with
  | none => simp
  | some w => simp [eq_comm]

section Updates
variable {id : WalletId} {f : Wallet → Wallet} {b b' : Bank}

theorem wallets_walletsUpdate (h : b.walletsUpdate id f = some b') :
    ∃ w, b.wallets id = some w ∧ b'.wallets = Function.update b.wallets id (some (f w)) := by
  obtain ⟨w, hw, rfl⟩ := Iff.mp walletsUpdate_eq_some h
  exact ⟨w, hw, rfl⟩

theorem rest_walletsUpdate (h : b.walletsUpdate id f = some b') :
    b'.platform = b.platform ∧ b'.transactions = b.transactions ∧ b'.ledger = b.ledger := by
  obtain ⟨w, _, rfl⟩ := Iff.mp walletsUpdate_eq_some h
  exact ⟨rfl, rfl, rfl⟩

theorem balanceOf_walletsUpdate (h : b.walletsUpdate id f = some b') :
    ∃ w, b.wallets id = some w ∧
      ∀ other, b'.balanceOf other = if other = id then (f w).balance else b.balanceOf other := by
  obtain ⟨w, hw, rfl⟩ := Iff.mp walletsUpdate_eq_some h
  refine ⟨w, hw, ?_⟩
  intro other
  by_cases hId : other = id
  · subst hId
    simp [balanceOf]
  · simp [balanceOf, hId]

theorem lockedOf_walletsUpdate (h : b.walletsUpdate id f = some b') :
    ∃ w, b.wallets id = some w ∧
      ∀ other, b'.lockedOf other = if other = id then (f w).lockedBalance else b.lockedOf other := by
  obtain ⟨w, hw, rfl⟩ := Iff.mp walletsUpdate_eq_some h
  refine ⟨w, hw, ?_⟩
  intro other
  by_cases hId : other = id
  · subst hId
    simp [lockedOf]
  · simp [lockedOf, hId]

theorem total_walletsUpdate {ids : Finset WalletId} (hId : id ∈ ids)
    (h : b.walletsUpdate id f = some b') :
    ∃ w, b.wallets id = some w ∧ b'.total ids = b.total ids + ((f w).balance - w.balance) := by
  obtain ⟨w, hw, hBalance⟩ := balanceOf_walletsUpdate h
  refine ⟨w, hw, ?_⟩
  have hOld := balanceOf_eq hw
  have hNew : b'.balanceOf id = (f w).balance := by rw [hBalance, if_pos rfl]
  have hRest : ∑ x ∈ ids.erase id, b'.balanceOf x = ∑ x ∈ ids.erase id, b.balanceOf x := by
    refine Finset.sum_congr rfl ?_
    intro x hx
    rw [hBalance, if_neg (Finset.ne_of_mem_erase hx)]
  have hBefore := Finset.add_sum_erase ids b.balanceOf hId
  have hAfter := Finset.add_sum_erase ids b'.balanceOf hId
  rw [total, total, ← hBefore, ← hAfter, hRest, hOld, hNew]
  abel

theorem isSome_walletsUpdate (h : b.walletsUpdate id f = some b') (other : WalletId) :
    (b'.wallets other).isSome = (b.wallets other).isSome := by
  obtain ⟨w, hw, rfl⟩ := walletsUpdate_eq_some.mp h
  by_cases hId : other = id
  · subst hId
    simp [hw]
  · simp [hId]

end Updates

theorem rest_creditWalletInTx {walletId : WalletId} {amount : ℚ} {transactionId : Option ℕ}
    {b b' : Bank} (h : b.creditWalletInTx walletId amount transactionId = some b') :
    b'.platform = b.platform ∧ b'.transactions = b.transactions := by
  unfold creditWalletInTx at h
  split at h
  · simp only [Option.bind_eq_bind, Option.bind_eq_some_iff, Option.pure_def,
      Option.some.injEq] at h
    obtain ⟨b₁, hUpdate, rfl⟩ := h
    obtain ⟨hPlatform, hTransactions, _⟩ := rest_walletsUpdate hUpdate
    exact ⟨hPlatform, hTransactions⟩
  · simp only [Option.some.injEq] at h
    subst h
    exact ⟨rfl, rfl⟩

theorem rest_creditPlatformInTx {amount : ℚ} {transactionId : Option ℕ} {b b' : Bank}
    (h : b.creditPlatformInTx amount transactionId = some b') :
    b'.platform = b.platform ∧ b'.transactions = b.transactions := by
  unfold creditPlatformInTx at h
  split at h
  · split at h
    · cases h
    · exact rest_creditWalletInTx h
  · simp only [Option.some.injEq] at h
    subst h
    exact ⟨rfl, rfl⟩

theorem isSome_creditWalletInTx {walletId : WalletId} {amount : ℚ} {transactionId : Option ℕ}
    {b b' : Bank} (h : b.creditWalletInTx walletId amount transactionId = some b')
    (other : WalletId) : (b'.wallets other).isSome = (b.wallets other).isSome := by
  unfold creditWalletInTx at h
  split at h
  · simp only [Option.bind_eq_bind, Option.bind_eq_some_iff, Option.pure_def,
      Option.some.injEq] at h
    obtain ⟨b₁, hUpdate, rfl⟩ := h
    exact isSome_walletsUpdate hUpdate other
  · simp only [Option.some.injEq] at h
    rw [h]

theorem isSome_creditPlatformInTx {amount : ℚ} {transactionId : Option ℕ} {b b' : Bank}
    (h : b.creditPlatformInTx amount transactionId = some b') (other : WalletId) :
    (b'.wallets other).isSome = (b.wallets other).isSome := by
  unfold creditPlatformInTx at h
  split at h
  · split at h
    · cases h
    · exact isSome_creditWalletInTx h other
  · simp only [Option.some.injEq] at h
    rw [h]

theorem ledger_creditWalletInTx {walletId : WalletId} {amount : ℚ} {transactionId : Option ℕ}
    {b b' : Bank} (h : b.creditWalletInTx walletId amount transactionId = some b') :
    ∃ entries, b'.ledger = b.ledger ++ entries ∧ ∀ entry ∈ entries, entry.entryType = .credit := by
  unfold creditWalletInTx at h
  split at h
  · simp only [Option.bind_eq_bind, Option.bind_eq_some_iff, Option.pure_def,
      Option.some.injEq] at h
    obtain ⟨b₁, hUpdate, rfl⟩ := h
    obtain ⟨_, _, hLedger⟩ := rest_walletsUpdate hUpdate
    refine ⟨[⟨transactionId, walletId, .credit, toUnits amount⟩], ?_, ?_⟩
    · rw [ledgerCreate, hLedger]
    · intro entry hEntry
      rw [List.mem_singleton.mp hEntry]
  · simp only [Option.some.injEq] at h
    exact ⟨[], by simp [h], by simp⟩

theorem ledger_creditPlatformInTx {amount : ℚ} {transactionId : Option ℕ} {b b' : Bank}
    (h : b.creditPlatformInTx amount transactionId = some b') :
    ∃ entries, b'.ledger = b.ledger ++ entries ∧ ∀ entry ∈ entries, entry.entryType = .credit := by
  unfold creditPlatformInTx at h
  split at h
  · split at h
    · cases h
    · exact ledger_creditWalletInTx h
  · simp only [Option.some.injEq] at h
    exact ⟨[], by simp [h], by simp⟩

/-! What an operation does to the locked balances, all wallets at once. -/

/-- Every wallet keeps what it has locked, but for `delta` more in the wallet `owner`. -/
def LocksBy (owner : WalletId) (delta : ℤ) (b b' : Bank) : Prop :=
  ∀ id w', b'.wallets id = some w' → ∃ w, b.wallets id = some w ∧
    w'.lockedBalance = w.lockedBalance + if id = owner then delta else 0

/-- No wallet's locked balance changes. -/
def KeepsLocks (b b' : Bank) : Prop :=
  ∀ id w', b'.wallets id = some w' → ∃ w, b.wallets id = some w ∧
    w'.lockedBalance = w.lockedBalance

theorem KeepsLocks.refl (b : Bank) : KeepsLocks b b := fun _ w' h => ⟨w', h, rfl⟩

theorem LocksBy.refl (owner : WalletId) (b : Bank) : LocksBy owner 0 b b :=
  fun _ w' h => ⟨w', h, by simp⟩

theorem LocksBy.trans {owner : WalletId} {delta : ℤ} {a b c : Bank}
    (hab : LocksBy owner delta a b) (hbc : KeepsLocks b c) : LocksBy owner delta a c := by
  intro id w'' hc
  obtain ⟨w', hb, hEq'⟩ := hbc id w'' hc
  obtain ⟨w, ha, hEq⟩ := hab id w' hb
  exact ⟨w, ha, hEq'.trans hEq⟩

theorem KeepsLocks.trans {a b c : Bank} (hab : KeepsLocks a b) (hbc : KeepsLocks b c) :
    KeepsLocks a c := by
  intro id w'' hc
  obtain ⟨w', hb, hEq'⟩ := hbc id w'' hc
  obtain ⟨w, ha, hEq⟩ := hab id w' hb
  exact ⟨w, ha, hEq'.trans hEq⟩

theorem locksBy_walletsUpdate {id : WalletId} {f : Wallet → Wallet} {delta : ℤ} {b b' : Bank}
    (hf : ∀ w, b.wallets id = some w → (f w).lockedBalance = w.lockedBalance + delta)
    (h : b.walletsUpdate id f = some b') : LocksBy id delta b b' := by
  obtain ⟨w, hw, rfl⟩ := walletsUpdate_eq_some.mp h
  intro other w' hw'
  by_cases hId : other = id
  · subst hId
    simp only [Function.update_self, Option.some.injEq] at hw'
    subst hw'
    exact ⟨w, hw, by rw [if_pos rfl, hf w hw]⟩
  · simp only [Function.update_of_ne hId] at hw'
    exact ⟨w', hw', by rw [if_neg hId, add_zero]⟩

theorem keepsLocks_walletsUpdate {id : WalletId} {f : Wallet → Wallet} {b b' : Bank}
    (hf : ∀ w, (f w).lockedBalance = w.lockedBalance)
    (h : b.walletsUpdate id f = some b') : KeepsLocks b b' := by
  intro other w' hw'
  obtain ⟨w, hw, hEq⟩ := locksBy_walletsUpdate
    (fun w _ => by rw [hf w, add_zero w.lockedBalance]) h other w' hw'
  exact ⟨w, hw, by simpa using hEq⟩

theorem keepsLocks_transactionsCreate (row : Transaction) (b : Bank) :
    KeepsLocks b (b.transactionsCreate row) := fun _ w' h => ⟨w', h, rfl⟩

theorem keepsLocks_ledgerCreate (entry : LedgerEntry) (b : Bank) :
    KeepsLocks b (b.ledgerCreate entry) := fun _ w' h => ⟨w', h, rfl⟩

theorem keepsLocks_creditWalletInTx {walletId : WalletId} {amount : ℚ}
    {transactionId : Option ℕ} {b b' : Bank}
    (h : b.creditWalletInTx walletId amount transactionId = some b') : KeepsLocks b b' := by
  unfold creditWalletInTx at h
  split at h
  · simp only [Option.bind_eq_bind, Option.bind_eq_some_iff, Option.pure_def,
      Option.some.injEq] at h
    obtain ⟨b₁, hUpdate, rfl⟩ := h
    have hCredit := keepsLocks_walletsUpdate (Wallet.incrementBalance_locked amount) hUpdate
    exact hCredit.trans (keepsLocks_ledgerCreate _ _)
  · simp only [Option.some.injEq] at h
    subst h
    exact .refl b

theorem keepsLocks_creditPlatformInTx {amount : ℚ} {transactionId : Option ℕ} {b b' : Bank}
    (h : b.creditPlatformInTx amount transactionId = some b') : KeepsLocks b b' := by
  unfold creditPlatformInTx at h
  split at h
  · split at h
    · cases h
    · exact keepsLocks_creditWalletInTx h
  · simp only [Option.some.injEq] at h
    subst h
    exact .refl b

end Bank

end FarmBackend.Wallets
