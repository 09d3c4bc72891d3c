import FarmBackend.EscrowRuns
import FarmBackend.OverlappingDebits

/-!
# Holds of travel payments beside the locks of other features

`holdAndCreate`, the locks of withdrawals and the creation of escrows, any number of each at once, at
READ COMMITTED. The hold reads the wallet without a lock and compares what is not locked; its guarded
`UPDATE` compares the whole balance. The other two check the row that they have locked.
-/

namespace FarmBackend.TravelHolds
open Decimal Fees Wallets Interleaving
open Escrow (EscrowDb EscrowContract CreateDto)
open OverlappingDebits (Covers Updated)
open SendFunds (affords)
open Withdrawals (WithdrawDb DailyLimits)
open WithdrawCalls (NewWithdrawal)

set_option autoImplicit false

/-- What `holdAndCreate` is called with. -/
structure Payment where
  userId : UserId
  key : String
  total : ℚ
  fee : ℚ

/-- A row of `travel_bookings`, which is unique for its user and key. -/
structure TravelBooking where
  userId : UserId
  idempotencyKey : String
  serviceFeeFarm : ℤ
  totalFarm : ℤ
  transactionId : ℕ
  deriving DecidableEq

structure Store where
  withdrawDb : WithdrawDb
  findUser : String → Option UserId
  escrows : List EscrowContract
  bookings : List TravelBooking

structure Outcome where
  now : Time
  rules : FeeRules
  verified : Bool
  limits : DailyLimits

inductive Request where
  | holdAndCreate (p : Payment)
  | createWithdrawal (new : NewWithdrawal)
  | createEscrow (buyerId : UserId) (dto : CreateDto)

/-- A running call, named after its next step. -/
inductive Call where
  | holdAndCreate (p : Payment)
  | holdTx (p : Payment) (walletId : WalletId)
  | findExisting (p : Payment)
  | lockFundsInTx (new : NewWithdrawal)
  | escrow (call : Escrow.Call)
  | done

namespace Store

def bank (s : Store) : Bank := s.withdrawDb.bank

def setBank (bank : Bank) (s : Store) : Store :=
  { s with withdrawDb := { s.withdrawDb with bank := bank } }

def escrowDb (s : Store) : EscrowDb := ⟨s.bank, s.findUser, s.withdrawDb.activeWallet, s.escrows⟩

def setEscrowDb (db : EscrowDb) (s : Store) : Store :=
  { s.setBank db.bank with escrows := db.escrows }

def findBooking (userId : UserId) (key : String) (s : Store) : Option TravelBooking :=
  s.bookings.find? fun b => b.userId == userId && b.idempotencyKey == key

/-- The writes of the hold: the debit, its transaction with a ledger entry, and the booking. -/
def writeHold (p : Payment) (walletId : WalletId) (now : Time) (bank : Bank) (s : Store) : Store :=
  let transactionId := bank.transactions.length
  let bank := bank.transactionsCreate
    { senderWalletId := some walletId
      receiverWalletId := none
      transactionType := .escrowLock
      status := .processing
      amount := toUnits p.total
      fee := toUnits p.fee
      netAmount := toUnits (p.total - p.fee)
      createdAt := now }
  let bank := bank.ledgerCreate ⟨some transactionId, walletId, .debit, toUnits p.total⟩
  { s.setBank bank with
    bookings := s.bookings ++ [⟨p.userId, p.key, toUnits p.fee, toUnits p.total, transactionId⟩] }

end Store

def enter : Request → Call
  | .holdAndCreate p => .holdAndCreate p
  | .createWithdrawal new => .lockFundsInTx new
  | .createEscrow buyerId dto => .escrow (.create buyerId dto)

def step (o : Outcome) (s : Store) : Call → Option (Store × Call)
  | .holdAndCreate p => do
    let walletId ← s.withdrawDb.activeWallet p.userId
    let w ← s.bank.wallets walletId
    if w.isFrozen = false ∧ p.total ≤ w.available then return (s, .holdTx p walletId) else none
  | .holdTx p walletId => do
    let w ← s.bank.wallets walletId
    if p.total ≤ toNumber w.balance then
      -- The unique index on user and key takes the whole transaction back.
      if (s.findBooking p.userId p.key).isSome then return (s, .findExisting p)
      let bank ← s.bank.walletsUpdate walletId (Wallet.decrementBalance p.total)
      return (s.writeHold p walletId o.now bank, .done)
    else none
  | .findExisting p => if (s.findBooking p.userId p.key).isSome then some (s, .done) else none
  | .lockFundsInTx new => do
    let db ← s.withdrawDb.lockFundsInTx new.walletId new.userId new.amount o.limits o.now
    return ({ s with withdrawDb := { db with rows := db.rows ++ [Payouts.newRow o.now new] } }, .done)
  | .escrow call => do
    let (db, call) ← Escrow.step ⟨o.now, o.rules, o.verified, false⟩ s.escrowDb call
    return (s.setEscrowDb db, .escrow call)
  | .done => none

def program : Program Store Call Request Outcome := ⟨enter, step⟩

/-! ### The claim and its condition -/

/-- One idempotency key of one user has at most one hold. -/
def Keyed (bookings : List TravelBooking) : Prop :=
  (bookings.map fun b => (b.userId, b.idempotencyKey)).Nodup

/-- The debit of a hold finds the money that its check saw. -/
def covered (s : Store) : Call → Bool
  | .holdTx p walletId => affords p.total (s.bank.wallets walletId)
  | _ => true

abbrev Covered : Guard Store Call Outcome := fun _ s call => covered s call = true

/-! ### What the steps keep -/

/-- The calls of escrows that `create` runs through. -/
def Creates : Call → Prop
  | .escrow (.create _ _) | .escrow (.createSeller _ _ _ _) | .escrow (.createDuplicate _ _ _ _ _ _)
  | .escrow (.createFee _ _ _ _ _ _) | .escrow (.createTx _ _ _ _ _ _ _) | .escrow .done => True
  | .escrow _ => False
  | _ => True

section Steps
variable {o : Outcome} {s s' : Store} {call call' : Call} {wallet : WalletId}

theorem covers_creditSuperadmin {amount : ℚ} {bank bank' : Bank}
    (hCovers : Covers wallet bank.wallets)
    (h : EscrowDb.creditSuperadminWalletInTx amount bank = some bank') :
    Covers wallet bank'.wallets := by
  simp only [EscrowDb.creditSuperadminWalletInTx, Bank.creditPlatformInTx] at h
  split at h
  · rename_i hPos
    split at h
    · cases h
    · simp only [Bank.creditWalletInTx, if_pos hPos, Option.bind_eq_bind, Option.bind_eq_some_iff,
        Option.pure_def, Option.some.injEq] at h
      obtain ⟨bank₁, hUpdate, rfl⟩ := h
      have hPaid : Covers wallet bank₁.wallets :=
        hCovers.increment (fun _ => hPos.le) (Bank.wallets_walletsUpdate hUpdate)
      exact hPaid
  · rw [Option.some.injEq] at h
    exact h ▸ hCovers

/-- `SELECT … FOR UPDATE`: the check is on the row that is written. -/
theorem covers_createTx {db db' : EscrowDb} {buyerId sellerId : UserId} {dto : CreateDto}
    {buyerWalletId sellerWalletId : WalletId} {fee : ℚ} {autoReleaseAt now : Time}
    (hCovers : Covers wallet db.bank.wallets)
    (h : db.createTx buyerId dto buyerWalletId sellerId sellerWalletId fee autoReleaseAt now =
      some db') : Covers wallet db'.bank.wallets := by
  simp only [EscrowDb.createTx, Option.bind_eq_bind, Option.bind_eq_some_iff] at h
  obtain ⟨w, hWallet, h⟩ := h
  split at h
  · cases h
  · rename_i hFunds
    simp only [Option.bind_eq_some_iff, Option.pure_def, Option.some.injEq] at h
    obtain ⟨bank₁, hBuyer, bank₂, hFee, rfl⟩ := h
    have hLocked : Covers wallet bank₁.wallets := by
      refine hCovers.update ?_ (Bank.wallets_walletsUpdate hBuyer)
      intro _ w' hw'
      rw [hWallet, Option.some.injEq] at hw'
      subst hw'
      exact ReservedFunds.bounded_updateBuyer (not_lt.mp hFunds)
    have hPaid : Covers wallet bank₂.wallets := by
      refine covers_creditSuperadmin ?_ hFee
      exact hLocked
    exact hPaid

theorem covers_escrow {o : Escrow.Outcome} {db db' : EscrowDb} {call call' : Escrow.Call}
    (hCovers : Covers wallet db.bank.wallets) (hCreates : Creates (.escrow call))
    (h : Escrow.step o db call = some (db', call')) :
    Covers wallet db'.bank.wallets ∧ Creates (.escrow call') := by
  cases call with
  | create buyerId dto =>
    simp only [Escrow.step, Option.bind_eq_bind, Option.bind_eq_some_iff, Option.pure_def,
      Option.ite_none_right_eq_some, Option.some.injEq, Prod.mk.injEq] at h
    obtain ⟨_, -, _, -, -, rfl, rfl⟩ := h
    exact ⟨hCovers, trivial⟩
  | createSeller buyerId dto buyerWalletId w =>
    simp only [Escrow.step, Option.bind_eq_bind, Option.bind_eq_some_iff, Option.pure_def,
      Option.ite_none_right_eq_some, Option.some.injEq, Prod.mk.injEq] at h
    obtain ⟨_, -, _, -, -, rfl, rfl⟩ := h
    exact ⟨hCovers, trivial⟩
  | createDuplicate buyerId dto buyerWalletId w sellerId sellerWalletId =>
    simp only [Escrow.step, Option.ite_none_right_eq_some, Option.some.injEq, Prod.mk.injEq] at h
    obtain ⟨-, rfl, rfl⟩ := h
    exact ⟨hCovers, trivial⟩
  | createFee buyerId dto buyerWalletId w sellerId sellerWalletId =>
    simp only [Escrow.step, Option.ite_none_right_eq_some, Option.some.injEq, Prod.mk.injEq] at h
    obtain ⟨-, rfl, rfl⟩ := h
    exact ⟨hCovers, trivial⟩
  | createTx buyerId dto buyerWalletId sellerId sellerWalletId fee autoReleaseAt =>
    obtain ⟨hTx, rfl⟩ := Escrow.committed_eq_some.mp h
    exact ⟨covers_createTx hCovers hTx, trivial⟩
  | done => cases h
  | _ => exact hCreates.elim

theorem find_eq_none_iff {p : Payment} : s.findBooking p.userId p.key = none ↔
    (p.userId, p.key) ∉ s.bookings.map fun b => (b.userId, b.idempotencyKey) := by
  simp only [Store.findBooking, List.find?_eq_none, Bool.and_eq_true, beq_iff_eq, List.mem_map,
    Prod.mk.injEq, not_exists, not_and]

/-! What a step can do. -/

inductive Took (o : Outcome) (s : Store) : Call → Store → Call → Prop where
  | aside {call call' : Call} (hCreates : Creates call') : Took o s call s call'
  | held {p : Payment} {walletId : WalletId} {bank : Bank}
      (hFree : s.findBooking p.userId p.key = none)
      (hDebit : s.bank.walletsUpdate walletId (Wallet.decrementBalance p.total) = some bank) :
      Took o s (.holdTx p walletId) (s.writeHold p walletId o.now bank) .done
  | locked {new : NewWithdrawal} {db : WithdrawDb} (hLock : s.withdrawDb.lockFundsInTx new.walletId
      new.userId new.amount o.limits o.now = some db) :
      Took o s (.lockFundsInTx new)
        { s with withdrawDb := { db with rows := db.rows ++ [Payouts.newRow o.now new] } } .done
  | escrow {call call' : Escrow.Call} {db : EscrowDb}
      (hStep : Escrow.step ⟨o.now, o.rules, o.verified, false⟩ s.escrowDb call = some (db, call')) :
      Took o s (.escrow call) (s.setEscrowDb db) (.escrow call')

theorem took_of_step (h : step o s call = some (s', call')) : Took o s call s' call' := by
  cases call with
  | holdAndCreate p =>
    simp only [step, Option.bind_eq_bind, Option.bind_eq_some_iff, Option.pure_def,
      Option.ite_none_right_eq_some, Option.some.injEq, Prod.mk.injEq] at h
    obtain ⟨_, -, _, -, -, rfl, rfl⟩ := h
    exact .aside trivial
  | holdTx p walletId =>
    simp only [step, Option.bind_eq_bind, Option.bind_eq_some_iff,
      Option.ite_none_right_eq_some] at h
    obtain ⟨_, -, -, h⟩ := h
    split at h
    · cases h
      exact .aside trivial
    · rename_i hFree
      simp only [Option.bind_eq_some_iff, Option.pure_def, Option.some.injEq, Prod.mk.injEq] at h
      obtain ⟨bank, hDebit, rfl, rfl⟩ := h
      exact .held (Option.not_isSome_iff_eq_none.mp hFree) hDebit
  | findExisting p =>
    simp only [step, Option.ite_none_right_eq_some, Option.some.injEq, Prod.mk.injEq] at h
    obtain ⟨-, rfl, rfl⟩ := h
    exact .aside trivial
  | lockFundsInTx new =>
    simp only [step, Option.bind_eq_bind, Option.bind_eq_some_iff, Option.pure_def,
      Option.some.injEq, Prod.mk.injEq] at h
    obtain ⟨db, hLock, rfl, rfl⟩ := h
    exact .locked hLock
  | escrow call =>
    simp only [step, Option.bind_eq_bind, Option.bind_eq_some_iff, Option.pure_def,
      Option.some.injEq, Prod.mk.injEq] at h
    obtain ⟨⟨db, next⟩, hStep, rfl, rfl⟩ := h
    exact .escrow hStep
  | done => cases h

theorem keyed_of_took (hKeyed : Keyed s.bookings) (h : Took o s call s' call') :
    Keyed s'.bookings := by
  cases h with
  | @held p _ _ hFree _ =>
    simp only [Store.writeHold, Keyed, List.map_append, List.map_cons, List.map_nil]
    refine List.nodup_append.mpr ⟨hKeyed, List.nodup_singleton _, ?_⟩
    intro key hKey other hOther
    rw [List.mem_singleton.mp hOther]
    rintro rfl
    exact find_eq_none_iff.mp hFree hKey
  | _ => exact hKeyed

theorem covers_of_took (hCovers : Covers wallet s.bank.wallets) (hCreates : Creates call)
    (hOk : Covered o s call) (h : Took o s call s' call') :
    Covers wallet s'.bank.wallets ∧ Creates call' := by
  cases h with
  | aside hNext => exact ⟨hCovers, hNext⟩
  | held _ hDebit =>
    have hPaid := Covers.decrement hCovers hOk (Bank.wallets_walletsUpdate hDebit)
    exact ⟨hPaid, trivial⟩
  | locked hLock =>
    have hLocked := OverlappingDebits.covers_lockFundsInTx hCovers hLock
    exact ⟨hLocked, trivial⟩
  | escrow hStep =>
    have hOld : Covers wallet s.escrowDb.bank.wallets := hCovers
    exact covers_escrow hOld hCreates hStep

end Steps

/-! ### Runs -/

section Runs
variable {start : Store} {c : Config Store Call} {wallet : WalletId}

/-- The unique index alone sees to this, whatever the interleaving. -/
theorem keyed_reaches {ok : Guard Store Call Outcome} (hStart : Keyed start.bookings)
    (h : program.Reaches ok (Program.idle start) c) : Keyed c.store.bookings := by
  refine (h.assertions (fun s => Keyed s.bookings) (fun _ _ => True) ⟨hStart, by simp⟩ ?_ ?_ ?_).1
  · intro request store _
    exact trivial
  · intro outcome store store' call call' hKeyed _ _ hStep
    exact ⟨keyed_of_took hKeyed (took_of_step hStep), trivial⟩
  · intro outcome store store' call call' other _ _ _ _ _
    exact trivial

end Runs

/-- User 7 has 100 FARM in wallet 1; the seller 8 has wallet 2. -/
def hundred : Store where
  withdrawDb := OverlappingDebits.funded.withdrawDb
  findUser name := if name = "seller" then some 8 else none
  escrows := []
  bookings := []

def flight (key : String) (total : ℚ) : Payment := ⟨7, key, total, 0⟩

def runs (index n : ℕ) : List (Move Request Outcome) :=
  List.replicate n (.run index ⟨0, FEE_DEFAULTS, true, ⟨0, 0⟩⟩)

theorem hundred_covered (w : Wallet) (h : hundred.bank.wallets 1 = some w) :
    0 ≤ w.lockedBalance ∧ w.lockedBalance ≤ w.balance := by
  cases h
  decide +kernel

end FarmBackend.TravelHolds
