import FarmBackend.MerchantPay
import FarmBackend.MoneyRequests
import FarmBackend.PayoutCalls
import FarmBackend.Payouts
import FarmBackend.ReservedLocks
import FarmBackend.SendFunds

/-!
# Debits of one payer that overlap

QR payments, accepted payment requests and the locks of withdrawals, any number of each at once, at READ
COMMITTED. Every read is a step, and what a transaction writes is one. A QR payment compares its debit
with a row it read before its transaction, an accepted request with a row it read without a lock; a
withdrawal checks and locks in one `UPDATE`.
-/

namespace FarmBackend.OverlappingDebits
open Decimal Fees Wallets Interleaving MerchantPay
open MoneyRequests (MoneyRequest RequestDb paymentRequests)
open Withdrawals (WithdrawDb DailyLimits)
open WithdrawCalls (NewWithdrawal)
open SendFunds (affords)

set_option autoImplicit false

inductive WalletType where
  | user
  | merchant
  | platform
  | treasury
  | operations
  | creator
  deriving DecidableEq, Repr

structure Holder where
  userId : Option UserId
  walletType : Option WalletType

/-- The holders of the active wallets, and what the two `findFirst` find among them. -/
structure Directory where
  holder : WalletId → Option Holder
  userWallet : UserId → Option WalletId
  platformWallet : Option WalletId
  userWallet_holder : ∀ {userId id}, userWallet userId = some id →
    holder id = some ⟨some userId, some .user⟩
  platformWallet_holder : ∀ {id}, platformWallet = some id →
    ∃ h, holder id = some h ∧ (h.walletType = some .platform ∨ h.userId = none)

theorem Directory.userWallet_ne (d : Directory) {userId other : UserId} {id otherId : WalletId}
    (hUser : userId ≠ other) (h : d.userWallet userId = some id)
    (hOther : d.userWallet other = some otherId) : id ≠ otherId := by
  rintro rfl
  have hSame := (d.userWallet_holder h).symm.trans (d.userWallet_holder hOther)
  simp only [Option.some.injEq, Holder.mk.injEq, and_true] at hSame
  exact hUser hSame

theorem Directory.platformWallet_ne (d : Directory) {userId : UserId} {id : WalletId}
    (h : d.userWallet userId = some id) : d.platformWallet ≠ some id := by
  intro hPlatform
  obtain ⟨holder, hHolder, hKind⟩ := d.platformWallet_holder hPlatform
  rw [d.userWallet_holder h, Option.some.injEq] at hHolder
  subst hHolder
  rcases hKind with hKind | hKind <;> cases hKind

/-- `entries` are the ledger entries of the QR payments; the others are in the bank. -/
structure Store where
  withdrawDb : WithdrawDb
  requests : ℕ → Option MoneyRequest
  sales : List (Sale ℤ)
  entries : List (Entry ℤ)

structure Outcome where
  now : Time
  rules : FeeRules
  verified : Bool
  merchant : Option Merchant
  limits : DailyLimits

def Outcome.pay (o : Outcome) : MerchantPay.Outcome := ⟨o.verified, o.merchant, o.rules⟩

def Outcome.request (o : Outcome) : MoneyRequests.Outcome := ⟨o.now, o.rules, o.verified, 0⟩

namespace Store

def bank (s : Store) : Bank := s.withdrawDb.bank

def setBank (s : Store) (bank : Bank) : Store :=
  { s with withdrawDb := { s.withdrawDb with bank := bank } }

/-- What a QR payment sees. -/
def qr (s : Store) (d : Directory) : Db Wallet ℤ where
  wallets := s.bank.wallets
  userWallet := d.userWallet
  superadminWallet := s.bank.platform
  platformWallet := d.platformWallet
  sales := s.sales
  ledger := s.entries

def setQr (s : Store) (db : Db Wallet ℤ) : Store :=
  { s.setBank { s.bank with wallets := db.wallets } with sales := db.sales, entries := db.ledger }

/-- What the acceptance of one request sees. -/
def requestDb (s : Store) (requestId : ℕ) : Option RequestDb :=
  (s.requests requestId).map fun request => ⟨s.bank, requestId, request⟩

def setRequestDb (s : Store) (requestId : ℕ) (db : RequestDb) : Store :=
  { s.setBank db.bank with requests := Function.update s.requests requestId (some db.request) }

end Store

inductive Request where
  | merchantPay (amount : ℚ)
  | acceptAndTransfer (requestId : ℕ)
  | createWithdrawal (new : NewWithdrawal)

/-- A running call, named after its next step. -/
inductive Call where
  | merchantPay (amount : ℚ)
  | customerWallet (amount : ℚ) (userId : UserId) (merchant : Merchant)
  | merchantWallet (amount : ℚ) (userId : UserId) (merchant : Merchant)
      (customerWalletId : WalletId) (row : Wallet)
  | payTx (p : Payment)
  | accept (requestId : ℕ) (call : MoneyRequests.Call)
  | lockFundsInTx (new : NewWithdrawal)
  | done

def enter (payer : UserId) : Request → Call
  | .merchantPay amount => .merchantPay amount
  | .acceptAndTransfer requestId => .accept requestId (.acceptAndTransfer payer)
  | .createWithdrawal new => .lockFundsInTx new

def step (d : Directory) (payer : UserId) (o : Outcome) (s : Store) : Call → Option (Store × Call)
  | .merchantPay amount => do
    let (userId, merchant) ← Db.authorize o.pay payer amount
    return (s, .customerWallet amount userId merchant)
  | .customerWallet amount userId merchant => do
    let customerWalletId ← d.userWallet payer
    let row ← s.bank.wallets customerWalletId
    return (s, .merchantWallet amount userId merchant customerWalletId row)
  | .merchantWallet amount userId merchant customerWalletId row => do
    let merchantWalletId ← d.userWallet userId
    let p ← Db.prepare decimal o.pay customerWalletId merchantWalletId row merchant amount
    return (s, .payTx p)
  | .payTx p => do
    let db ← (s.qr d).payTx decimal p
    return (s.setQr db, .done)
  | .accept requestId call => do
    let db ← s.requestDb requestId
    let (db, call) ← MoneyRequests.step paymentRequests o.request db call
    return (s.setRequestDb requestId db, .accept requestId call)
  | .lockFundsInTx new => do
    let db ← s.withdrawDb.lockFundsInTx new.walletId new.userId new.amount o.limits o.now
    return ({ s with withdrawDb := { db with rows := db.rows ++ [Payouts.newRow o.now new] } }, .done)
  | .done => none

/-- The calls of one payer. -/
def program (d : Directory) (payer : UserId) : Program Store Call Request Outcome :=
  ⟨enter payer, step d payer⟩

/-! ### The claim and its condition -/

/-- The wallet has what it has locked. -/
def Covers (wallet : WalletId) (wallets : WalletId → Option Wallet) : Prop :=
  ∀ w, wallets wallet = some w → w.lockedBalance ≤ w.balance

/-- The DTO of a request takes positive amounts only. -/
def Asked (requests : ℕ → Option MoneyRequest) : Prop :=
  ∀ requestId request, requests requestId = some request → 0 ≤ request.amount

/-- A commit finds the money that its check saw. -/
def covered (s : Store) : Call → Bool
  | .payTx p => affords p.totalOut (s.bank.wallets p.customerWalletId)
  | .accept _ (.acceptCommit payerWalletId _ amount fee) =>
    affords (toNumber amount + fee) (s.bank.wallets payerWalletId)
  | _ => true

abbrev Covered : Guard Store Call Outcome := fun _ s call => covered s call = true

/-! ### The payer's wallet -/

/-- `f` was run on the row `id`. -/
def Updated (id : WalletId) (f : Wallet → Wallet) (wallets wallets' : WalletId → Option Wallet) :
    Prop :=
  ∃ w, wallets id = some w ∧ wallets' = Function.update wallets id (some (f w))

section Wallet
variable {wallet id : WalletId} {wallets wallets' : WalletId → Option Wallet} {x : ℚ}

theorem Covers.update {f : Wallet → Wallet} (hCovers : Covers wallet wallets)
    (hf : id = wallet → ∀ w, wallets id = some w → (f w).lockedBalance ≤ (f w).balance)
    (h : Updated id f wallets wallets') : Covers wallet wallets' := by
  obtain ⟨w, hWallet, rfl⟩ := h
  intro w' hw'
  by_cases hId : wallet = id
  · subst hId
    rw [Function.update_self, Option.some.injEq] at hw'
    subst hw'
    exact hf rfl w hWallet
  · rw [Function.update_of_ne hId] at hw'
    exact hCovers w' hw'

theorem Covers.decrement (hCovers : Covers wallet wallets) (hFunds : affords x (wallets id) = true)
    (h : Updated id (Wallet.decrementBalance x) wallets wallets') : Covers wallet wallets' := by
  refine hCovers.update ?_ h
  intro _ w hWallet
  exact SendFunds.covers_decrementBalance (SendFunds.le_available_of_affords hFunds hWallet)

/-- Only a credit of a negative amount would take from the wallet. -/
theorem Covers.increment (hCovers : Covers wallet wallets) (hSign : id = wallet → 0 ≤ x)
    (h : Updated id (Wallet.incrementBalance x) wallets wallets') : Covers wallet wallets' := by
  refine hCovers.update ?_ h
  rintro rfl w hWallet
  have hOld : 0 ≤ w.available := sub_nonneg.mpr (value_le_value.mpr (hCovers w hWallet))
  have hAmount := hSign rfl
  exact SendFunds.covers_incrementBalance (by linarith)

theorem updated_of_walletsUpdate {f : Wallet → Wallet} {db db' : Db Wallet ℤ}
    (h : db.walletsUpdate id f = some db') :
    Updated id f db.wallets db'.wallets ∧ db'.platformWallet = db.platformWallet := by
  obtain ⟨w, hWallet, rfl⟩ := Db.walletsUpdate_eq_some.mp h
  exact ⟨⟨w, hWallet, rfl⟩, rfl⟩

theorem covers_creditSurcharge {db db' : Db Wallet ℤ} (hCovers : Covers wallet db.wallets)
    (hPlatform : db.platformWallet ≠ some wallet)
    (h : db.creditSurcharge decimal x = some db') : Covers wallet db'.wallets := by
  unfold Db.creditSurcharge at h
  split at h
  · cases h
    exact hCovers
  · rename_i walletId hSome
    refine hCovers.increment ?_ (updated_of_walletsUpdate h).1
    rintro rfl
    exact absurd hSome hPlatform

theorem covers_payTx {db db' : Db Wallet ℤ} {p : Payment} (hCovers : Covers wallet db.wallets)
    (hFunds : affords p.totalOut (db.wallets p.customerWalletId) = true)
    (hMerchant : p.merchantWalletId ≠ wallet) (hPlatform : db.platformWallet ≠ some wallet)
    (hSale : 0 ≤ p.saleFee) (h : db.payTx decimal p = some db') : Covers wallet db'.wallets := by
  simp only [Db.payTx, Option.bind_eq_bind, Option.bind_eq_some_iff, Option.pure_def,
    Option.some.injEq] at h
  obtain ⟨db₁, hDebit, db₂, hCredit, superadmin, -, db₃, hFee, db₄, hSurcharge, rfl⟩ := h
  obtain ⟨hUpdate₁, hSame₁⟩ := updated_of_walletsUpdate hDebit
  obtain ⟨hUpdate₂, hSame₂⟩ := updated_of_walletsUpdate hCredit
  obtain ⟨hUpdate₃, hSame₃⟩ := updated_of_walletsUpdate hFee
  have hDebited : Covers wallet db₁.wallets := Covers.decrement hCovers hFunds hUpdate₁
  have hCredited := hDebited.increment (fun hId => absurd hId hMerchant) hUpdate₂
  have hFeePaid := hCredited.increment (fun _ => hSale) hUpdate₃
  have hSame : db₃.platformWallet = db.platformWallet := hSame₃.trans (hSame₂.trans hSame₁)
  have hAll := covers_creditSurcharge hFeePaid (hSame ▸ hPlatform) hSurcharge
  exact hAll

theorem covers_acceptTx {requestId : ℕ} {payerWalletId requesterWalletId : WalletId} {amount : ℤ}
    {fee : ℚ} {now : Time} {bank bank' : Bank} (hCovers : Covers wallet bank.wallets)
    (hFunds : affords (toNumber amount + fee) (bank.wallets payerWalletId) = true)
    (hAmount : 0 ≤ amount)
    (h : MoneyRequests.acceptTx requestId payerWalletId requesterWalletId amount fee now bank =
      some bank') : Covers wallet bank'.wallets := by
  simp only [MoneyRequests.acceptTx, Option.bind_eq_bind, Option.bind_eq_some_iff, Option.pure_def,
    Option.some.injEq] at h
  obtain ⟨bank₁, hDebit, bank₂, hCredit, rfl⟩ := h
  have hUpdate₁ := Bank.wallets_walletsUpdate hDebit
  have hUpdate₂ := Bank.wallets_walletsUpdate hCredit
  have hDebited : Covers wallet bank₁.wallets := Covers.decrement hCovers hFunds hUpdate₁
  exact hDebited.increment (fun _ => value_nonneg.mpr hAmount) hUpdate₂

/-- The check of the `UPDATE` is on the row that it changes. -/
theorem covers_lockFundsInTx {db db' : WithdrawDb} {userId : UserId} {limits : DailyLimits}
    {now : Time} (hCovers : Covers wallet db.bank.wallets)
    (h : db.lockFundsInTx id userId x limits now = some db') : Covers wallet db'.bank.wallets := by
  simp only [WithdrawDb.lockFundsInTx, Option.bind_eq_bind, Option.bind_eq_some_iff, Option.pure_def,
    Option.ite_none_right_eq_some, Option.some.injEq] at h
  obtain ⟨w, hWallet, ⟨-, hFunds, -, -⟩, bank, hLock, rfl⟩ := h
  refine hCovers.update ?_ (Bank.wallets_walletsUpdate hLock)
  intro _ w' hw'
  rw [hWallet, Option.some.injEq] at hw'
  exact hw' ▸ ReservedFunds.bounded_incrementLocked hFunds

end Wallet

/-! ### Runs -/

/-- What a call has worked out so far. -/
def Knows (d : Directory) (payer : UserId) : Call → Prop
  | .customerWallet _ userId _ => userId ≠ payer
  | .merchantWallet _ userId _ _ _ => userId ≠ payer
  | .payTx p => 0 ≤ p.saleFee ∧ ∃ userId ≠ payer, d.userWallet userId = some p.merchantWalletId
  | .accept _ (.acceptAndTransfer _) => True
  | .accept _ (.acceptWallets request) => 0 ≤ request.amount
  | .accept _ (.acceptCommit _ _ amount _) => 0 ≤ amount
  | .accept _ .done => True
  | .accept _ _ => False
  | _ => True

structure Kept (wallet : WalletId) (s : Store) : Prop where
  covers : Covers wallet s.bank.wallets
  asked : Asked s.requests

section Runs
variable {d : Directory} {payer : UserId} {wallet : WalletId} {o : Outcome} {s s' : Store}

theorem Asked.update {requests : ℕ → Option MoneyRequest} {requestId : ℕ} {request : MoneyRequest}
    (h : Asked requests) (hAmount : 0 ≤ request.amount) :
    Asked (Function.update requests requestId (some request)) := by
  intro other row hRow
  by_cases hId : other = requestId
  · subst hId
    rw [Function.update_self, Option.some.injEq] at hRow
    exact hRow ▸ hAmount
  · rw [Function.update_of_ne hId] at hRow
    exact h other row hRow

theorem kept_of_accept {requestId : ℕ} {call : MoneyRequests.Call} {db db' : RequestDb}
    {call' : MoneyRequests.Call} (hKept : Kept wallet s)
    (hKnows : Knows d payer (.accept requestId call)) (hOk : covered s (.accept requestId call) = true)
    (hDb : s.requestDb requestId = some db)
    (hStep : MoneyRequests.step paymentRequests o.request db call = some (db', call')) :
    Kept wallet (s.setRequestDb requestId db') ∧ Knows d payer (.accept requestId call') := by
  obtain ⟨request, hRequest, rfl⟩ := Option.map_eq_some_iff.mp hDb
  have hAmount := hKept.asked requestId request hRequest
  cases call with
  | acceptAndTransfer payerUserId =>
    simp only [MoneyRequests.step, Option.ite_none_right_eq_some, Option.some.injEq,
      Prod.mk.injEq] at hStep
    obtain ⟨-, rfl, rfl⟩ := hStep
    exact ⟨⟨hKept.covers, hKept.asked.update hAmount⟩, hAmount⟩
  | acceptWallets read =>
    simp only [MoneyRequests.step, Option.bind_eq_bind, Option.bind_eq_some_iff, Option.pure_def,
      Option.ite_none_right_eq_some, Option.some.injEq, Prod.mk.injEq] at hStep
    obtain ⟨payerWalletId, -, requesterWalletId, -, payerWallet, -, -, rfl, rfl⟩ := hStep
    exact ⟨⟨hKept.covers, hKept.asked.update hAmount⟩, hKnows⟩
  | acceptCommit payerWalletId requesterWalletId amount fee =>
    simp only [MoneyRequests.step, Option.bind_eq_bind, Option.bind_eq_some_iff, Option.pure_def,
      Option.some.injEq, Prod.mk.injEq] at hStep
    obtain ⟨bank', hTx, rfl, rfl⟩ := hStep
    exact ⟨⟨covers_acceptTx hKept.covers hOk hKnows hTx, hKept.asked.update hAmount⟩, trivial⟩
  | done => cases hStep
  | rejectRequest | cancelRequest | getPendingRequests | processExpiredRequests | update =>
    exact hKnows.elim

theorem kept_of_step (hWallet : d.userWallet payer = some wallet) {call call' : Call}
    (hKept : Kept wallet s) (hKnows : Knows d payer call) (hOk : Covered o s call)
    (hStep : step d payer o s call = some (s', call')) : Kept wallet s' ∧ Knows d payer call' := by
  cases call with
  | merchantPay amount =>
    simp only [step, Db.authorize, Option.bind_eq_bind, Option.bind_eq_some_iff, Option.pure_def,
      Option.ite_none_right_eq_some, Option.some.injEq, Prod.mk.injEq] at hStep
    obtain ⟨_, ⟨merchant, -, userId, -, ⟨-, -, -, hOther⟩, rfl⟩, rfl, rfl⟩ := hStep
    exact ⟨hKept, hOther⟩
  | customerWallet amount userId merchant =>
    simp only [step, Option.bind_eq_bind, Option.bind_eq_some_iff, Option.pure_def,
      Option.some.injEq, Prod.mk.injEq] at hStep
    obtain ⟨customerWalletId, -, row, -, rfl, rfl⟩ := hStep
    exact ⟨hKept, hKnows⟩
  | merchantWallet amount userId merchant customerWalletId row =>
    simp only [step, Db.prepare, Option.bind_eq_bind, Option.bind_eq_some_iff, Option.pure_def,
      Option.ite_none_left_eq_some, Option.some.injEq, Prod.mk.injEq] at hStep
    obtain ⟨merchantWalletId, hMerchant, p, ⟨-, rfl⟩, rfl, rfl⟩ := hStep
    exact ⟨hKept, computeFee_nonneg _ _ _, userId, hKnows, hMerchant⟩
  | payTx p =>
    simp only [step, Option.bind_eq_bind, Option.bind_eq_some_iff, Option.pure_def,
      Option.some.injEq, Prod.mk.injEq] at hStep
    obtain ⟨db, hTx, rfl, rfl⟩ := hStep
    obtain ⟨hSale, userId, hOther, hMerchant⟩ := hKnows
    have hCovers : Covers wallet (s.qr d).wallets := hKept.covers
    have hPaid := covers_payTx hCovers hOk (d.userWallet_ne hOther hMerchant hWallet)
      (d.platformWallet_ne hWallet) hSale hTx
    exact ⟨⟨hPaid, hKept.asked⟩, trivial⟩
  | accept requestId call =>
    simp only [step, Option.bind_eq_bind, Option.bind_eq_some_iff, Option.pure_def,
      Option.some.injEq, Prod.mk.injEq] at hStep
    obtain ⟨db, hDb, ⟨db', next⟩, hAccept, rfl, rfl⟩ := hStep
    exact kept_of_accept hKept hKnows hOk hDb hAccept
  | lockFundsInTx new =>
    simp only [step, Option.bind_eq_bind, Option.bind_eq_some_iff, Option.pure_def,
      Option.some.injEq, Prod.mk.injEq] at hStep
    obtain ⟨db, hLock, rfl, rfl⟩ := hStep
    have hLocked := covers_lockFundsInTx hKept.covers hLock
    exact ⟨⟨hLocked, hKept.asked⟩, trivial⟩
  | done => cases hStep

/-- As long as every debit still finds the money that its check saw, the payer's wallet never falls below
what it has locked. -/
theorem payer_covers_locked {start : Store} {c : Config Store Call}
    (hWallet : d.userWallet payer = some wallet)
    (hStart : ∀ w, start.bank.wallets wallet = some w →
      0 ≤ w.lockedBalance ∧ w.lockedBalance ≤ w.balance)
    (hAsked : Asked start.requests)
    (h : (program d payer).Reaches Covered (Program.idle start) c) :
    Covers wallet c.store.bank.wallets := by
  have hKept : Kept wallet start := ⟨fun w hw => (hStart w hw).2, hAsked⟩
  refine (h.assertions (Kept wallet) (fun _ => Knows d payer) ⟨hKept, ?_⟩ ?_ ?_ ?_).1.covers
  · intro call hMem
    cases hMem
  · intro request _ _
    cases request <;> exact trivial
  · intro outcome store store' call call' hKept hKnows hOk hStep
    exact kept_of_step hWallet hKept hKnows hOk hStep
  · intro outcome store store' call call' other _ _ hOther _ _
    exact hOther

end Runs

/-- The customer 7 has wallet 1, the merchant's owner 8 has wallet 2. -/
def twoUsers : Directory where
  holder
    | 1 => some ⟨some 7, some .user⟩
    | 2 => some ⟨some 8, some .user⟩
    | _ => none
  userWallet
    | 7 => some 1
    | 8 => some 2
    | _ => none
  platformWallet := none
  userWallet_holder := by
    intro userId id h
    split at h
    · cases h
      rfl
    · cases h
      rfl
    · cases h
  platformWallet_holder h := by cases h

/-- 100 FARM, and a request of the other user for 60 of them. -/
def funded : Store where
  withdrawDb :=
    { bank :=
        { wallets := fun
            | 1 => some ⟨toUnits 100, 0, false⟩
            | 2 | 3 => some ⟨0, 0, false⟩
            | _ => none
          platform := some 3
          transactions := []
          ledger := [] }
      activeWallet := twoUsers.userWallet
      userNames := fun _ => ⟨none, none⟩
      rows := [] }
  requests
    | 5 => some ⟨some 8, some 2, some 7, some 1, toUnits 60, .pending, none, none⟩
    | _ => none
  sales := []
  entries := []

def withdrawal (amount : ℚ) : NewWithdrawal where
  walletId := 1
  userId := 7
  amount := amount
  fee := 0
  settlement := amount
  method := .mobileMoney
  accountName := none
  accountNumber := none
  bankName := none
  phoneNumber := some "0712345678"
  metadata := PayoutCalls.paystackMetadata ⟨none, none⟩

def runs (index n : ℕ) : List (Move Request Outcome) :=
  List.replicate n (.run index ⟨0, FEE_DEFAULTS, true, some ⟨some 8, true, 0⟩, ⟨0, 0⟩⟩)

def below (wallets : WalletId → Option Wallet) : Bool :=
  (wallets 1).any fun w => decide (w.balance < w.lockedBalance)

theorem not_covers_of_below {wallets : WalletId → Option Wallet} (h : below wallets = true) :
    ¬Covers 1 wallets := by
  intro hCovers
  obtain ⟨w, hWallet, hBelow⟩ := (Option.any_eq_true _ _).mp h
  exact absurd (hCovers w hWallet) (not_le.mpr (of_decide_eq_true hBelow))

/-- A QR payment of 60, an accepted request for 60: between the check and the debit of each, a withdrawal
locks 70 of the 100. -/
theorem payer_below_locked :
    (∃ c, (program twoUsers 7).Reaches anyStep (Program.idle funded) c ∧
      ¬Covers 1 c.store.bank.wallets) ∧
    (∃ c, (program twoUsers 7).Reaches anyStep (Program.idle funded) c ∧
      c.store.sales = [] ∧ ¬Covers 1 c.store.bank.wallets) := by
  have hPay : ((program twoUsers 7).schedule (.enter (.merchantPay 60) :: runs 0 3 ++
      .enter (.createWithdrawal (withdrawal 70)) :: runs 1 1 ++ runs 0 1) (Program.idle funded)).any
      (fun c => below c.store.bank.wallets) = true := by decide +kernel
  have hAccept : ((program twoUsers 7).schedule (.enter (.acceptAndTransfer 5) :: runs 0 2 ++
      .enter (.createWithdrawal (withdrawal 70)) :: runs 1 1 ++ runs 0 1) (Program.idle funded)).any
      (fun c => decide (c.store.sales = []) && below c.store.bank.wallets) = true := by
    decide +kernel
  obtain ⟨c₁, hReach₁, hEnd₁⟩ := Program.reaches_of_any hPay
  obtain ⟨c₂, hReach₂, hEnd₂⟩ := Program.reaches_of_any hAccept
  rw [Bool.and_eq_true] at hEnd₂
  exact ⟨⟨c₁, hReach₁, not_covers_of_below hEnd₁⟩,
    ⟨c₂, hReach₂, of_decide_eq_true hEnd₂.1, not_covers_of_below hEnd₂.2⟩⟩

/-- One after the other: 60 are paid by QR, and the other 40 are locked. -/
theorem payer_covers_locked_in_turn :
    ∃ c, (program twoUsers 7).Reaches Covered (Program.idle funded) c ∧
      c.store.bank.wallets 1 = some ⟨toUnits 40, toUnits 40, false⟩ ∧
      Covers 1 c.store.bank.wallets := by
  have hRun : (((program twoUsers 7).guarded Covered).schedule (.enter (.merchantPay 60) :: runs 0 4 ++
      .enter (.createWithdrawal (withdrawal 40)) :: runs 1 1) (Program.idle funded)).any
      (fun c => decide (c.store.bank.wallets 1 = some ⟨toUnits 40, toUnits 40, false⟩)) = true := by
    decide +kernel
  obtain ⟨c, hReach, hEnd⟩ := Program.reaches_of_guarded_any hRun
  refine ⟨c, hReach, of_decide_eq_true hEnd, payer_covers_locked rfl ?_ ?_ hReach⟩
  · intro w hw
    cases hw
    decide +kernel
  · intro requestId request hRequest
    simp only [funded] at hRequest
    split at hRequest
    · cases hRequest
      decide +kernel
    · cases hRequest

end FarmBackend.OverlappingDebits
