import Mathlib.Algebra.BigOperators.Group.Finset.Piecewise
import FarmBackend.Fees
import FarmBackend.Wallets

/-!
# Paying a merchant by its QR code (`QrService.merchantPay`)

The customer pays the amount with the surcharge that the merchant has set; the merchant gets the amount
less the sale fee. The wallets are columns of any kind, so that the same function runs on the database's
decimals and in exact arithmetic. Websocket events, caches and notifications come after the commit and
are left out, and so are the `qr_payments` row, the merchant's `total_sales` and the texts.
-/

namespace FarmBackend.MerchantPay
open Decimal Fees Wallets

set_option autoImplicit false

/-- The rows of wallets, and how a column holds a number. -/
structure Columns (Row Units : Type) where
  /-- `Number(balance) - Number(locked_balance)`. -/
  available : Row → ℚ
  /-- `{ balance: { increment: x } }`. -/
  increment : ℚ → Row → Row
  /-- `{ balance: { decrement: x } }`. -/
  decrement : ℚ → Row → Row
  write : ℚ → Units

/-- `Decimal(30, 8)`. -/
def decimal : Columns Wallet ℤ :=
  ⟨Wallet.available, Wallet.incrementBalance, Wallet.decrementBalance, toUnits⟩

structure ExactWallet where
  balance : ℚ
  lockedBalance : ℚ
  deriving DecidableEq

def exact : Columns ExactWallet ℚ where
  available w := w.balance - w.lockedBalance
  increment x w := { w with balance := w.balance + x }
  decrement x w := { w with balance := w.balance - x }
  write := id

structure Entry (Units : Type) where
  walletId : WalletId
  entryType : EntryType
  amount : Units
  deriving DecidableEq

/-- The `transactions` row of a payment. -/
structure Sale (Units : Type) where
  senderWalletId : WalletId
  receiverWalletId : WalletId
  amount : Units
  fee : Units
  netAmount : Units
  deriving DecidableEq

/-- What `validate` finds for the QR code. -/
structure Merchant where
  userId : Option UserId
  approved : Bool
  transactionFeePercent : ℚ

/-- `userWallet` is the active wallet of type `user` of a user, `superadminWallet` the one of the super
admin, and `platformWallet` the active wallet of type `platform` or of nobody. -/
structure Db (Row Units : Type) where
  wallets : WalletId → Option Row
  userWallet : UserId → Option WalletId
  superadminWallet : Option WalletId
  platformWallet : Option WalletId
  sales : List (Sale Units)
  ledger : List (Entry Units)

/-- `authorized` is the answer of the PIN or of the device, `merchant` what `validate` finds. -/
structure Outcome where
  authorized : Bool
  merchant : Option Merchant
  rules : FeeRules

/-- What `merchantPay` has worked out when its transaction starts. -/
structure Payment where
  customerWalletId : WalletId
  merchantWalletId : WalletId
  amount : ℚ
  customerFee : ℚ
  saleFee : ℚ

namespace Payment

def merchantNet (p : Payment) : ℚ := p.amount - p.saleFee

def totalOut (p : Payment) : ℚ := p.amount + p.customerFee

end Payment

section Service
variable {Row Units : Type} (col : Columns Row Units)

namespace Db

/-- `wallets.update({ where: { id } })`, which throws when the row is missing. -/
def walletsUpdate (id : WalletId) (f : Row → Row) (db : Db Row Units) :
    Option (Db Row Units) :=
  match db.wallets id with
  | none => none
  | some w => some { db with wallets := Function.update db.wallets id (some (f w)) }

def salesCreate (sale : Sale Units) (db : Db Row Units) : Db Row Units :=
  { db with sales := db.sales ++ [sale] }

def ledgerCreate (entries : List (Entry Units)) (db : Db Row Units) : Db Row Units :=
  { db with ledger := db.ledger ++ entries }

/-- The checks before the wallets are read. -/
def authorize (o : Outcome) (customerId : UserId) (amount : ℚ) : Option (UserId × Merchant) := do
  let merchant ← o.merchant
  let userId ← merchant.userId
  if 0 < amount ∧ o.authorized = true ∧ merchant.approved = true ∧ userId ≠ customerId then
    some (userId, merchant)
  else none

/-- The fees, and whether the wallet that was read can pay. -/
def prepare (o : Outcome) (customerWalletId merchantWalletId : WalletId) (row : Row)
    (merchant : Merchant) (amount : ℚ) : Option Payment :=
  let p : Payment :=
    { customerWalletId := customerWalletId
      merchantWalletId := merchantWalletId
      amount := amount
      customerFee := amount * (merchant.transactionFeePercent / 100)
      saleFee := feeFor o.rules .merchant amount 8 }
  if col.available row < p.totalOut then none else some p

/-- The surcharge, when there is a platform wallet. -/
def creditSurcharge (customerFee : ℚ) (db : Db Row Units) : Option (Db Row Units) :=
  match db.platformWallet with
  | none => some db
  | some walletId => db.walletsUpdate walletId (col.increment customerFee)

def payTx (p : Payment) (db : Db Row Units) : Option (Db Row Units) := do
  let db := db.salesCreate
    { senderWalletId := p.customerWalletId
      receiverWalletId := p.merchantWalletId
      amount := col.write p.amount
      fee := col.write p.saleFee
      netAmount := col.write p.merchantNet }
  let db ← db.walletsUpdate p.customerWalletId (col.decrement p.totalOut)
  let db ← db.walletsUpdate p.merchantWalletId (col.increment p.merchantNet)
  let superadminWalletId ← db.superadminWallet
  let db ← db.walletsUpdate superadminWalletId (col.increment p.saleFee)
  let db ← db.creditSurcharge col p.customerFee
  let surcharge := db.platformWallet.toList.map fun walletId =>
    ({ walletId := walletId, entryType := .credit, amount := col.write p.customerFee } : Entry Units)
  return db.ledgerCreate (
    [{ walletId := p.customerWalletId, entryType := .debit, amount := col.write p.totalOut },
      { walletId := p.merchantWalletId, entryType := .credit, amount := col.write p.merchantNet },
      { walletId := superadminWalletId, entryType := .credit, amount := col.write p.saleFee }] ++
    surcharge)

/-- A whole call, with nobody else on the wallets. -/
def merchantPay (o : Outcome) (customerId : UserId) (amount : ℚ) (db : Db Row Units) :
    Option (Db Row Units) := do
  let (userId, merchant) ← authorize o customerId amount
  let customerWalletId ← db.userWallet customerId
  let merchantWalletId ← db.userWallet userId
  let row ← db.wallets customerWalletId
  let p ← prepare col o customerWalletId merchantWalletId row merchant amount
  db.payTx col p

theorem walletsUpdate_eq_some {id : WalletId} {f : Row → Row} {db db' : Db Row Units} :
    db.walletsUpdate id f = some db' ↔
      ∃ w, db.wallets id = some w ∧
        db' = { db with wallets := Function.update db.wallets id (some (f w)) } := by
  unfold walletsUpdate
  cases db.wallets id with
  | none => simp
  | some w => simp [eq_comm]

end Db

end Service

/-! ### What a payment books in exact arithmetic -/

def Db.total (ids : Finset WalletId) (db : Db ExactWallet ℚ) : ℚ :=
  ∑ id ∈ ids, ((db.wallets id).map (·.balance)).getD 0

/-- Every wallet is one of `ids`. -/
def Db.Within (ids : Finset WalletId) (db : Db ExactWallet ℚ) : Prop :=
  ∀ id w, db.wallets id = some w → id ∈ ids

def signed (e : Entry ℚ) : ℚ :=
  match e.entryType with
  | .credit => e.amount
  | .debit => -e.amount

/-- Credits less debits. -/
def Db.net (db : Db ExactWallet ℚ) : ℚ := (db.ledger.map signed).sum

/-- The wallets hold together what they held, and the entries written cancel out. -/
def Conserves (ids : Finset WalletId) (db db' : Db ExactWallet ℚ) : Prop :=
  db'.total ids = db.total ids ∧ db'.net = db.net

instance (ids : Finset WalletId) (db db' : Db ExactWallet ℚ) : Decidable (Conserves ids db db') :=
  inferInstanceAs (Decidable (_ ∧ _))

/-- `added` more in the wallets, with everything else as it was. -/
structure Adds (ids : Finset WalletId) (added : ℚ) (db db' : Db ExactWallet ℚ) : Prop where
  total : db'.total ids = db.total ids + added
  ledger : db'.ledger = db.ledger
  platform : db'.platformWallet = db.platformWallet

section Exact
variable {ids : Finset WalletId} {db db' db'' : Db ExactWallet ℚ} {id : WalletId} {x y : ℚ}

@[simp] theorem total_salesCreate (sale : Sale ℚ) : (db.salesCreate sale).total ids = db.total ids :=
  rfl

theorem within_salesCreate (sale : Sale ℚ) (hIds : db.Within ids) : (db.salesCreate sale).Within ids :=
  hIds

theorem Adds.trans (h : Adds ids x db db') (h' : Adds ids y db' db'') :
    Adds ids (x + y) db db'' := by
  refine ⟨?_, h'.ledger.trans h.ledger, h'.platform.trans h.platform⟩
  rw [h'.total, h.total, add_assoc]

theorem adds_walletsUpdate {f : ExactWallet → ExactWallet} (hId : id ∈ ids)
    (hf : ∀ w, (f w).balance = w.balance + x) (h : db.walletsUpdate id f = some db') :
    Adds ids x db db' := by
  obtain ⟨w, hWallet, rfl⟩ := Db.walletsUpdate_eq_some.mp h
  refine ⟨?_, rfl, rfl⟩
  have hEach : ∀ other, ((Function.update db.wallets id (some (f w)) other).map (·.balance)).getD 0 =
      ((db.wallets other).map (·.balance)).getD 0 + if other = id then x else 0 := by
    intro other
    by_cases hOther : other = id
    · subst hOther
      simp [hWallet, hf w]
    · simp [hOther]
  unfold Db.total
  rw [Finset.sum_congr rfl fun other _ => hEach other, Finset.sum_add_distrib, Finset.sum_ite_eq',
    if_pos hId]

theorem adds_increment (hId : id ∈ ids)
    (h : db.walletsUpdate id (exact.increment x) = some db') : Adds ids x db db' :=
  adds_walletsUpdate hId (fun _ => rfl) h

theorem adds_decrement (hId : id ∈ ids)
    (h : db.walletsUpdate id (exact.decrement x) = some db') : Adds ids (-x) db db' :=
  adds_walletsUpdate hId (fun w => sub_eq_add_neg w.balance x) h

theorem mem_of_walletsUpdate {f : ExactWallet → ExactWallet}
    (hIds : db.Within ids) (h : db.walletsUpdate id f = some db') :
    id ∈ ids ∧ db'.Within ids := by
  obtain ⟨w, hWallet, rfl⟩ := Db.walletsUpdate_eq_some.mp h
  refine ⟨hIds id w hWallet, ?_⟩
  intro other w' hOther
  by_cases hId : other = id
  · exact hId ▸ hIds id w hWallet
  · exact hIds other w' ((Function.update_of_ne hId _ _).symm.trans hOther)

/-- The surcharge that no wallet is credited with. -/
def lost (platformWallet : Option WalletId) (customerFee : ℚ) : ℚ :=
  if platformWallet.isSome then 0 else customerFee

theorem adds_creditSurcharge (hIds : db.Within ids)
    (h : db.creditSurcharge exact x = some db') :
    Adds ids (x - lost db.platformWallet x) db db' := by
  unfold Db.creditSurcharge at h
  unfold lost
  split at h
  · rename_i hNone
    cases h
    rw [hNone, Option.isSome_none, if_neg Bool.false_ne_true, sub_self]
    exact ⟨(add_zero _).symm, rfl, rfl⟩
  · rename_i walletId hSome
    rw [hSome, Option.isSome_some, if_pos rfl, sub_zero]
    exact adds_increment (mem_of_walletsUpdate hIds h).1 h

/-- A payment loses its surcharge where there is no platform wallet, and nothing else. -/
theorem payTx_books {p : Payment} (hIds : db.Within ids)
    (h : db.payTx exact p = some db') :
    db'.total ids = db.total ids - lost db.platformWallet p.customerFee ∧
      db'.net = db.net - lost db.platformWallet p.customerFee := by
  simp only [Db.payTx, Option.bind_eq_bind, Option.bind_eq_some_iff, Option.pure_def,
    Option.some.injEq] at h
  obtain ⟨db₁, hDebit, db₂, hCredit, superadmin, hSuperadmin, db₃, hFee, db₄, hSurcharge, rfl⟩ := h
  obtain ⟨hCustomer, hIds₁⟩ := mem_of_walletsUpdate (within_salesCreate _ hIds) hDebit
  obtain ⟨hMerchant, hIds₂⟩ := mem_of_walletsUpdate hIds₁ hCredit
  obtain ⟨hAdmin, hIds₃⟩ := mem_of_walletsUpdate hIds₂ hFee
  have hPaid := (adds_decrement hCustomer hDebit).trans (adds_increment hMerchant hCredit)
  have hFees := hPaid.trans (adds_increment hAdmin hFee)
  have hAll := hFees.trans (adds_creditSurcharge hIds₃ hSurcharge)
  have hPlatform : db₃.platformWallet = db.platformWallet := hFees.platform
  have hSum : -p.totalOut + p.merchantNet + p.saleFee + (p.customerFee -
      lost db₃.platformWallet p.customerFee) = -lost db.platformWallet p.customerFee := by
    rw [hPlatform, Payment.totalOut, Payment.merchantNet]
    ring
  constructor
  · change db₄.total ids = _
    rw [hAll.total, hSum, total_salesCreate, sub_eq_add_neg]
  · have hLedger : db₄.ledger = db.ledger := hAll.ledger
    have hWallet : db₄.platformWallet = db.platformWallet := hAll.platform
    simp only [Db.net, Db.ledgerCreate, hLedger, hWallet, List.map_append, List.sum_append]
    cases db.platformWallet with
    | none =>
      simp [signed, exact, lost, Payment.totalOut, Payment.merchantNet]
      ring
    | some walletId =>
      simp [signed, exact, lost, Payment.totalOut, Payment.merchantNet]

end Exact

/-- In exact arithmetic a successful payment conserves the balances and the ledger exactly when there is
a platform wallet or no surcharge. -/
theorem merchantPay_conserves_iff {o : Outcome} {customerId : UserId} {amount : ℚ} {db db' : Db ExactWallet ℚ}
    {ids : Finset WalletId} {merchant : Merchant} (hMerchant : o.merchant = some merchant)
    (hIds : db.Within ids)
    (h : db.merchantPay exact o customerId amount = some db') :
    Conserves ids db db' ↔ db.platformWallet.isSome ∨ merchant.transactionFeePercent = 0 := by
  simp only [Db.merchantPay, Db.authorize, Db.prepare, hMerchant, Option.bind_eq_bind,
    Option.bind_some, Option.bind_eq_some_iff, Option.ite_none_right_eq_some,
    Option.ite_none_left_eq_some, Option.some.injEq] at h
  obtain ⟨_, ⟨_, _, ⟨hAmount, -⟩, rfl⟩, _, _, _, _, _, _, p, ⟨-, rfl⟩, hTx⟩ := h
  obtain ⟨hTotal, hNet⟩ := payTx_books hIds hTx
  have hLost : Conserves ids db db' ↔
      lost db.platformWallet (amount * (merchant.transactionFeePercent / 100)) = 0 := by
    rw [Conserves, hTotal, hNet, sub_eq_self, sub_eq_self, and_self]
  rw [hLost, lost]
  split
  · rename_i hSome
    simp [hSome]
  · rename_i hNone
    simp [hNone, hAmount.ne']

/-- The customer 7 with 500 FARM in wallet 1, the merchant's owner 8 with wallet 2, the super admin's wallet
3 and the platform's wallet 4. -/
def opening (platformWallet : Option WalletId) : Db ExactWallet ℚ where
  wallets
    | 1 => some ⟨500, 0⟩
    | 2 => some ⟨20, 0⟩
    | 3 => some ⟨100, 0⟩
    | 4 => some ⟨0, 0⟩
    | _ => none
  userWallet
    | 7 => some 1
    | 8 => some 2
    | _ => none
  superadminWallet := some 3
  platformWallet := platformWallet
  sales := []
  ledger := []

/-- A merchant that asks for two percent more. -/
def surcharged : Merchant := ⟨some 8, true, 2⟩

def scanned : Outcome := ⟨true, some surcharged, FEE_DEFAULTS⟩

theorem opening_within (platformWallet : Option WalletId) :
    (opening platformWallet).Within {1, 2, 3, 4} := by
  intro id w h
  unfold opening at h
  match id with
  | 1 | 2 | 3 | 4 => decide
  | 0 | _ + 5 => cases h

theorem merchantPay_conserves_platform :
    ∃ db' ∈ (opening (some 4)).merchantPay exact scanned 7 100,
      Conserves {1, 2, 3, 4} (opening (some 4)) db' := by
  obtain ⟨db', hPaid⟩ : ∃ db', (opening (some 4)).merchantPay exact scanned 7 100 = some db' :=
    Option.isSome_iff_exists.1 (by decide +kernel)
  exact ⟨db', hPaid, (merchantPay_conserves_iff rfl (opening_within _) hPaid).2 (Or.inl rfl)⟩

/-- Without a platform wallet the surcharge of 2 FARM leaves the customer and arrives nowhere. -/
theorem merchantPay_loses_surcharge :
    ∃ db' ∈ (opening none).merchantPay exact scanned 7 100,
      ¬Conserves {1, 2, 3, 4} (opening none) db' := by
  decide +kernel

end FarmBackend.MerchantPay
