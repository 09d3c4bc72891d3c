import FarmBackend.Conservation
import FarmBackend.LegWorth
import Mathlib.Algebra.BigOperators.Group.Finset.Piecewise

/-!
# What a completed ledger transaction books, and what its legs give

Each producer changes what a user has available and writes one row. The legs rebuilt from the row
come within 0.02 FARM of the change, on the inputs for which the row says what was booked.
-/

namespace FarmBackend.ChainLegs
open Decimal Fees Wallets
open Escrow (EscrowDb EscrowContract CreateDto)

set_option autoImplicit false

/-- A booking of `delta` units on what some wallets have available, with the rows it writes. -/
structure Shifts (ids : Finset WalletId) (delta : ℤ) (rows : List Transaction)
    (bank bank' : Bank) : Prop where
  available_eq : available ids bank' = available ids bank + delta
  platform_eq : bank'.platform = bank.platform
  transactions_eq : bank'.transactions = bank.transactions ++ rows

section Shifts
variable {ids : Finset WalletId} {bank bank' bank'' : Bank}

theorem Shifts.trans {d₁ d₂ : ℤ} {rows₁ rows₂ : List Transaction}
    (h₁ : Shifts ids d₁ rows₁ bank bank') (h₂ : Shifts ids d₂ rows₂ bank' bank'') :
    Shifts ids (d₁ + d₂) (rows₁ ++ rows₂) bank bank'' := by
  refine ⟨?_, h₂.platform_eq.trans h₁.platform_eq, ?_⟩
  · rw [h₂.available_eq, h₁.available_eq, add_assoc]
  · rw [h₂.transactions_eq, h₁.transactions_eq, List.append_assoc]

theorem shifts_refl : Shifts ids 0 [] bank bank :=
  ⟨(add_zero _).symm, rfl, (List.append_nil _).symm⟩

theorem shifts_transactionsCreate (row : Transaction) :
    Shifts ids 0 [row] bank (bank.transactionsCreate row) := ⟨(add_zero _).symm, rfl, rfl⟩

theorem shifts_ledgerCreate (entry : LedgerEntry) : Shifts ids 0 [] bank (bank.ledgerCreate entry) :=
  ⟨(add_zero _).symm, rfl, (List.append_nil _).symm⟩

/-- One row changes, and with it what the user has available if the wallet is the user's. -/
theorem shifts_walletsUpdate {id : WalletId} {f : Wallet → Wallet}
    (h : bank.walletsUpdate id f = some bank') :
    ∃ w, bank.wallets id = some w ∧
      Shifts ids (if id ∈ ids then
        ((f w).balance - (f w).lockedBalance) - (w.balance - w.lockedBalance) else 0) [] bank bank' := by
  obtain ⟨w, hw, hBalance⟩ := Bank.balanceOf_walletsUpdate h
  obtain ⟨w', hw', hLocked⟩ := Bank.lockedOf_walletsUpdate h
  obtain rfl : w = w' := Option.some.inj (hw.symm.trans hw')
  obtain ⟨hPlatform, hTransactions, -⟩ := Bank.rest_walletsUpdate h
  refine ⟨w, hw, ?_, hPlatform, by rw [hTransactions, List.append_nil]⟩
  have hEach : ∀ other, bank'.balanceOf other - bank'.lockedOf other =
      (bank.balanceOf other - bank.lockedOf other) + if other = id then
        ((f w).balance - (f w).lockedBalance) - (w.balance - w.lockedBalance) else 0 := by
    intro other
    rw [hBalance, hLocked]
    by_cases hId : other = id
    · subst hId
      rw [if_pos rfl, if_pos rfl, if_pos rfl, Bank.balanceOf_eq hw, Bank.lockedOf_eq hw]
      ring
    · rw [if_neg hId, if_neg hId, if_neg hId, add_zero]
  unfold available
  rw [Finset.sum_congr rfl (fun other _ => hEach other), Finset.sum_add_distrib,
    Finset.sum_ite_eq']

/-- A fee that is credited to a wallet of somebody else changes nothing for the user. -/
theorem shifts_creditPlatformInTx {amount : ℚ} {transactionId : Option ℕ}
    (h : bank.creditPlatformInTx amount transactionId = some bank')
    (hPlatform : ∀ id, bank.platform = some id → id ∈ ids → amount ≤ 0) :
    Shifts ids 0 [] bank bank' := by
  unfold Bank.creditPlatformInTx at h
  split at h
  · rename_i hAmount
    split at h
    · cases h
    · rename_i walletId hWallet
      simp only [Bank.creditWalletInTx, if_pos hAmount, Option.bind_eq_bind,
        Option.bind_eq_some_iff, Option.pure_def, Option.some.injEq] at h
      obtain ⟨bank₁, hUpdate, rfl⟩ := h
      obtain ⟨w, -, hShifts⟩ := @shifts_walletsUpdate ids _ _ _ _ hUpdate
      have hOther : walletId ∉ ids := by
        intro hMem
        exact absurd (hPlatform walletId hWallet hMem) (not_le.mpr hAmount)
      rw [if_neg hOther] at hShifts
      exact hShifts.trans (shifts_ledgerCreate _)
  · rw [Option.some.injEq] at h
    exact h ▸ shifts_refl

end Shifts

/-! Rounding, in units. -/

theorem assetUnits_toNumber (n : ℤ) : assetUnits (toNumber n) = n / 1000000 := by
  have hScaled : toNumber n * 10 ^ FARM_DECIMALS = (n : ℚ) / (1000000 : ℕ) := by
    unfold toNumber value FARM_DECIMALS
    push_cast
    ring
  rw [assetUnits, hScaled, Rat.floor_intCast_div_natCast]
  rfl

theorem legNet_eq (t : Transaction) :
    legNet t = (if 0 < t.netAmount then t.netAmount else t.amount) / 1000000 := by
  unfold legNet
  rw [← assetUnits_toNumber]
  simp only [value_pos]
  split <;> rfl

theorem legFee_eq (t : Transaction) : legFee t = t.fee / 1000000 := assetUnits_toNumber _

/-- A whole number of units may be added before or after rounding; the difference is at most one
unit. -/
theorem abs_roundHalfAway_add (n : ℤ) (x : ℚ) :
    |roundHalfAway (n + x) - (n + roundHalfAway x)| ≤ 1 := by
  have hSum := abs_le.mp (abs_roundHalfAway_sub (n + x))
  have hOne := abs_le.mp (abs_roundHalfAway_sub x)
  rw [abs_le]
  constructor
  · have hLow : (-1 : ℚ) ≤ ((roundHalfAway (n + x) - (n + roundHalfAway x) : ℤ) : ℚ) := by
      push_cast
      linarith
    exact_mod_cast hLow
  · have hHigh : ((roundHalfAway (n + x) - (n + roundHalfAway x) : ℤ) : ℚ) ≤ 1 := by
      push_cast
      linarith
    exact_mod_cast hHigh

/-- What a commit does for a user: it leaves everything as it was, or it writes one row whose legs
come within 0.02 FARM of the change. -/
inductive Booked (reg : Registry) (userId : UserId) (bank bank' : Bank) : Prop where
  | nothing (hShifts : Shifts (reg.walletsOf userId) 0 [] bank bank')
  | row (t : Transaction) (delta : ℤ)
      (hShifts : Shifts (reg.walletsOf userId) delta [t] bank bank')
      (hStatus : t.status = .completed)
      (hNear : |1000000 * reg.mirrored userId t - delta| < 2000000)

@[simp] theorem owns_none {reg : Registry} {userId : UserId} : reg.owns userId none = false := rfl

@[simp] theorem owns_some {reg : Registry} {userId : UserId} {id : WalletId} :
    reg.owns userId (some id) = true ↔ id ∈ reg.walletsOf userId := decide_eq_true_iff

/-! What a row tells, in units of its columns, and what its legs make of it. -/

def gross (t : Transaction) : ℤ := if 0 < t.netAmount then t.netAmount else t.amount

/-- The gross amount comes in where the receiver's wallet is the user's, and leaves with the fee where
the sender's is. -/
def Registry.told (reg : Registry) (userId : UserId) (t : Transaction) : ℤ :=
  (if reg.owns userId t.receiverWalletId = true then gross t else 0) -
    if reg.pays userId t = true then gross t + t.fee else 0

/-- What a commit does for a user: it leaves everything as it was, or it writes one row that tells the
change, up to the rounding of a column. -/
inductive Books (reg : Registry) (userId : UserId) (bank bank' : Bank) : Prop where
  | nothing (hShifts : Shifts (reg.walletsOf userId) 0 [] bank bank')
  | row (t : Transaction) (delta : ℤ)
      (hShifts : Shifts (reg.walletsOf userId) delta [t] bank bank')
      (hStatus : t.status = .completed) (hGross : 0 ≤ gross t) (hFee : 0 ≤ t.fee)
      (hTold : |reg.told userId t - delta| ≤ 1)

section Told
variable {reg : Registry} {userId : UserId} {t : Transaction} {delta : ℤ}

theorem mirrored_eq :
    reg.mirrored userId t =
      (if reg.owns userId t.receiverWalletId = true then max 0 (gross t / 1000000) else 0) -
      (if reg.pays userId t = true then max 0 (gross t / 1000000) else 0) +
      -(if reg.pays userId t = true then max 0 (t.fee / 1000000) else 0) := by
  simp only [Registry.mirrored, Registry.worth, legNet_eq, legFee_eq, gross]

/-- Each leg is rounded down. -/
theorem mirrored_near (hGross : 0 ≤ gross t) (hFee : 0 ≤ t.fee)
    (hTold : |reg.told userId t - delta| ≤ 1) :
    |1000000 * reg.mirrored userId t - delta| < 2000000 := by
  rw [abs_le] at hTold
  rw [mirrored_eq, abs_lt]
  unfold Registry.told at hTold
  cases hOwns : reg.owns userId t.receiverWalletId <;> cases hPays : reg.pays userId t <;>
    simp only [hOwns, hPays, Bool.false_eq_true, if_true, if_false] at hTold ⊢ <;> omega

/-- Whole units of the asset are not rounded. -/
theorem mirrored_exact (hGross : 0 ≤ gross t) (hFee : 0 ≤ t.fee)
    (hTold : |reg.told userId t - delta| ≤ 1) (hGrossUnits : 1000000 ∣ gross t)
    (hFeeUnits : 1000000 ∣ t.fee) (hUnits : 1000000 ∣ delta) :
    1000000 * reg.mirrored userId t = delta := by
  rw [abs_le] at hTold
  rw [mirrored_eq]
  unfold Registry.told at hTold
  cases hOwns : reg.owns userId t.receiverWalletId <;> cases hPays : reg.pays userId t <;>
    simp only [hOwns, hPays, Bool.false_eq_true, if_true, if_false] at hTold ⊢ <;> omega

theorem Books.booked {bank bank' : Bank} (h : Books reg userId bank bank') :
    Booked reg userId bank bank' := by
  cases h with
  | nothing hShifts => exact .nothing hShifts
  | row t delta hShifts hStatus hGross hFee hTold =>
    exact .row t delta hShifts hStatus (mirrored_near hGross hFee hTold)

end Told

theorem gross_nonneg {t : Transaction} (h : 0 ≤ t.amount) : 0 ≤ gross t := by
  unfold gross
  split
  · rename_i hNet
    exact hNet.le
  · exact h

theorem told_eq {reg : Registry} {userId : UserId} {t : Transaction}
    (hType : reserveFunded t.transactionType = false) :
    reg.told userId t =
      (if reg.owns userId t.receiverWalletId = true then gross t else 0) -
        if reg.owns userId t.senderWalletId = true then gross t + t.fee else 0 := by
  simp only [Registry.told, Registry.pays, hType, Bool.not_false, Bool.true_and]

theorem told_of_reserveFunded {reg : Registry} {userId : UserId} {t : Transaction}
    (hType : reserveFunded t.transactionType = true) :
    reg.told userId t =
      if reg.owns userId t.receiverWalletId = true then gross t else 0 := by
  simp [Registry.told, Registry.pays, hType]

/-! The rows of the producers. `s` and `r` say whether the user is on the sender's and on the
receiver's side. -/

theorem told_send {a f c e : ℤ} {s r : Prop} [Decidable s] [Decidable r]
    (he : |e| ≤ 1) (hc : c = a ∨ (¬r ∧ (s → c ≤ 0)) ∨ (¬s ∧ (r → 0 < c))) :
    |((if r then if 0 < c then c else a else 0) -
        if s then (if 0 < c then c else a) + f else 0) -
      ((if s then e - a - f else 0) + if r then c else 0)| ≤ 1 := by
  rw [abs_le] at he
  rw [abs_le]
  by_cases hs : s <;> by_cases hr : r <;> by_cases hPos : 0 < c <;>
    simp only [hs, hr, hPos, if_true, if_false, not_true, not_false_iff, false_and, true_and,
      true_implies, false_implies, or_false, or_true] at hc ⊢ <;>
    omega

theorem told_accept {a f : ℤ} {s r : Prop} [Decidable s] [Decidable r]
    (h : (s ↔ r) ∨ f = 0 ∨ a ≤ f) :
    |((if r then if 0 < a - f then a - f else a else 0) -
        if s then (if 0 < a - f then a - f else a) + f else 0) -
      ((if s then -a - f else 0) + if r then a else 0)| ≤ 1 := by
  rw [abs_le]
  by_cases hs : s <;> by_cases hr : r <;> by_cases hPos : 0 < a - f <;>
    simp only [hs, hr, hPos, if_true, if_false, iff_self, iff_false, iff_true, not_true,
      true_or, false_or] at h ⊢ <;>
    omega

section Producers
variable {reg : Registry} {userId : UserId} {bank bank' : Bank} {now : Time}

theorem books_sendFundsTx {sender receiver : WalletId} {amount : ℚ} {fee merchantFee : ℤ}
    (hAmount : 0 < amount) (hFee : 0 ≤ fee)
    (hPlatform : reg.owns userId bank.platform = true → fee = 0 ∧ merchantFee = 0)
    (hCredit : merchantFee = 0 ∨
      (¬reg.owns userId (some receiver) = true ∧ (reg.owns userId (some sender) = true →
        SendFunds.receiverCredit amount (toNumber merchantFee) ≤ 0)) ∨
      (¬reg.owns userId (some sender) = true ∧ (reg.owns userId (some receiver) = true →
        0 < SendFunds.receiverCredit amount (toNumber merchantFee))))
    (h : SendFunds.sendFundsTx sender receiver amount (toNumber fee) (toNumber merchantFee) now bank =
      some bank') : Books reg userId bank bank' := by
  have hUnits := Conservation.receiverCredit_eq amount merchantFee
  rw [hUnits, value_pos, ← not_lt, value_pos, not_lt] at hCredit
  simp only [SendFunds.sendFundsTx, Option.bind_eq_bind, Option.bind_eq_some_iff, hUnits] at h
  obtain ⟨bank₁, hDebit, bank₂, hGiven, bank₃, hMerchant, hLast⟩ := h
  obtain ⟨w, -, hTaken⟩ := @shifts_walletsUpdate (reg.walletsOf userId) _ _ _ _ hDebit
  obtain ⟨v, -, hAdded⟩ := @shifts_walletsUpdate (reg.walletsOf userId) _ _ _ _ hGiven
  have hWallets := (shifts_transactionsCreate _).trans (hTaken.trans hAdded)
  have hOurs : ∀ id, bank.platform = some id → id ∈ reg.walletsOf userId →
      toNumber fee ≤ 0 ∧ toNumber merchantFee ≤ 0 := by
    intro id hId hMem
    obtain ⟨rfl, rfl⟩ := hPlatform (hId ▸ owns_some.mpr hMem)
    exact ⟨(value_zero 8).le, (value_zero 8).le⟩
  have hMerchantPaid := shifts_creditPlatformInTx hMerchant
    (fun id hId hMem => (hOurs id (hWallets.platform_eq ▸ hId) hMem).2)
  have hPaid := hWallets.trans ((shifts_ledgerCreate _).trans
    ((shifts_ledgerCreate _).trans hMerchantPaid))
  have hFeePaid := shifts_creditPlatformInTx hLast
    (fun id hId hMem => (hOurs id (hPaid.platform_eq ▸ hId) hMem).1)
  have hAll := hPaid.trans hFeePaid
  obtain ⟨e, hDebited⟩ : ∃ e, (w.decrementBalance
      (SendFunds.totalOut amount (toNumber fee))).balance =
        w.balance - fee - roundHalfAway (amount * 10 ^ 8) + e := ⟨_, (add_sub_cancel _ _).symm⟩
  have hRounded := abs_roundHalfAway_add (w.balance - fee) (-(amount * 10 ^ 8))
  rw [← sub_eq_add_neg, roundHalfAway_neg, ← sub_eq_add_neg,
    ← Conservation.decrementBalance_totalOut, hDebited, add_sub_cancel_left] at hRounded
  have hSame : merchantFee = 0 → roundHalfAway (amount * 10 ^ 8 - merchantFee) =
      roundHalfAway (amount * 10 ^ 8) := by
    intro hZero
    rw [hZero, Int.cast_zero, sub_zero]
  have hNonneg : 0 ≤ roundHalfAway (amount * 10 ^ 8) := roundHalfAway_nonneg (by positivity)
  have hTake : w.balance - fee - roundHalfAway (amount * 10 ^ 8) + e - w.lockedBalance -
      (w.balance - w.lockedBalance) = e - roundHalfAway (amount * 10 ^ 8) - fee := by ring
  have hGive : v.balance + roundHalfAway (amount * 10 ^ 8 - merchantFee) - v.lockedBalance -
      (v.balance - v.lockedBalance) = roundHalfAway (amount * 10 ^ 8 - merchantFee) := by ring
  refine .row _ _ hAll rfl (gross_nonneg hNonneg) (hFee.trans_eq (toUnits_toNumber fee).symm) ?_
  rw [told_eq rfl]
  simp only [owns_some] at hCredit
  simp only [gross, toUnits_toNumber, owns_some, zero_add, add_zero, Wallet.decrementBalance_locked,
    Wallet.incrementBalance_locked, Wallet.incrementBalance_toNumber, hDebited, hTake, hGive]
  exact told_send hRounded (hCredit.imp_left hSame)

theorem books_acceptTx {payer requester : WalletId} {requestId : ℕ} {amount fee : ℤ}
    (hAmount : 0 < amount) (hFee : 0 ≤ fee)
    (hNet : (reg.owns userId (some payer) = true ↔ reg.owns userId (some requester) = true) ∨
      fee = 0 ∨ amount ≤ fee)
    (h : MoneyRequests.acceptTx requestId payer requester amount (toNumber fee) now bank =
      some bank') : Books reg userId bank bank' := by
  simp only [MoneyRequests.acceptTx, Option.bind_eq_bind, Option.bind_eq_some_iff,
    Option.pure_def, Option.some.injEq, value_add, value_sub] at h
  obtain ⟨bank₁, hDebit, bank₂, hGiven, rfl⟩ := h
  obtain ⟨w, -, hTaken⟩ := @shifts_walletsUpdate (reg.walletsOf userId) _ _ _ _ hDebit
  obtain ⟨v, -, hAdded⟩ := @shifts_walletsUpdate (reg.walletsOf userId) _ _ _ _ hGiven
  have hWallets := (shifts_transactionsCreate _).trans (hTaken.trans hAdded)
  have hAll := hWallets.trans ((shifts_ledgerCreate
    ⟨some bank.transactions.length, payer, .debit, Wallets.toUnits (toNumber (amount + fee))⟩).trans
      (shifts_ledgerCreate ⟨some bank.transactions.length, requester, .credit, amount⟩))
  have hTake : w.balance - (amount + fee) - w.lockedBalance - (w.balance - w.lockedBalance) =
      -amount - fee := by ring
  have hGive : v.balance + amount - v.lockedBalance - (v.balance - v.lockedBalance) = amount := by
    ring
  refine .row _ _ hAll rfl (gross_nonneg hAmount.le) (hFee.trans_eq (toUnits_toNumber fee).symm) ?_
  rw [told_eq rfl]
  simp only [owns_some] at hNet
  simp only [gross, toUnits_toNumber, owns_some, zero_add, add_zero, Wallet.decrementBalance_locked,
    Wallet.decrementBalance_toNumber, Wallet.incrementBalance_locked,
    Wallet.incrementBalance_toNumber, hTake, hGive]
  exact told_accept hNet

/-- What an escrow locks is no longer available, and neither is its fee. -/
theorem books_createTx {buyerId sellerId : UserId} {dto : CreateDto}
    {buyerWalletId sellerWalletId : WalletId} {fee : ℤ} {autoReleaseAt : Time} {db db' : EscrowDb}
    (hAmount : 0 < dto.amount) (hFee : 0 ≤ fee)
    (hPlatform : reg.owns userId db.bank.platform = true → fee = 0)
    (h : db.createTx buyerId dto buyerWalletId sellerId sellerWalletId (toNumber fee) autoReleaseAt
      now = some db') : Books reg userId db.bank db'.bank := by
  simp only [EscrowDb.createTx, Option.bind_eq_bind, Option.bind_eq_some_iff] at h
  obtain ⟨lockedWallet, -, h⟩ := h
  split at h
  · cases h
  simp only [Option.pure_def, Option.bind_eq_some_iff, Option.some.injEq] at h
  obtain ⟨bank₁, hUpdate, bank₂, hPaid, rfl⟩ := h
  obtain ⟨w, -, hHeld⟩ := @shifts_walletsUpdate (reg.walletsOf userId) _ _ _ _ hUpdate
  have hFeePaid := shifts_creditPlatformInTx hPaid (by
    intro id hId hMem
    rw [hPlatform (hHeld.platform_eq ▸ hId ▸ owns_some.mpr hMem)]
    exact (value_zero 8).le)
  have hAll := hHeld.trans ((shifts_transactionsCreate _).trans hFeePaid)
  obtain ⟨e, hLocked⟩ : ∃ e, (w.incrementLocked dto.amount).lockedBalance =
      w.lockedBalance + roundHalfAway (dto.amount * 10 ^ 8) + e := ⟨_, (add_sub_cancel _ _).symm⟩
  have hRounded := abs_roundHalfAway_add w.lockedBalance (dto.amount * 10 ^ 8)
  have hUnits : roundHalfAway (w.lockedBalance + dto.amount * 10 ^ 8) =
      (w.incrementLocked dto.amount).lockedBalance := by
    rw [← value_mul 8 w.lockedBalance, ← add_mul]
    rfl
  rw [hUnits, hLocked, add_sub_cancel_left, ← abs_neg] at hRounded
  have hNonneg : 0 ≤ roundHalfAway (dto.amount * 10 ^ 8) := roundHalfAway_nonneg (by positivity)
  have hTake : w.balance - fee - (w.lockedBalance + roundHalfAway (dto.amount * 10 ^ 8) + e) -
      (w.balance - w.lockedBalance) = -e - roundHalfAway (dto.amount * 10 ^ 8) - fee := by ring
  refine .row _ _ hAll rfl (gross_nonneg hNonneg) (hFee.trans_eq (toUnits_toNumber fee).symm) ?_
  rw [told_eq rfl]
  have hTold := @told_send (roundHalfAway (dto.amount * 10 ^ 8)) fee _ _
    (buyerWalletId ∈ reg.walletsOf userId) False _ _ hRounded (.inl rfl)
  simp only [if_false, zero_sub, add_zero] at hTold
  have hHolds : (Wallet.incrementLocked dto.amount (w.decrementBalance (toNumber fee))).lockedBalance =
      w.lockedBalance + roundHalfAway (dto.amount * 10 ^ 8) + e := hLocked
  simp only [gross, toUnits_toNumber, owns_some, owns_none, Bool.false_eq_true, if_false, zero_sub,
    add_zero, Function.comp_apply, Wallet.incrementLocked_balance,
    Wallet.decrementBalance_toNumber, hHolds, hTake]
  exact hTold

theorem books_payRelease {escrowId : ℕ} {buyerWalletId sellerWalletId : WalletId}
    {amount fee toSeller : ℤ} (hAmount : 0 ≤ amount) (hFee : 0 ≤ fee)
    (hPlatform : reg.owns userId bank.platform = true → fee ≤ 0)
    (hSeller : reg.owns userId (some sellerWalletId) = true → 0 < toSeller)
    (h : EscrowDb.payRelease escrowId buyerWalletId sellerWalletId (toNumber amount) (toNumber fee)
      (toNumber toSeller) now bank = some bank') : Books reg userId bank bank' := by
  simp only [EscrowDb.payRelease, EscrowDb.creditSuperadminWalletInTx, Option.bind_eq_bind,
    Option.bind_eq_some_iff] at h
  obtain ⟨bank₁, hBuyer, bank₂, hGiven, hPaid⟩ := h
  obtain ⟨w, -, hUnlocked⟩ := @shifts_walletsUpdate (reg.walletsOf userId) _ _ _ _ hBuyer
  obtain ⟨v, -, hAdded⟩ := @shifts_walletsUpdate (reg.walletsOf userId) _ _ _ _ hGiven
  have hWallets := hUnlocked.trans hAdded
  have hFeePaid := shifts_creditPlatformInTx hPaid (by
    intro id hId hMem
    rw [← value_zero 8, value_le_value]
    exact hPlatform (hWallets.platform_eq ▸ hId ▸ owns_some.mpr hMem))
  have hAll := hWallets.trans ((shifts_transactionsCreate _).trans ((shifts_ledgerCreate _).trans
    ((shifts_ledgerCreate _).trans hFeePaid)))
  have hTake : w.balance - amount - (w.lockedBalance - amount) - (w.balance - w.lockedBalance) =
      0 := by ring
  have hGive : v.balance + toSeller - v.lockedBalance - (v.balance - v.lockedBalance) = toSeller := by
    ring
  have hHolds : (Wallet.decrementBalance (toNumber amount)
      (w.decrementLocked (toNumber amount))).balance = w.balance - amount :=
    Wallet.decrementBalance_toNumber amount w
  refine .row _ _ hAll rfl (gross_nonneg (hAmount.trans_eq (toUnits_toNumber amount).symm))
    (hFee.trans_eq (toUnits_toNumber fee).symm) ?_
  rw [told_of_reserveFunded rfl]
  simp only [owns_some] at hSeller
  simp only [gross, toUnits_toNumber, owns_some, add_zero, zero_add, ite_self, Function.comp_apply,
    Wallet.decrementBalance_locked, Wallet.decrementLocked_toNumber, hHolds, hTake,
    Wallet.incrementBalance_locked, Wallet.incrementBalance_toNumber, hGive]
  by_cases hOwn : sellerWalletId ∈ reg.walletsOf userId
  · have hPos := hSeller hOwn
    simp [hOwn, hPos]
  · simp [hOwn]

theorem books_executeRefund {escrowId : ℕ} {escrow : EscrowContract} {resolution : Bool}
    {db db' : EscrowDb} (h : db.executeRefund escrowId escrow resolution now = some db') :
    Books reg userId db.bank db'.bank := by
  simp only [EscrowDb.executeRefund, Option.bind_eq_bind, Option.bind_eq_some_iff,
    Escrow.remainingAmount_eq] at h
  obtain ⟨fresh, -, h⟩ := h
  split at h
  · simp only [Option.bind_eq_some_iff, Option.pure_def, Option.some.injEq] at h
    obtain ⟨buyerWalletId, -, bank₁, hUpdate, rfl⟩ := h
    obtain ⟨w, -, hUnlocked⟩ := @shifts_walletsUpdate (reg.walletsOf userId) _ _ _ _ hUpdate
    have hNonneg := le_max_left 0 (fresh.amount - fresh.releasedAmount)
    have hGive : w.balance - (w.lockedBalance - max 0 (fresh.amount - fresh.releasedAmount)) -
        (w.balance - w.lockedBalance) = max 0 (fresh.amount - fresh.releasedAmount) := by ring
    refine .row _ _ (hUnlocked.trans (shifts_transactionsCreate _)) rfl
      (gross_nonneg (hNonneg.trans_eq (toUnits_toNumber _).symm)) le_rfl ?_
    rw [told_eq rfl]
    simp only [gross, toUnits_toNumber, owns_some, owns_none, Bool.false_eq_true, if_false, sub_zero,
      add_zero, ite_self, Wallet.decrementLocked_balance, Wallet.decrementLocked_toNumber,
      hGive]
    simp
  · cases h

end Producers

/-- A release leaves something for the seller, if that is the user, and no fee goes to a wallet of
the user. -/
def paysOut (reg : Registry) (userId : UserId) (rules : FeeRules) (bank : Bank)
    (sellerWalletId : Option WalletId) (amount : ℚ) : Bool :=
  let fee := feeFor rules .escrowRelease amount 2
  decide (amount ≤ 0) ||
    (!reg.owns userId sellerWalletId || decide (fee < amount)) &&
      (!reg.owns userId bank.platform || decide (fee = 0))

/-- The row of a commit tells what it books for a user: no merchant fee is taken out of what the
user pays, no transfer fee out of what a request brings, something is left of a release for the
seller, and no fee is credited to the user as the platform. -/
def LedgerOp.tells (reg : Registry) (userId : UserId) (rules : FeeRules) (db : EscrowDb) :
    LedgerOp → Bool
  | .sendFunds senderWalletId receiverWalletId amount isMerchant =>
    let fee := SendFunds.transferFee rules amount
    let merchantFee := SendFunds.merchantFeeOf rules isMerchant amount
    let credit := SendFunds.receiverCredit amount merchantFee
    let payer := reg.owns userId (some senderWalletId)
    let payee := reg.owns userId (some receiverWalletId)
    (decide (merchantFee = 0) || !payee && (!payer || decide (credit ≤ 0)) ||
      !payer && (!payee || decide (0 < credit))) &&
      (!reg.owns userId db.bank.platform || decide (fee = 0 ∧ merchantFee = 0))
  | .acceptAndTransfer _ payerWalletId requesterWalletId amount =>
    let fee := MoneyRequests.transferFee rules amount
    reg.owns userId (some payerWalletId) == reg.owns userId (some requesterWalletId) ||
      decide (fee = 0) || decide (toNumber amount ≤ fee)
  | .create _ dto _ _ _ =>
    !reg.owns userId db.bank.platform || decide (Escrow.creationFee rules dto.amount = 0)
  | .releasePartial _ escrow _ amount =>
    paysOut reg userId rules db.bank escrow.sellerWalletId (toFixed 2 amount)
  | .executeRelease escrowId escrow _ =>
    match db.escrows[escrowId]? with
    | none => true
    | some fresh => paysOut reg userId rules db.bank escrow.sellerWalletId
        (Escrow.remainingAmount fresh.amount fresh.releasedAmount)
  | .executeRefund _ _ _ => true

section Commits
variable {reg : Registry} {userId : UserId} {rules : FeeRules} {now : Time}

theorem books_release {escrowId : ℕ} {buyerWalletId sellerWalletId : WalletId} {n : ℤ}
    {bank bank' : Bank} (hPos : 0 < n)
    (hTells : paysOut reg userId rules bank (some sellerWalletId) (toNumber n) = true)
    (h : EscrowDb.payRelease escrowId buyerWalletId sellerWalletId (toNumber n)
      (feeFor rules .escrowRelease (toNumber n) 2)
      (toFixed 8 (toNumber n - feeFor rules .escrowRelease (toNumber n) 2)) now bank =
        some bank') : Books reg userId bank bank' := by
  have hFee : feeFor rules .escrowRelease (toNumber n) 2 =
      toNumber (Fees.feeUnits (rules .escrowRelease) (toNumber n) 2 * 10 ^ 6) := by
    rw [feeFor, computeFee_eq_value, toNumber_cents]
  have hAmount : ¬toNumber n ≤ 0 := not_le.mpr (value_pos.mpr hPos)
  simp only [paysOut, hFee, hAmount, decide_false, Bool.false_or, Bool.and_eq_true,
    Bool.or_eq_true, Bool.not_eq_true', decide_eq_true_eq, value_lt_value] at hTells
  rw [hFee, value_sub, toFixed_value] at h
  have hFeeUnits := feeUnits_nonneg (rules .escrowRelease) (toNumber n) 2
  refine books_payRelease hPos.le (by positivity) ?_ ?_ h
  · intro hOwn
    have hNone := hTells.2.resolve_left (by simp [hOwn])
    exact value_le_value.mp (hNone.le.trans (value_zero 8).ge)
  · intro hOwn
    exact sub_pos.mpr (hTells.1.resolve_left (by simp [hOwn]))

theorem eq_zero_of_toNumber {units : ℤ} (h : toNumber units = 0) : units = 0 := by
  rw [← value_zero 8] at h
  exact value_inj.mp h

variable {db db' : EscrowDb}

theorem books_sendFunds {senderWalletId receiverWalletId : WalletId} {amount : ℚ}
    {isMerchant : Bool}
    (hTells : (LedgerOp.sendFunds senderWalletId receiverWalletId amount isMerchant).tells reg userId
      rules db = true)
    (h : (LedgerOp.sendFunds senderWalletId receiverWalletId amount isMerchant).commit rules now db =
      some db') : Books reg userId db.bank db'.bank := by
  simp only [LedgerOp.commit, Option.ite_none_right_eq_some, Option.map_eq_some_iff] at h
  obtain ⟨hAmount, bank', hTx, rfl⟩ := h
  obtain ⟨merchantFee, -, hMerchant⟩ := Conservation.merchantFeeOf_eq rules isMerchant amount
  have hFee : SendFunds.transferFee rules amount =
      toNumber (Fees.feeUnits (rules .transfer) amount 8) := computeFee_eq_value _ _ _
  simp only [LedgerOp.tells, hMerchant, hFee, Bool.and_eq_true, Bool.or_eq_true,
    Bool.not_eq_true', decide_eq_true_eq] at hTells
  rw [hMerchant, hFee] at hTx
  refine books_sendFundsTx hAmount (feeUnits_nonneg _ _ _) ?_ ?_ hTx
  · intro hOwn
    obtain ⟨hNoFee, hNoMerchantFee⟩ := hTells.2.resolve_left (by simp [hOwn])
    exact ⟨eq_zero_of_toNumber hNoFee, eq_zero_of_toNumber hNoMerchantFee⟩
  · rcases hTells.1 with (hNone | ⟨hPayee, hPayer⟩) | ⟨hPayer, hPayee⟩
    · exact .inl (eq_zero_of_toNumber hNone)
    · refine .inr (.inl ⟨by simp [hPayee], ?_⟩)
      intro hOwn
      exact hPayer.resolve_left (by simp [hOwn])
    · refine .inr (.inr ⟨by simp [hPayer], ?_⟩)
      intro hOwn
      exact hPayee.resolve_left (by simp [hOwn])

theorem books_acceptAndTransfer {requestId : ℕ} {payerWalletId requesterWalletId : WalletId}
    {amount : ℤ}
    (hTells : (LedgerOp.acceptAndTransfer requestId payerWalletId requesterWalletId amount).tells reg
      userId rules db = true)
    (h : (LedgerOp.acceptAndTransfer requestId payerWalletId requesterWalletId amount).commit rules
      now db = some db') : Books reg userId db.bank db'.bank := by
  simp only [LedgerOp.commit, Option.ite_none_right_eq_some, Option.map_eq_some_iff] at h
  obtain ⟨hAmount, bank', hTx, rfl⟩ := h
  have hFee : MoneyRequests.transferFee rules amount =
      toNumber (Fees.feeUnits (rules .transfer) (toNumber amount) 8) := computeFee_eq_value _ _ _
  rw [hFee] at hTx
  simp only [LedgerOp.tells, hFee, Bool.or_eq_true, beq_iff_eq, decide_eq_true_eq,
    value_le_value] at hTells
  refine books_acceptTx hAmount (feeUnits_nonneg _ _ _) ?_ hTx
  rcases hTells with (hSides | hNone) | hAll
  · exact .inl (by rw [hSides])
  · exact .inr (.inl (eq_zero_of_toNumber hNone))
  · exact .inr (.inr hAll)

theorem books_create {buyerId sellerId : UserId} {dto : CreateDto}
    {buyerWalletId sellerWalletId : WalletId}
    (hTells : (LedgerOp.create buyerId dto buyerWalletId sellerId sellerWalletId).tells reg userId
      rules db = true)
    (h : (LedgerOp.create buyerId dto buyerWalletId sellerId sellerWalletId).commit rules now db =
      some db') : Books reg userId db.bank db'.bank := by
  simp only [LedgerOp.commit, Option.ite_none_right_eq_some] at h
  obtain ⟨hValid, hTx⟩ := h
  have hAmount : 0 < dto.amount := by
    simp only [CreateDto.valid, Bool.and_eq_true, decide_eq_true_eq] at hValid
    exact hValid.1.1.1.1
  have hFee : Escrow.creationFee rules dto.amount =
      toNumber (Fees.feeUnits (rules .escrowCreation) dto.amount 2 * 10 ^ 6) := by
    rw [Escrow.creationFee, feeFor, computeFee_eq_value, toNumber_cents]
  rw [hFee] at hTx
  simp only [LedgerOp.tells, hFee, Bool.or_eq_true, Bool.not_eq_true',
    decide_eq_true_eq] at hTells
  have hNonneg := feeUnits_nonneg (rules .escrowCreation) dto.amount 2
  refine books_createTx hAmount (by positivity) ?_ hTx
  intro hOwn
  exact eq_zero_of_toNumber (hTells.resolve_left (by simp [hOwn]))

theorem books_releasePartial {escrowId : ℕ} {escrow : EscrowContract} {buyerId : UserId} {amount : ℚ}
    (hTells : (LedgerOp.releasePartial escrowId escrow buyerId amount).tells reg userId rules db =
      true)
    (h : (LedgerOp.releasePartial escrowId escrow buyerId amount).commit rules now db = some db') :
    Books reg userId db.bank db'.bank := by
  simp only [LedgerOp.commit, Option.bind_eq_bind, Option.bind_eq_some_iff] at h
  obtain ⟨part, hPart, hTx⟩ := h
  obtain ⟨n, hPos, rfl⟩ := Escrow.part_of_releasePartialChecks hPart
  have hAmount : toFixed 2 amount = toNumber n := by
    simp only [EscrowDb.releasePartialChecks, Option.ite_none_right_eq_some,
      Option.some.injEq] at hPart
    exact hPart.2
  simp only [LedgerOp.tells, hAmount] at hTells
  simp only [EscrowDb.releasePartialTx, Option.bind_eq_bind, Option.bind_eq_some_iff] at hTx
  obtain ⟨buyerWalletId, -, sellerWalletId, hSeller, fresh, -, hTx⟩ := hTx
  rw [hSeller] at hTells
  split at hTx
  · simp only [Option.bind_eq_some_iff, Option.pure_def, Option.some.injEq] at hTx
    obtain ⟨bank', hPay, rfl⟩ := hTx
    exact books_release hPos hTells hPay
  · cases hTx

theorem books_executeRelease {escrowId : ℕ} {escrow : EscrowContract} {resolution : Bool}
    (hTells : (LedgerOp.executeRelease escrowId escrow resolution).tells reg userId rules db = true)
    (h : db.executeRelease rules escrowId escrow resolution now = some db') :
    Books reg userId db.bank db'.bank := by
  simp only [EscrowDb.executeRelease, Option.bind_eq_bind, Option.bind_eq_some_iff] at h
  obtain ⟨buyerWalletId, -, sellerWalletId, hSeller, h⟩ := h
  split at h
  · cases h
  simp only [Option.pure_def, Option.bind_eq_some_iff] at h
  obtain ⟨fresh, hFresh, h⟩ := h
  simp only [LedgerOp.tells, hFresh, hSeller] at hTells
  split at h
  · rw [Escrow.remainingAmount_eq] at h hTells
    split at h
    · simp only [Option.some.injEq] at h
      subst h
      exact .nothing shifts_refl
    · rename_i hLeft
      have hPos : 0 < max 0 (fresh.amount - fresh.releasedAmount) :=
        value_pos.mp (not_le.mp hLeft)
      simp only [Option.bind_eq_some_iff, Option.some.injEq] at h
      obtain ⟨bank', hPay, rfl⟩ := h
      exact books_release hPos hTells hPay
  · cases h

/-- One commit, whichever producer it is of. -/
theorem books_commit {op : LedgerOp} (hTells : op.tells reg userId rules db = true)
    (h : op.commit rules now db = some db') : Books reg userId db.bank db'.bank := by
  cases op with
  | sendFunds _ _ _ _ => exact books_sendFunds hTells h
  | acceptAndTransfer _ _ _ _ => exact books_acceptAndTransfer hTells h
  | create _ _ _ _ _ => exact books_create hTells h
  | releasePartial _ _ _ _ => exact books_releasePartial hTells h
  | executeRelease _ _ _ => exact books_executeRelease hTells h
  | executeRefund _ _ _ => exact books_executeRefund h

end Commits

end FarmBackend.ChainLegs
