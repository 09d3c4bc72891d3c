import FarmBackend.MoneyRequests
import FarmBackend.SendFunds

/-!
# What the transfers between users conserve

The balances of sender, receiver and platform together, and the ledger's credits less its
debits, before and after a successful `sendFunds` or `acceptAndTransfer`. Any of the wallets may
coincide.
-/

namespace FarmBackend.Conservation
open Decimal Fees Wallets

set_option autoImplicit false

def signed (entry : LedgerEntry) : ℤ :=
  match entry.entryType with
  | .credit => entry.amount
  | .debit => -entry.amount

/-- Credits less debits. -/
def net (bank : Bank) : ℤ := (bank.ledger.map signed).sum

/-- The wallets hold together what they held, and the entries written cancel out. -/
def Conserves (ids : Finset WalletId) (bank bank' : Bank) : Prop :=
  bank'.total ids = bank.total ids ∧ net bank' = net bank

instance (ids : Finset WalletId) (bank bank' : Bank) : Decidable (Conserves ids bank bank') :=
  inferInstanceAs (Decidable (_ ∧ _))

/-- A booking of `total` units on the wallets and `ledger` units on the ledger. -/
structure Books (ids : Finset WalletId) (total ledger : ℤ) (bank bank' : Bank) : Prop where
  total_eq : bank'.total ids = bank.total ids + total
  net_eq : net bank' = net bank + ledger
  platform_eq : bank'.platform = bank.platform

section Bookings
variable {ids : Finset WalletId} {bank bank' bank'' : Bank}

theorem Books.trans {t₁ t₂ l₁ l₂ : ℤ} (h₁ : Books ids t₁ l₁ bank bank')
    (h₂ : Books ids t₂ l₂ bank' bank'') : Books ids (t₁ + t₂) (l₁ + l₂) bank bank'' := by
  refine ⟨?_, ?_, h₂.platform_eq.trans h₁.platform_eq⟩
  · rw [h₂.total_eq, h₁.total_eq, add_assoc]
  · rw [h₂.net_eq, h₁.net_eq, add_assoc]

theorem Books.congr {t₁ t₂ l₁ l₂ : ℤ} (h : Books ids t₁ l₁ bank bank') (hTotal : t₁ = t₂)
    (hLedger : l₁ = l₂) : Books ids t₂ l₂ bank bank' := hTotal ▸ hLedger ▸ h

theorem Books.conserves_iff {total ledger : ℤ} (h : Books ids total ledger bank bank') :
    Conserves ids bank bank' ↔ total = 0 ∧ ledger = 0 := by
  rw [Conserves, h.total_eq, h.net_eq]
  constructor
  · rintro ⟨hTotal, hLedger⟩
    exact ⟨by omega, by omega⟩
  · rintro ⟨rfl, rfl⟩
    exact ⟨add_zero _, add_zero _⟩

theorem books_transactionsCreate (row : Transaction) :
    Books ids 0 0 bank (bank.transactionsCreate row) :=
  ⟨(add_zero _).symm, (add_zero _).symm, rfl⟩

theorem books_ledgerCreate (ids : Finset WalletId) (bank : Bank) (entry : LedgerEntry) :
    Books ids 0 (signed entry) bank (bank.ledgerCreate entry) := by
  refine ⟨(add_zero _).symm, ?_, rfl⟩
  simp [net, Bank.ledgerCreate]

theorem books_entries (ids : Finset WalletId) (bank : Bank) (transactionId : Option ℕ)
    (payer payee : WalletId) (out credit : ℤ) :
    Books ids 0 (credit - out) bank
      ((bank.ledgerCreate ⟨transactionId, payer, .debit, out⟩).ledgerCreate
        ⟨transactionId, payee, .credit, credit⟩) := by
  have hDebit := books_ledgerCreate ids bank ⟨transactionId, payer, .debit, out⟩
  have hBoth := hDebit.trans (books_ledgerCreate ids _ ⟨transactionId, payee, .credit, credit⟩)
  simpa [signed, sub_eq_neg_add] using hBoth

theorem books_walletsUpdate {id : WalletId} {f : Wallet → Wallet} (hId : id ∈ ids)
    (h : bank.walletsUpdate id f = some bank') :
    ∃ w, bank.wallets id = some w ∧ Books ids ((f w).balance - w.balance) 0 bank bank' := by
  obtain ⟨w, hw, hTotal⟩ := Bank.total_walletsUpdate hId h
  obtain ⟨hPlatform, -, hLedger⟩ := Bank.rest_walletsUpdate h
  exact ⟨w, hw, hTotal, by rw [net, hLedger, net, add_zero], hPlatform⟩

theorem books_incrementBalance {id : WalletId} {n : ℤ} (hId : id ∈ ids)
    (h : bank.walletsUpdate id (Wallet.incrementBalance (toNumber n)) = some bank') :
    Books ids n 0 bank bank' := by
  obtain ⟨w, -, hBooks⟩ := books_walletsUpdate hId h
  rwa [Wallet.incrementBalance_toNumber, add_sub_cancel_left] at hBooks

theorem books_creditPlatformInTx {n : ℤ} {transactionId : Option ℕ} (hNonneg : 0 ≤ n)
    (hPlatform : ∀ id, bank.platform = some id → id ∈ ids)
    (h : bank.creditPlatformInTx (toNumber n) transactionId = some bank') :
    Books ids n n bank bank' := by
  unfold Bank.creditPlatformInTx at h
  split at h
  · rename_i hPos
    split at h
    · cases h
    · rename_i walletId hWallet
      simp only [Bank.creditWalletInTx, if_pos hPos, Option.bind_eq_bind,
        Option.bind_eq_some_iff, Option.pure_def, Option.some.injEq] at h
      obtain ⟨bank₁, hUpdate, rfl⟩ := h
      have hCredit := books_incrementBalance (hPlatform walletId hWallet) hUpdate
      have hEntry := books_ledgerCreate ids bank₁
        ⟨transactionId, walletId, .credit, toUnits (toNumber n)⟩
      simpa [signed] using hCredit.trans hEntry
  · rename_i hPos
    simp only [Option.some.injEq] at h
    subst h
    have hZero : n = 0 := by
      by_contra hNe
      exact hPos (value_pos.mpr (by omega))
    subst hZero
    exact ⟨(add_zero _).symm, (add_zero _).symm, rfl⟩

end Bookings

section Transfers
variable {ids : Finset WalletId} {payer payee : WalletId} {bank bank' : Bank} {now : Time}

/-- Accepting a request takes the fee from the payer and gives it to nobody. -/
theorem books_acceptTx (hPayer : payer ∈ ids) (hPayee : payee ∈ ids) {requestId : ℕ}
    {amount fee : ℤ}
    (h : MoneyRequests.acceptTx requestId payer payee amount (toNumber fee) now bank =
      some bank') : Books ids (-fee) (-fee) bank bank' := by
  simp only [MoneyRequests.acceptTx, Option.bind_eq_bind, Option.bind_eq_some_iff,
    Option.pure_def, Option.some.injEq, value_add] at h
  obtain ⟨bank₁, hDebit, bank₂, hCredit, rfl⟩ := h
  obtain ⟨w, -, hTaken⟩ := books_walletsUpdate hPayer hDebit
  have hGiven := books_incrementBalance hPayee hCredit
  have hEntries := books_entries ids bank₂ (some bank.transactions.length) payer payee
    (toUnits (toNumber (amount + fee))) amount
  have hAll := (books_transactionsCreate _).trans ((hTaken.trans hGiven).trans hEntries)
  refine hAll.congr ?_ ?_
  · rw [Wallet.decrementBalance_toNumber]
    ring
  · rw [toUnits_toNumber]
    ring

/-- What a debit of `x` units and a credit of `x - m` units lose between them: nothing, but for
half a unit, which the debit drops and the credit keeps. -/
theorem rounded_split (n : ℤ) {m : ℤ} {x : ℚ} (hCredit : 0 ≤ x - m) (hPos : 0 ≤ x) :
    roundHalfAway (n - x) - n + roundHalfAway (x - m) + m =
      if Int.fract x = 1 / 2 ∧ x ≤ n then 1 else 0 := by
  have hHalves := floor_add_half_sub_ceil_sub_half x
  rw [roundHalfAway_sub_int hPos hCredit, roundHalfAway_of_nonneg hPos]
  by_cases hCovered : x ≤ n
  · rw [roundHalfAway_int_sub (by linarith)]
    simp only [hCovered, and_true]
    rw [← hHalves]
    ring
  · have hDown : roundHalfAway (n - x) = n - roundHalfAway x := by
      rw [← neg_sub x n, roundHalfAway_neg, roundHalfAway_sub_int hPos (by linarith)]
      ring
    rw [hDown, roundHalfAway_of_nonneg hPos]
    simp only [hCovered, and_false, if_false]
    ring

theorem receiverCredit_eq (amount : ℚ) (merchantFee : ℤ) :
    SendFunds.receiverCredit amount (toNumber merchantFee) =
      toNumber (roundHalfAway (amount * 10 ^ 8 - merchantFee)) := by
  rw [SendFunds.receiverCredit, toFixed, column, sub_mul, value_mul]

theorem decrementBalance_totalOut (amount : ℚ) (fee : ℤ) (w : Wallet) :
    (w.decrementBalance (SendFunds.totalOut amount (toNumber fee))).balance =
      roundHalfAway ((w.balance - fee : ℤ) - amount * 10 ^ 8) := by
  have hUnits : (toNumber w.balance - (amount + toNumber fee)) * 10 ^ 8 =
      (w.balance - fee : ℤ) - amount * 10 ^ 8 := by
    rw [sub_mul, add_mul, value_mul, value_mul]
    push_cast
    ring
  exact congrArg roundHalfAway hUnits

theorem totalOut_le_iff (amount : ℚ) (fee : ℤ) (w : Wallet) :
    SendFunds.totalOut amount (toNumber fee) ≤ toNumber w.balance ↔
      amount * 10 ^ 8 ≤ (w.balance - fee : ℤ) := by
  rw [SendFunds.totalOut, ← le_sub_iff_add_le, value_sub, value, le_div_iff₀ (by positivity)]

/-- A send gives receiver and platform what it takes from the sender, up to a half unit. -/
theorem books_sendFundsTx (hPayer : payer ∈ ids) (hPayee : payee ∈ ids)
    (hPlatform : ∀ id, bank.platform = some id → id ∈ ids) {amount : ℚ} {fee merchantFee : ℤ}
    (hAmount : 0 ≤ amount) (hFee : 0 ≤ fee) (hMerchantFee : 0 ≤ merchantFee)
    (hAtMost : toNumber merchantFee ≤ amount)
    (h : SendFunds.sendFundsTx payer payee amount (toNumber fee) (toNumber merchantFee) now bank =
      some bank') :
    Books ids (if Int.fract (amount * 10 ^ 8) = 1 / 2 ∧
      SendFunds.totalOut amount (toNumber fee) ≤ toNumber (bank.balanceOf payer) then 1 else 0) 0
      bank bank' := by
  simp only [SendFunds.sendFundsTx, Option.bind_eq_bind, Option.bind_eq_some_iff,
    receiverCredit_eq] at h
  obtain ⟨bank₁, hDebit, bank₂, hCredit, bank₃, hMerchant, hLast⟩ := h
  obtain ⟨w, hw, hTaken⟩ := books_walletsUpdate hPayer hDebit
  have hGiven := books_incrementBalance hPayee hCredit
  have hEntries := books_entries ids bank₂ (some bank.transactions.length) payer payee
    (toUnits (SendFunds.totalOut amount (toNumber fee)))
    (toUnits (toNumber (roundHalfAway (amount * 10 ^ 8 - merchantFee))))
  have hMoved := (books_transactionsCreate _).trans ((hTaken.trans hGiven).trans hEntries)
  have hMerchantPaid := books_creditPlatformInTx hMerchantFee
    (fun id hId => hPlatform id (hMoved.platform_eq ▸ hId)) hMerchant
  have hPaid := hMoved.trans hMerchantPaid
  have hFeePaid := books_creditPlatformInTx hFee
    (fun id hId => hPlatform id (hPaid.platform_eq ▸ hId)) hLast
  have hAll := hPaid.trans hFeePaid
  have hPos : 0 ≤ amount * 10 ^ 8 := by positivity
  have hCreditPos : 0 ≤ amount * 10 ^ 8 - merchantFee := by
    rw [← value_mul 8 merchantFee, ← sub_mul]
    exact mul_nonneg (sub_nonneg.mpr hAtMost) (by positivity)
  have hBalance : bank.balanceOf payer = w.balance := Bank.balanceOf_eq hw
  have hSplit := rounded_split (w.balance - fee) hCreditPos hPos
  have hDebitEntry : toUnits (SendFunds.totalOut amount (toNumber fee)) =
      fee + roundHalfAway (amount * 10 ^ 8) := by
    rw [SendFunds.totalOut, add_comm]
    exact column_value_add hFee hAmount
  simp only [hBalance, totalOut_le_iff]
  refine hAll.congr ?_ ?_
  · rw [decrementBalance_totalOut, ← hSplit]
    ring
  · rw [toUnits_toNumber, hDebitEntry, roundHalfAway_sub_int hPos hCreditPos]
    ring

theorem merchantFeeOf_eq (rules : FeeRules) (isMerchant : Bool) (amount : ℚ) :
    ∃ units : ℤ, 0 ≤ units ∧ SendFunds.merchantFeeOf rules isMerchant amount = toNumber units := by
  unfold SendFunds.merchantFeeOf
  cases isMerchant with
  | false => exact ⟨0, le_rfl, (value_zero 8).symm⟩
  | true => exact ⟨_, feeUnits_nonneg _ _ _, computeFee_eq_value _ _ _⟩

end Transfers

/-- The transfer fee is 1%; nothing else is charged. -/
def onePercent : FeeRules
  | .transfer => ⟨1, 0, 0, 0⟩
  | _ => ⟨0, 0, 0, 0⟩

/-- Users 1 and 2 with 100 FARM each and the platform's wallet 0. -/
def threeWallets : Bank where
  wallets := fun id => if id ≤ 2 then some ⟨toUnits 100, 0, false⟩ else none
  platform := some 0
  transactions := []
  ledger := []

def askedFor (amount : ℚ) : MoneyRequests.RequestDb where
  bank := threeWallets
  id := 7
  request := ⟨some 2, some 2, some 1, some 1, toUnits amount, .pending, none, none⟩

def acceptAlone : List (Interleaving.Move MoneyRequests.Request MoneyRequests.Outcome) :=
  .enter (.acceptAndTransfer 1) :: List.replicate 3 (.run 0 ⟨0, onePercent, true, 0⟩)

def sendDb : SendFunds.SendDb := ⟨threeWallets, fun _ => some 2, some, fun _ => none⟩

def sendAlone (amount : ℚ) : List (Interleaving.Move SendFunds.Request SendFunds.Outcome) :=
  .enter ⟨1, "friend", amount, false⟩ :: List.replicate 6 (.run 0 ⟨0, 0, onePercent, true⟩)

end FarmBackend.Conservation
