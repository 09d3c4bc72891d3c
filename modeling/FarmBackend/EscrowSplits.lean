import FarmBackend.EscrowLocks

/-!
# How an escrow is split

Partial releases in any number and then a full release, a refund, or nothing when the parts were
all of it. Each call is run as a whole on the rows the one before it left; a call that throws leaves
them as they were, so the sequences below are of calls that went through.
-/

namespace FarmBackend.Escrow
open Decimal Fees Wallets Rows

set_option autoImplicit false

/-- What a booking adds to every wallet's balance and locked balance, with the rows it writes. -/
structure Moves (balance locked : WalletId → ℤ) (rows : List Transaction) (bank bank' : Bank) :
    Prop where
  balance_eq : ∀ id, bank'.balanceOf id = bank.balanceOf id + balance id
  locked_eq : ∀ id, bank'.lockedOf id = bank.lockedOf id + locked id
  platform_eq : bank'.platform = bank.platform
  transactions_eq : bank'.transactions = bank.transactions ++ rows

section Moves
variable {bank bank' bank'' : Bank}

theorem Moves.trans {b₁ b₂ l₁ l₂ : WalletId → ℤ} {rows₁ rows₂ : List Transaction}
    (h₁ : Moves b₁ l₁ rows₁ bank bank') (h₂ : Moves b₂ l₂ rows₂ bank' bank'') :
    Moves (fun id => b₁ id + b₂ id) (fun id => l₁ id + l₂ id) (rows₁ ++ rows₂) bank bank'' := by
  refine ⟨?_, ?_, h₂.platform_eq.trans h₁.platform_eq, ?_⟩
  · intro id
    rw [h₂.balance_eq, h₁.balance_eq, add_assoc]
  · intro id
    rw [h₂.locked_eq, h₁.locked_eq, add_assoc]
  · rw [h₂.transactions_eq, h₁.transactions_eq, List.append_assoc]

theorem Moves.congr {b b' l l' : WalletId → ℤ} {rows : List Transaction}
    (h : Moves b l rows bank bank') (hBalance : ∀ id, b id = b' id) (hLocked : ∀ id, l id = l' id) :
    Moves b' l' rows bank bank' := by
  obtain rfl : b = b' := funext hBalance
  obtain rfl : l = l' := funext hLocked
  exact h

theorem moves_refl (bank : Bank) : Moves (fun _ => 0) (fun _ => 0) [] bank bank :=
  ⟨fun _ => (add_zero _).symm, fun _ => (add_zero _).symm, rfl, (List.append_nil _).symm⟩

theorem moves_transactionsCreate (row : Transaction) (bank : Bank) :
    Moves (fun _ => 0) (fun _ => 0) [row] bank (bank.transactionsCreate row) :=
  ⟨fun _ => (add_zero _).symm, fun _ => (add_zero _).symm, rfl, rfl⟩

theorem moves_ledgerCreate (entry : LedgerEntry) (bank : Bank) :
    Moves (fun _ => 0) (fun _ => 0) [] bank (bank.ledgerCreate entry) :=
  ⟨fun _ => (add_zero _).symm, fun _ => (add_zero _).symm, rfl, (List.append_nil _).symm⟩

theorem moves_walletsUpdate {walletId : WalletId} {f : Wallet → Wallet} {balance locked : ℤ}
    (hf : ∀ w, (f w).balance = w.balance + balance ∧
      (f w).lockedBalance = w.lockedBalance + locked)
    (h : bank.walletsUpdate walletId f = some bank') :
    Moves (fun id => if id = walletId then balance else 0)
      (fun id => if id = walletId then locked else 0) [] bank bank' := by
  obtain ⟨w, hw, hBalance⟩ := Bank.balanceOf_walletsUpdate h
  obtain ⟨v, hv, hLocked⟩ := Bank.lockedOf_walletsUpdate h
  obtain rfl : w = v := Option.some.inj (hw.symm.trans hv)
  obtain ⟨hPlatform, hTransactions, -⟩ := Bank.rest_walletsUpdate h
  refine ⟨?_, ?_, hPlatform, by rw [hTransactions, List.append_nil]⟩
  · intro id
    rw [hBalance]
    split
    · rename_i hId
      rw [hId, Bank.balanceOf_eq hw, (hf w).1]
    · exact (add_zero _).symm
  · intro id
    rw [hLocked]
    split
    · rename_i hId
      rw [hId, Bank.lockedOf_eq hw, (hf w).2]
    · exact (add_zero _).symm

theorem moves_creditPlatformInTx {n : ℤ} {transactionId : Option ℕ} (hNonneg : 0 ≤ n)
    (h : bank.creditPlatformInTx (toNumber n) transactionId = some bank') :
    Moves (fun id => if bank.platform = some id then n else 0) (fun _ => 0) [] bank bank' := by
  unfold Bank.creditPlatformInTx at h
  split at h
  · rename_i hPos
    split at h
    · cases h
    · rename_i walletId hWallet
      simp only [Bank.creditWalletInTx, if_pos hPos, Option.bind_eq_bind,
        Option.bind_eq_some_iff, Option.pure_def, Option.some.injEq] at h
      obtain ⟨bank₁, hUpdate, rfl⟩ := h
      have hCredit : Moves (fun id => if id = walletId then n else 0)
          (fun id => if id = walletId then 0 else 0) [] bank bank₁ := by
        refine moves_walletsUpdate ?_ hUpdate
        intro w
        exact ⟨Wallet.incrementBalance_toNumber n w, (add_zero _).symm⟩
      refine (hCredit.trans (moves_ledgerCreate _ _)).congr ?_ ?_
      · intro id
        simp only [hWallet, Option.some.injEq, add_zero, eq_comm]
      · intro id
        simp
  · rename_i hPos
    rw [Option.some.injEq] at h
    subst h
    have hZero : n = 0 := le_antisymm (not_lt.mp fun hn => hPos (value_pos.mpr hn)) hNonneg
    refine (moves_refl bank).congr ?_ (fun _ => rfl)
    intro id
    simp [hZero]

end Moves

/-! What a row of `transactions` pays to whom. -/

def toSeller (t : Transaction) : ℤ := if t.transactionType = .escrowRelease then t.netAmount else 0

def toPlatform (t : Transaction) : ℤ := if t.transactionType = .escrowRelease then t.fee else 0

def unlocked (t : Transaction) : ℤ := if t.transactionType = .escrowRefund then t.amount else 0

def paidToSeller (rows : List Transaction) : ℤ := (rows.map toSeller).sum

def paidToPlatform (rows : List Transaction) : ℤ := (rows.map toPlatform).sum

def unlockedForBuyer (rows : List Transaction) : ℤ := (rows.map unlocked).sum

/-- Nothing is taken from the seller, and the fee is at most what is released. -/
def Fair (t : Transaction) : Prop := 0 ≤ t.netAmount ∧ t.fee ≤ t.amount

structure Part where
  rules : FeeRules
  amount : ℚ
  now : Time

/-- How the sequence ends. A `resolution` is of a dispute that was raised before it. -/
inductive Close where
  | nothing
  | release (rules : FeeRules) (resolution : Bool) (now : Time)
  | refund (resolution : Bool) (now : Time)

def Part.run (escrowId : ℕ) (buyerId : UserId) (p : Part) (db : EscrowDb) : Option EscrowDb := do
  let escrow ← db.escrows[escrowId]?
  let part ← EscrowDb.releasePartialChecks escrow buyerId p.amount
  db.releasePartialTx p.rules escrowId escrow part p.now

def payParts (escrowId : ℕ) (buyerId : UserId) : List Part → EscrowDb → Option EscrowDb
  | [], db => some db
  | p :: parts, db => (p.run escrowId buyerId db).bind (payParts escrowId buyerId parts)

def EscrowDb.disputeBefore (escrowId : ℕ) (resolution : Bool) (db : EscrowDb) : Option EscrowDb :=
  if resolution then db.disputeTx escrowId else some db

def Close.run (escrowId : ℕ) (db : EscrowDb) : Close → Option EscrowDb
  | .nothing => some db
  | .release rules resolution now => do
    let db ← db.disputeBefore escrowId resolution
    let escrow ← db.escrows[escrowId]?
    db.executeRelease rules escrowId escrow resolution now
  | .refund resolution now => do
    let db ← db.disputeBefore escrowId resolution
    let escrow ← db.escrows[escrowId]?
    db.executeRefund escrowId escrow resolution now

def settle (escrowId : ℕ) (buyerId : UserId) (parts : List Part) (close : Close) (db : EscrowDb) :
    Option EscrowDb := (payParts escrowId buyerId parts db).bind (close.run escrowId)

/-- The amount rounded to cents, in units. -/
def Part.units (p : Part) : ℤ := column 2 p.amount * 10 ^ 6

/-- What the last call releases, of `left` units. -/
def Close.releases (left : ℤ) : Close → List (FeeRules × ℤ)
  | .release rules _ _ => if 0 < left then [(rules, left)] else []
  | _ => []

/-- The fee rules and the units of everything that is released out of an escrow. -/
def releases (amount : ℤ) (parts : List Part) (close : Close) : List (FeeRules × ℤ) :=
  parts.map (fun p => (p.rules, p.units)) ++ close.releases (amount - (parts.map Part.units).sum)

/-- Every fee rule leaves something of what is released under it. -/
def FeesFit (released : List (FeeRules × ℤ)) : Prop :=
  ∀ r ∈ released, (r.1 .escrowRelease).Fits (toNumber r.2) 2

/-- A stage in the splitting of an escrow that leaves its contract as `row'`. -/
structure Split (escrowId : ℕ) (buyer seller : WalletId) (rows : List Transaction)
    (row row' : EscrowContract) (db db' : EscrowDb) : Prop where
  contract : db'.escrows[escrowId]? = some row'
  buyer_eq : row'.buyerWalletId = some buyer
  seller_eq : row'.sellerWalletId = some seller
  amount_eq : row'.amount = row.amount
  sound : row'.Sound
  spent : paidToSeller rows + paidToPlatform rows + unlockedForBuyer rows + row'.lockedPart =
    row.lockedPart
  moves : Moves
    (fun id => (if id = seller then paidToSeller rows else 0) +
      (if db.bank.platform = some id then paidToPlatform rows else 0) -
      if id = buyer then paidToSeller rows + paidToPlatform rows else 0)
    (fun id => -if id = buyer then
      paidToSeller rows + paidToPlatform rows + unlockedForBuyer rows else 0)
    rows db.bank db'.bank

section Splits
variable {escrowId : ℕ} {buyer seller : WalletId} {row row' row'' : EscrowContract}
  {db db' db'' : EscrowDb}

theorem Split.trans {rows₁ rows₂ : List Transaction}
    (h₁ : Split escrowId buyer seller rows₁ row row' db db')
    (h₂ : Split escrowId buyer seller rows₂ row' row'' db' db'') :
    Split escrowId buyer seller (rows₁ ++ rows₂) row row'' db db'' := by
  have hSpent₁ := h₁.spent
  have hSpent₂ := h₂.spent
  refine ⟨h₂.contract, h₂.buyer_eq, h₂.seller_eq, h₂.amount_eq.trans h₁.amount_eq, h₂.sound, ?_, ?_⟩
  · simp only [paidToSeller, paidToPlatform, unlockedForBuyer, List.map_append,
      List.sum_append] at hSpent₁ hSpent₂ ⊢
    omega
  · have hPlatform := h₁.moves.platform_eq
    refine (h₁.moves.trans h₂.moves).congr ?_ ?_
    · intro id
      simp only [hPlatform, paidToSeller, paidToPlatform, List.map_append, List.sum_append]
      split_ifs <;> ring
    · intro id
      simp only [paidToSeller, paidToPlatform, unlockedForBuyer, List.map_append, List.sum_append]
      split_ifs <;> ring

theorem split_refl (hRow : db.escrows[escrowId]? = some row) (hBuyer : row.buyerWalletId = some buyer)
    (hSeller : row.sellerWalletId = some seller) (hSound : row.Sound) :
    Split escrowId buyer seller [] row row db db := by
  refine ⟨hRow, hBuyer, hSeller, rfl, hSound, ?_, ?_⟩
  · simp [paidToSeller, paidToPlatform, unlockedForBuyer]
  · refine (moves_refl db.bank).congr ?_ ?_
    · intro id
      simp [paidToSeller, paidToPlatform]
    · intro id
      simp [paidToSeller, paidToPlatform, unlockedForBuyer]

/-- What a release of `n` units books under a fee of `f` units. -/
def releaseRow (escrowId : ℕ) (buyer seller : WalletId) (n f : ℤ) (now : Time) : Transaction where
  senderWalletId := some buyer
  receiverWalletId := some seller
  transactionType := .escrowRelease
  status := .completed
  amount := n
  fee := f
  netAmount := n - f
  escrowId := some escrowId
  createdAt := now

theorem fair_releaseRow {n f : ℤ} {now : Time} :
    Fair (releaseRow escrowId buyer seller n f now) ↔ f ≤ n := by
  simp only [Fair, releaseRow, sub_nonneg, and_self]

theorem moves_payRelease {n f : ℤ} {now : Time} {bank bank' : Bank} (hFee : 0 ≤ f)
    (h : EscrowDb.payRelease escrowId buyer seller (toNumber n) (toNumber f) (toNumber (n - f)) now
      bank = some bank') :
    Moves
      (fun id => (if id = seller then n - f else 0) + (if bank.platform = some id then f else 0) -
        if id = buyer then n else 0)
      (fun id => -if id = buyer then n else 0) [releaseRow escrowId buyer seller n f now]
      bank bank' := by
  simp only [EscrowDb.payRelease, Option.bind_eq_bind, Option.bind_eq_some_iff,
    toUnits_toNumber] at h
  obtain ⟨bank₁, hBuyer, bank₂, hSeller, hLast⟩ := h
  have hTaken : Moves (fun id => if id = buyer then -n else 0)
      (fun id => if id = buyer then -n else 0) [] bank bank₁ := by
    refine moves_walletsUpdate ?_ hBuyer
    intro w
    refine ⟨?_, ?_⟩
    · rw [Function.comp_apply, Wallet.decrementBalance_toNumber, Wallet.decrementLocked_balance,
        sub_eq_add_neg]
    · rw [Function.comp_apply, Wallet.decrementBalance_locked, Wallet.decrementLocked_toNumber,
        sub_eq_add_neg]
  have hGiven : Moves (fun id => if id = seller then n - f else 0)
      (fun id => if id = seller then 0 else 0) [] bank₁ bank₂ := by
    refine moves_walletsUpdate ?_ hSeller
    intro w
    exact ⟨Wallet.incrementBalance_toNumber _ w, (add_zero _).symm⟩
  have hPlatform : bank₂.platform = bank.platform := (hTaken.trans hGiven).platform_eq
  have hFees := moves_creditPlatformInTx hFee hLast
  have hBooks := ((hTaken.trans hGiven).trans (moves_transactionsCreate
    (releaseRow escrowId buyer seller n f now) bank₂)).trans
      ((moves_ledgerCreate _ _).trans ((moves_ledgerCreate _ _).trans hFees))
  refine hBooks.congr ?_ ?_
  · intro id
    simp only [Bank.platform_ledgerCreate, Bank.platform_transactionsCreate, hPlatform]
    split_ifs <;> ring
  · intro id
    split_ifs <;> ring

/-- The release fee is a whole number of cents, and at most the amount where its rule fits. -/
theorem releaseFee_eq (rules : FeeRules) {n : ℤ} (hPositive : 0 < n) :
    ∃ f : ℤ, 0 ≤ f ∧ feeFor rules .escrowRelease (toNumber n) 2 = toNumber f ∧
      (f ≤ n ↔ (rules .escrowRelease).Fits (toNumber n) 2) := by
  have hUnits := computeFee_eq_value (rules .escrowRelease) (toNumber n) 2
  have hNonneg := feeUnits_nonneg (rules .escrowRelease) (toNumber n) 2
  rw [toNumber_cents] at hUnits
  refine ⟨_, by omega, hUnits, ?_⟩
  rw [← computeFee_le_iff (value_pos.mpr hPositive), hUnits, value_le_value]

theorem split_releaseRow {n f : ℤ} {now : Time} {bank' : Bank}
    (hContract : db'.escrows[escrowId]? = some row') (hBuyer : row'.buyerWalletId = some buyer)
    (hSeller : row'.sellerWalletId = some seller) (hAmount : row'.amount = row.amount)
    (hSound : row'.Sound) (hPart : n + row'.lockedPart = row.lockedPart) (hFee : 0 ≤ f)
    (hBank : db'.bank = bank')
    (h : EscrowDb.payRelease escrowId buyer seller (toNumber n) (toNumber f)
      (toFixed 8 (toNumber n - toNumber f)) now db.bank = some bank') :
    Split escrowId buyer seller [releaseRow escrowId buyer seller n f now] row row' db db' := by
  rw [value_sub, toFixed_value] at h
  refine ⟨hContract, hBuyer, hSeller, hAmount, hSound, ?_, ?_⟩
  · simp only [paidToSeller, paidToPlatform, unlockedForBuyer, toSeller, toPlatform, unlocked,
      releaseRow, List.map_cons, List.map_nil, List.sum_cons, List.sum_nil, if_true, if_false,
      reduceCtorEq]
    omega
  · rw [hBank]
    refine (moves_payRelease hFee h).congr ?_ ?_
    · intro id
      simp [paidToSeller, paidToPlatform, toSeller, toPlatform, releaseRow]
    · intro id
      simp [paidToSeller, paidToPlatform, unlockedForBuyer, toSeller, toPlatform, unlocked,
        releaseRow]

theorem split_part {buyerId : UserId} {p : Part} (hRow : db.escrows[escrowId]? = some row)
    (hBuyer : row.buyerWalletId = some buyer) (hSeller : row.sellerWalletId = some seller)
    (hSound : row.Sound) (h : p.run escrowId buyerId db = some db') :
    ∃ (t : Transaction) (row' : EscrowContract),
      Split escrowId buyer seller [t] row row' db db' ∧
      row'.releasedAmount = row.releasedAmount + p.units ∧
      (Fair t ↔ (p.rules .escrowRelease).Fits (toNumber p.units) 2) := by
  simp only [Part.run, Option.bind_eq_bind, Option.bind_eq_some_iff, hRow,
    Option.some.injEq] at h
  obtain ⟨escrow, rfl, part, hPart, hTx⟩ := h
  obtain ⟨n, hPositive, rfl⟩ := part_of_releasePartialChecks hPart
  have hUnits : n = p.units := by
    unfold EscrowDb.releasePartialChecks at hPart
    simp only [Option.ite_none_right_eq_some, Option.some.injEq] at hPart
    rw [toFixed, toNumber_cents, value_inj] at hPart
    exact hPart.2.symm
  subst hUnits
  obtain ⟨f, hFee, hFeeEq, hFits⟩ := releaseFee_eq p.rules hPositive
  simp only [EscrowDb.releasePartialTx, Option.bind_eq_bind, Option.bind_eq_some_iff, hBuyer,
    hSeller, hRow, Option.some.injEq, exists_eq_left'] at hTx
  rw [Option.ite_none_right_eq_some] at hTx
  obtain ⟨⟨hActive, hFitsIn⟩, hTx⟩ := hTx
  have hHolds : row.status.holdsMoney = true := by rw [hActive]; rfl
  simp only [value_add, value_le_value, column_value] at hFitsIn hTx
  simp only [Option.bind_eq_some_iff, Option.pure_def, Option.some.injEq] at hTx
  obtain ⟨bank', hPay, rfl⟩ := hTx
  rw [hFeeEq] at hPay
  have hLeft : remainingAmount row.amount (row.releasedAmount + p.units) =
      toNumber (row.amount - (row.releasedAmount + p.units)) := by
    rw [remainingAmount_eq, max_eq_right (by omega)]
  refine ⟨_, _, split_releaseRow (getElem?_modify_self _ hRow) hBuyer hSeller rfl ?_ ?_ hFee rfl
    hPay, rfl, fair_releaseRow.trans hFits⟩
  · refine ⟨⟨_, hBuyer⟩, add_nonneg hSound.released_nonneg hPositive.le, hFitsIn, ?_⟩
    dsimp only
    split
    · exact ⟨EscrowStatus.noConfusion, EscrowStatus.noConfusion⟩
    · exact hSound.funded
  · rw [EscrowContract.lockedPart_of_holds hHolds]
    by_cases hDone : remainingAmount row.amount (row.releasedAmount + p.units) ≤ 0
    · have hZero : row.amount - (row.releasedAmount + p.units) = 0 :=
        eq_zero_of_toNumber_nonpos (sub_nonneg.mpr hFitsIn) (hLeft ▸ hDone)
      rw [EscrowContract.lockedPart_of_settled (by simp only [if_pos hDone]; rfl)]
      omega
    · rw [EscrowContract.lockedPart_of_holds (by simp only [if_neg hDone]; exact hHolds)]
      ring

theorem split_executeRelease {rules : FeeRules} {resolution : Bool} {now : Time}
    (hRow : db.escrows[escrowId]? = some row) (hBuyer : row.buyerWalletId = some buyer)
    (hSeller : row.sellerWalletId = some seller) (hSound : row.Sound)
    (h : db.executeRelease rules escrowId row resolution now = some db') :
    row.releasedAmount = row.amount ∧ Split escrowId buyer seller [] row
        { row with status := .completed } db db' ∨
      ∃ t, row.releasedAmount < row.amount ∧
        Split escrowId buyer seller [t] row { row with status := .completed } db db' ∧
        (Fair t ↔ (rules .escrowRelease).Fits (toNumber (row.amount - row.releasedAmount)) 2) := by
  have hLe := hSound.released_le
  have hCompleted := hSound.withStatus .completed
    ⟨EscrowStatus.noConfusion, EscrowStatus.noConfusion⟩
  simp only [EscrowDb.executeRelease, Option.bind_eq_bind, Option.bind_eq_some_iff, hBuyer,
    hSeller, Option.some.injEq, exists_eq_left'] at h
  split at h
  · cases h
  simp only [Option.pure_def, Option.bind_eq_some_iff, hRow, Option.some.injEq,
    exists_eq_left'] at h
  rw [Option.ite_none_right_eq_some] at h
  obtain ⟨hStatus, h⟩ := h
  have hHolds : row.status.holdsMoney = true := hStatus ▸ holdsMoney_claimable resolution
  have hPart : row.amount - row.releasedAmount +
      ({ row with status := .completed } : EscrowContract).lockedPart = row.lockedPart := by
    rw [EscrowContract.lockedPart_of_holds hHolds, EscrowContract.lockedPart_of_settled rfl,
      add_zero]
  simp only [remainingAmount_sound hSound] at h
  split at h
  · rename_i hNothing
    have hZero : row.amount - row.releasedAmount = 0 :=
      eq_zero_of_toNumber_nonpos (sub_nonneg.mpr hLe) hNothing
    rw [Option.some.injEq] at h
    subst h
    have hNone := split_refl hRow hBuyer hSeller hSound
    refine .inl ⟨by omega, getElem?_modify_self _ hRow, hBuyer, hSeller, rfl, hCompleted, ?_,
      hNone.moves⟩
    rw [hZero, zero_add] at hPart
    rw [hPart]
    exact hNone.spent
  · rename_i hSome
    simp only [Option.bind_eq_some_iff, Option.some.injEq] at h
    obtain ⟨bank', hPay, rfl⟩ := h
    have hPositive : 0 < row.amount - row.releasedAmount := value_pos.mp (not_le.mp hSome)
    obtain ⟨f, hFee, hFeeEq, hFits⟩ := releaseFee_eq rules hPositive
    rw [hFeeEq] at hPay
    exact .inr ⟨_, by omega, split_releaseRow (getElem?_modify_self _ hRow) hBuyer hSeller rfl
      hCompleted hPart hFee rfl hPay, fair_releaseRow.trans hFits⟩

theorem split_executeRefund {resolution : Bool} {now : Time}
    (hRow : db.escrows[escrowId]? = some row) (hBuyer : row.buyerWalletId = some buyer)
    (hSeller : row.sellerWalletId = some seller) (hSound : row.Sound)
    (h : db.executeRefund escrowId row resolution now = some db') :
    ∃ t, Split escrowId buyer seller [t] row { row with status := .refunded } db db' ∧ Fair t := by
  have hLe := hSound.released_le
  simp only [EscrowDb.executeRefund, Option.bind_eq_bind, Option.bind_eq_some_iff, hRow,
    Option.some.injEq, exists_eq_left'] at h
  rw [Option.ite_none_right_eq_some] at h
  obtain ⟨hStatus, h⟩ := h
  have hHolds : row.status.holdsMoney = true := hStatus ▸ holdsMoney_claimable resolution
  simp only [remainingAmount_sound hSound, hBuyer, Option.bind_eq_some_iff, Option.some.injEq,
    exists_eq_left', Option.pure_def, toUnits_toNumber] at h
  obtain ⟨bank₁, hUpdate, rfl⟩ := h
  have hUnlock : Moves (fun id => if id = buyer then 0 else 0)
      (fun id => if id = buyer then -(row.amount - row.releasedAmount) else 0) [] db.bank bank₁ := by
    refine moves_walletsUpdate ?_ hUpdate
    intro w
    refine ⟨by rw [Wallet.decrementLocked_balance, add_zero], ?_⟩
    rw [Wallet.decrementLocked_toNumber, sub_eq_add_neg]
  refine ⟨_, ⟨getElem?_modify_self _ hRow, hBuyer, hSeller, rfl, hSound.withStatus .refunded
    ⟨EscrowStatus.noConfusion, EscrowStatus.noConfusion⟩, ?_,
    (hUnlock.trans (moves_transactionsCreate _ _)).congr ?_ ?_⟩, ?_⟩
  · rw [EscrowContract.lockedPart_of_holds hHolds, EscrowContract.lockedPart_of_settled rfl]
    simp [paidToSeller, paidToPlatform, unlockedForBuyer, toSeller, toPlatform, unlocked]
  · intro id
    simp [paidToSeller, paidToPlatform, toSeller, toPlatform]
  · intro id
    simp only [paidToSeller, paidToPlatform, unlockedForBuyer, toSeller, toPlatform, unlocked,
      List.map_cons, List.map_nil, List.sum_cons, List.sum_nil, if_true, if_false, reduceCtorEq]
    split_ifs <;> ring
  · exact ⟨sub_nonneg.mpr hLe, sub_nonneg.mpr hLe⟩

theorem split_disputeTx (hRow : db.escrows[escrowId]? = some row)
    (hBuyer : row.buyerWalletId = some buyer) (hSeller : row.sellerWalletId = some seller)
    (hSound : row.Sound) (h : db.disputeTx escrowId = some db') :
    Split escrowId buyer seller [] row { row with status := .disputed } db db' := by
  simp only [EscrowDb.disputeTx, Option.bind_eq_bind, Option.bind_eq_some_iff, hRow,
    Option.some.injEq, exists_eq_left'] at h
  rw [Option.ite_none_right_eq_some] at h
  obtain ⟨hActive, h⟩ := h
  simp only [Option.pure_def, Option.some.injEq] at h
  subst h
  have hNone := split_refl hRow hBuyer hSeller hSound
  have hHolds : row.status.holdsMoney = true := by rw [hActive]; rfl
  refine ⟨getElem?_modify_self _ hRow, hBuyer, hSeller, rfl, hSound.withStatus .disputed
    ⟨EscrowStatus.noConfusion, EscrowStatus.noConfusion⟩, ?_, hNone.moves⟩
  rw [EscrowContract.lockedPart_of_holds rfl, ← EscrowContract.lockedPart_of_holds hHolds]
  exact hNone.spent

theorem split_payParts {buyerId : UserId} {parts : List Part}
    (hRow : db.escrows[escrowId]? = some row) (hBuyer : row.buyerWalletId = some buyer)
    (hSeller : row.sellerWalletId = some seller) (hSound : row.Sound)
    (h : payParts escrowId buyerId parts db = some db') :
    ∃ (rows : List Transaction) (row' : EscrowContract),
      Split escrowId buyer seller rows row row' db db' ∧
      row'.releasedAmount = row.releasedAmount + (parts.map Part.units).sum ∧
      ((∀ t ∈ rows, Fair t) ↔ FeesFit (parts.map fun p => (p.rules, p.units))) := by
  induction parts generalizing db row with
  | nil =>
    rw [payParts, Option.some.injEq] at h
    subst h
    refine ⟨[], row, split_refl hRow hBuyer hSeller hSound, ?_, ?_⟩
    · simp
    · simp [FeesFit]
  | cons p parts ih =>
    rw [payParts, Option.bind_eq_some_iff] at h
    obtain ⟨db₁, hFirst, hRest⟩ := h
    obtain ⟨t, row₁, hSplit, hReleased, hFair⟩ := split_part hRow hBuyer hSeller hSound hFirst
    obtain ⟨rows, row', hSplits, hTotal, hFairs⟩ :=
      ih hSplit.contract hSplit.buyer_eq hSplit.seller_eq hSplit.sound hRest
    refine ⟨t :: rows, row', hSplit.trans hSplits, ?_, ?_⟩
    · rw [hTotal, hReleased, List.map_cons, List.sum_cons, add_assoc]
    · simp only [FeesFit, List.map_cons, List.forall_mem_cons] at hFairs ⊢
      rw [hFair, hFairs]

theorem split_close {close : Close} (hRow : db.escrows[escrowId]? = some row)
    (hBuyer : row.buyerWalletId = some buyer) (hSeller : row.sellerWalletId = some seller)
    (hSound : row.Sound) (h : close.run escrowId db = some db') :
    ∃ (rows : List Transaction) (row' : EscrowContract),
      Split escrowId buyer seller rows row row' db db' ∧
      ((∀ t ∈ rows, Fair t) ↔ FeesFit (close.releases (row.amount - row.releasedAmount))) := by
  -- A dispute comes before a resolution, and changes nothing but the status.
  have hOpened : ∀ {resolution : Bool} {db₁ : EscrowDb},
      db.disputeBefore escrowId resolution = some db₁ →
      ∃ row₁, Split escrowId buyer seller [] row row₁ db db₁ ∧
        row₁.amount - row₁.releasedAmount = row.amount - row.releasedAmount := by
    intro resolution db₁ hDispute
    cases resolution with
    | false =>
      rw [EscrowDb.disputeBefore, if_neg Bool.false_ne_true, Option.some.injEq] at hDispute
      subst hDispute
      exact ⟨row, split_refl hRow hBuyer hSeller hSound, rfl⟩
    | true =>
      rw [EscrowDb.disputeBefore, if_pos rfl] at hDispute
      exact ⟨_, split_disputeTx hRow hBuyer hSeller hSound hDispute, rfl⟩
  cases close with
  | nothing =>
    rw [Close.run, Option.some.injEq] at h
    subst h
    exact ⟨[], row, split_refl hRow hBuyer hSeller hSound, by simp [FeesFit, Close.releases]⟩
  | release rules resolution now =>
    simp only [Close.run, Option.bind_eq_bind, Option.bind_eq_some_iff] at h
    obtain ⟨db₁, hDispute, escrow, hEscrow, hTx⟩ := h
    obtain ⟨row₁, hSplit, hLeft⟩ := hOpened hDispute
    obtain rfl : row₁ = escrow := Option.some.inj (hSplit.contract.symm.trans hEscrow)
    rcases split_executeRelease hEscrow hSplit.buyer_eq hSplit.seller_eq hSplit.sound hTx with
      ⟨hAll, hClosed⟩ | ⟨t, hSome, hClosed, hFair⟩
    · refine ⟨[], _, hSplit.trans hClosed, ?_⟩
      rw [Close.releases, if_neg (by omega)]
      simp [FeesFit]
    · refine ⟨[t], _, hSplit.trans hClosed, ?_⟩
      rw [Close.releases, if_pos (by omega), ← hLeft]
      simp [FeesFit, hFair]
  | refund resolution now =>
    simp only [Close.run, Option.bind_eq_bind, Option.bind_eq_some_iff] at h
    obtain ⟨db₁, hDispute, escrow, hEscrow, hTx⟩ := h
    obtain ⟨row₁, hSplit, -⟩ := hOpened hDispute
    obtain rfl : row₁ = escrow := Option.some.inj (hSplit.contract.symm.trans hEscrow)
    obtain ⟨t, hClosed, hFair⟩ :=
      split_executeRefund hEscrow hSplit.buyer_eq hSplit.seller_eq hSplit.sound hTx
    refine ⟨[t], _, hSplit.trans hClosed, ?_⟩
    simp [FeesFit, Close.releases, hFair]

/-- Once an escrow is settled, what its seller and the platform were paid and what its buyer got
back make up its amount, and that is what the wallets show. No release takes money from the seller
exactly when every fee fits into what is released under it. -/
theorem settled_escrow_splits {buyerId : UserId} {parts : List Part} {close : Close}
    (hRow : db.escrows[escrowId]? = some row) (hBuyer : row.buyerWalletId = some buyer)
    (hSeller : row.sellerWalletId = some seller) (hSound : row.Sound)
    (hHolds : row.status.holdsMoney = true) (hFresh : row.releasedAmount = 0)
    (h : settle escrowId buyerId parts close db = some db')
    (hSettled : db'.isLocked escrowId = false) :
    ∃ rows, db'.bank.transactions = db.bank.transactions ++ rows ∧
      paidToSeller rows + paidToPlatform rows + unlockedForBuyer rows = row.amount ∧
      (∀ id, db'.bank.balanceOf id = db.bank.balanceOf id +
        ((if id = seller then paidToSeller rows else 0) +
          (if db.bank.platform = some id then paidToPlatform rows else 0) -
          if id = buyer then paidToSeller rows + paidToPlatform rows else 0)) ∧
      (∀ id, db'.bank.lockedOf id = db.bank.lockedOf id + -if id = buyer then row.amount else 0) ∧
      ((∀ t ∈ rows, Fair t) ↔ FeesFit (releases row.amount parts close)) := by
  obtain ⟨db₁, hParts, hClose⟩ := Option.bind_eq_some_iff.mp h
  obtain ⟨rows₁, row₁, hSplit₁, hReleased, hFair₁⟩ :=
    split_payParts hRow hBuyer hSeller hSound hParts
  obtain ⟨rows₂, row₂, hSplit₂, hFair₂⟩ :=
    split_close hSplit₁.contract hSplit₁.buyer_eq hSplit₁.seller_eq hSplit₁.sound hClose
  have hSplit := hSplit₁.trans hSplit₂
  have hNothing : row₂.lockedPart = 0 := by
    apply EscrowContract.lockedPart_of_settled
    simpa [EscrowDb.isLocked, hSplit.contract] using hSettled
  have hTotal := hSplit.spent
  rw [hNothing, add_zero, EscrowContract.lockedPart_of_holds hHolds, hFresh, sub_zero] at hTotal
  refine ⟨rows₁ ++ rows₂, hSplit.moves.transactions_eq, hTotal, hSplit.moves.balance_eq, ?_, ?_⟩
  · intro id
    rw [hSplit.moves.locked_eq, hTotal]
  · rw [hSplit₁.amount_eq, hReleased, hFresh, zero_add] at hFair₂
    simp only [List.forall_mem_append, FeesFit, releases] at hFair₁ hFair₂ ⊢
    rw [hFair₁, hFair₂]

end Splits

def escrowOfThirty : EscrowContract :=
  ⟨1, 2, some 1, some 2, Wallets.toUnits 30, 0, .active, 0, 0, 0⟩

/-- User 1 has locked 30 FARM for user 2; wallet 0 is the platform's. -/
def thirtyLocked : EscrowDb where
  bank :=
    { wallets := fun id =>
        if id ≤ 2 then some ⟨Wallets.toUnits 100, if id = 1 then Wallets.toUnits 30 else 0, false⟩ else none
      platform := some 0
      transactions := []
      ledger := [] }
  findUser := fun _ => none
  activeWallet := some
  escrows := [escrowOfThirty]

/-- The release of an escrow costs 1.5%, and at least 1 FARM. -/
def atLeastOne : FeeRules
  | .escrowRelease => ⟨3 / 2, 0, 1, 0⟩
  | key => FEE_DEFAULTS key

/-- Half a FARM is released, then the rest. -/
theorem seller_pays_for_release :
    ∃ db', settle 0 1 [⟨atLeastOne, 1 / 2, 0⟩] (.release atLeastOne false 0) thirtyLocked =
        some db' ∧ db'.isLocked 0 = false ∧
      ∃ t ∈ db'.bank.transactions, t.netAmount = Wallets.toUnits (-1 / 2) ∧ t.fee = Wallets.toUnits 1 ∧
        t.amount = Wallets.toUnits (1 / 2) := by
  have hRun : (settle 0 1 [⟨atLeastOne, 1 / 2, 0⟩] (.release atLeastOne false 0)
      thirtyLocked).any (fun db' => !db'.isLocked 0 && db'.bank.transactions.any fun t =>
        t.netAmount == Wallets.toUnits (-1 / 2) && t.fee == Wallets.toUnits 1 && t.amount == Wallets.toUnits (1 / 2)) =
          true := by
    decide +kernel
  rw [Option.any_eq_true] at hRun
  obtain ⟨db', hSettle, hEnd⟩ := hRun
  rw [Bool.and_eq_true, Bool.not_eq_true', List.any_eq_true] at hEnd
  obtain ⟨hSettled, t, hMem, hRow⟩ := hEnd
  simp only [Bool.and_eq_true, beq_iff_eq] at hRow
  exact ⟨db', hSettle, hSettled, t, hMem, hRow.1.1, hRow.1.2, hRow.2⟩

/-- Ten FARM and five FARM are released, and the admin refunds the other fifteen. -/
theorem thirty_locked_splits :
    ∃ db', settle 0 1 [⟨atLeastOne, 10, 0⟩, ⟨FEE_DEFAULTS, 5, 0⟩] (.refund true 0) thirtyLocked =
        some db' ∧
      ∃ rows, paidToSeller rows + paidToPlatform rows + unlockedForBuyer rows = Wallets.toUnits 30 ∧
        ∀ t ∈ rows, Fair t := by
  have hRun : (settle 0 1 [⟨atLeastOne, 10, 0⟩, ⟨FEE_DEFAULTS, 5, 0⟩] (.refund true 0)
      thirtyLocked).any (fun db' => !db'.isLocked 0) = true := by
    decide +kernel
  rw [Option.any_eq_true] at hRun
  obtain ⟨db', hSettle, hEnd⟩ := hRun
  rw [Bool.not_eq_true'] at hEnd
  have hFits : FeesFit (releases (Wallets.toUnits 30) [⟨atLeastOne, 10, 0⟩, ⟨FEE_DEFAULTS, 5, 0⟩]
      (.refund true 0)) := by
    simp only [FeesFit, releases, Close.releases, List.map_cons, List.map_nil, List.append_nil,
      List.forall_mem_cons]
    refine ⟨?_, ?_, List.forall_mem_nil _⟩
    · decide +kernel
    · decide +kernel
  have hRow : thirtyLocked.escrows[0]? = some escrowOfThirty := rfl
  have hSound : escrowOfThirty.Sound := by
    refine ⟨⟨1, rfl⟩, le_rfl, ?_, EscrowStatus.noConfusion, EscrowStatus.noConfusion⟩
    decide +kernel
  obtain ⟨rows, -, hTotal, -, -, hFair⟩ :=
    settled_escrow_splits hRow rfl rfl hSound rfl rfl hSettle hEnd
  exact ⟨db', hSettle, rows, hTotal, hFair.mpr hFits⟩

end FarmBackend.Escrow
