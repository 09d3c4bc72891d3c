import FarmBackend.EscrowRuns

/-!
# What the open escrows hold

Every step leaves the contracts as they are, opens one, or changes one that still holds money,
and the buyer's locked balance moves by exactly what that contract now holds more or less.
-/

namespace FarmBackend.Escrow
open Decimal Fees Wallets Rows Interleaving

set_option autoImplicit false

/-- The contracts a run can produce. -/
structure EscrowContract.Sound (row : EscrowContract) : Prop where
  owned : ∃ owner, row.buyerWalletId = some owner
  released_nonneg : 0 ≤ row.releasedAmount
  released_le : row.releasedAmount ≤ row.amount
  funded : row.status ≠ .pending ∧ row.status ≠ .cancelled

/-- The step leaves the money alone or books one transaction, about this contract. -/
def Books (escrowId : ℕ) (bank bank' : Bank) : Prop :=
  bank' = bank ∨ ∃ txn : Transaction, txn.escrowId = some escrowId ∧
    bank'.transactions = bank.transactions ++ [txn]

/-- All that a step can do. -/
inductive Effect (db db' : EscrowDb) : Prop where
  | stays (hSame : db' = db)
  | opens (row : EscrowContract) (owner : WalletId)
      (hRows : db'.escrows = db.escrows ++ [row]) (hOwner : row.buyerWalletId = some owner)
      (hSound : row.Sound) (hHolds : row.status.holdsMoney = true)
      (hLocks : Bank.LocksBy owner row.lockedPart db.bank db'.bank)
      (hBooks : Books db.escrows.length db.bank db'.bank)
  | changes (escrowId : ℕ) (row : EscrowContract) (f : EscrowContract → EscrowContract)
      (owner : WalletId) (hRow : db.escrows[escrowId]? = some row)
      (hHolds : row.status.holdsMoney = true) (hRows : db'.escrows = db.escrows.modify escrowId f)
      (hOwner : row.buyerWalletId = some owner) (hKeeps : (f row).buyerWalletId = some owner)
      (hSound : (f row).Sound)
      (hLocks : Bank.LocksBy owner ((f row).lockedPart - row.lockedPart) db.bank db'.bank)
      (hBooks : Books escrowId db.bank db'.bank)

/-- A contract read earlier names the wallet the row names. -/
def Matches (db : EscrowDb) (escrowId : ℕ) (escrow : EscrowContract) : Prop :=
  ∃ row, db.escrows[escrowId]? = some row ∧ row.buyerWalletId = escrow.buyerWalletId

theorem eq_zero_of_toNumber_nonpos {n : ℤ} (hNonneg : 0 ≤ n) (h : toNumber n ≤ 0) : n = 0 := by
  by_contra hNe
  exact absurd h (not_le.mpr (value_pos.mpr (by omega)))

theorem remainingAmount_sound {row : EscrowContract} (h : row.Sound) :
    remainingAmount row.amount row.releasedAmount = toNumber (row.amount - row.releasedAmount) := by
  rw [remainingAmount_eq, max_eq_right (sub_nonneg.mpr h.released_le)]

theorem holdsMoney_claimable (resolution : Bool) :
    (EscrowDb.claimable resolution).holdsMoney = true := by
  cases resolution <;> rfl

namespace EscrowContract
variable {row : EscrowContract}

theorem lockedPart_of_holds (h : row.status.holdsMoney = true) :
    row.lockedPart = row.amount - row.releasedAmount := by
  rw [lockedPart, if_pos h]

theorem lockedPart_of_settled (h : row.status.holdsMoney = false) : row.lockedPart = 0 := by
  rw [lockedPart, if_neg (by simp [h])]

theorem Sound.lockedPart_nonneg (h : row.Sound) : 0 ≤ row.lockedPart := by
  have hLe := h.released_le
  unfold lockedPart
  split <;> omega

theorem Sound.withStatus (h : row.Sound) (status : EscrowStatus)
    (hStatus : status ≠ .pending ∧ status ≠ .cancelled) :
    ({ row with status := status } : EscrowContract).Sound :=
  ⟨h.owned, h.released_nonneg, h.released_le, hStatus⟩

/-- What a contract that holds money gives up when it settles. -/
theorem lockedPart_settle {status : EscrowStatus} (hHolds : row.status.holdsMoney = true)
    (hStatus : status.holdsMoney = false) :
    ({ row with status := status } : EscrowContract).lockedPart - row.lockedPart =
      -(row.amount - row.releasedAmount) := by
  rw [lockedPart_of_holds hHolds, lockedPart_of_settled hStatus, zero_sub]

end EscrowContract

section Transactions
variable {db db' : EscrowDb} {rules : FeeRules} {escrowId : ℕ} {escrow : EscrowContract}
  {resolution : Bool} {now : Time}

theorem effect_createTx {buyerId sellerId : UserId} {dto : CreateDto}
    {buyerWalletId sellerWalletId : WalletId} {fee : ℚ} {autoReleaseAt : Time}
    (hAmount : 0 < dto.amount)
    (hLocked : ∀ w, db.bank.wallets buyerWalletId = some w → 0 ≤ w.lockedBalance)
    (h : db.createTx buyerId dto buyerWalletId sellerId sellerWalletId fee autoReleaseAt now =
      some db') : Effect db db' := by
  simp only [EscrowDb.createTx, Option.bind_eq_bind, Option.bind_eq_some_iff] at h
  obtain ⟨w, hw, h⟩ := h
  split at h
  · cases h
  simp only [Option.pure_def, Option.bind_eq_some_iff, Option.some.injEq] at h
  obtain ⟨bank₁, hUpdate, bank₂, hFee, rfl⟩ := h
  have hUnits : 0 ≤ toUnits dto.amount := column_nonneg hAmount.le
  have hHold : Bank.LocksBy buyerWalletId (toUnits dto.amount) db.bank bank₁ := by
    refine Bank.locksBy_walletsUpdate ?_ hUpdate
    intro w hWallet
    exact column_value_add (hLocked w hWallet) hAmount.le
  have hFees := Bank.keepsLocks_creditPlatformInTx hFee
  have hTransactions := (Bank.rest_creditPlatformInTx hFee).2
  rw [Bank.transactionsCreate, (Bank.rest_walletsUpdate hUpdate).2.1] at hTransactions
  refine .opens _ buyerWalletId rfl rfl ⟨⟨_, rfl⟩, le_rfl, hUnits, ?_⟩ rfl ?_
    (.inr ⟨_, rfl, hTransactions⟩)
  · exact ⟨EscrowStatus.noConfusion, EscrowStatus.noConfusion⟩
  · simpa [EscrowContract.lockedPart, EscrowStatus.holdsMoney] using hHold.trans hFees

theorem effect_executeRelease (hSound : ∀ row ∈ db.escrows, row.Sound)
    (hMatches : Matches db escrowId escrow)
    (h : db.executeRelease rules escrowId escrow resolution now = some db') : Effect db db' := by
  simp only [EscrowDb.executeRelease, Option.bind_eq_bind, Option.bind_eq_some_iff] at h
  obtain ⟨buyerWalletId, hBuyer, sellerWalletId, hSeller, h⟩ := h
  split at h
  · cases h
  simp only [Option.pure_def, Option.bind_eq_some_iff] at h
  obtain ⟨fresh, hFresh, h⟩ := h
  obtain ⟨row, hRow, hWallet⟩ := hMatches
  obtain rfl : row = fresh := Option.some.inj (hRow.symm.trans hFresh)
  split at h
  · rename_i hStatus
    have hRowSound := hSound row (List.mem_of_getElem? hRow)
    have hHolds : row.status.holdsMoney = true := hStatus ▸ holdsMoney_claimable resolution
    have hOwner : row.buyerWalletId = some buyerWalletId := hWallet.trans hBuyer
    have hCompleted := hRowSound.withStatus .completed
      ⟨EscrowStatus.noConfusion, EscrowStatus.noConfusion⟩
    have hSettled : EscrowStatus.completed.holdsMoney = false := rfl
    have hPart := EscrowContract.lockedPart_settle hHolds hSettled
    simp only [remainingAmount_sound hRowSound] at h
    split at h
    · rename_i hNothing
      have hZero : row.amount - row.releasedAmount = 0 :=
        eq_zero_of_toNumber_nonpos (sub_nonneg.mpr hRowSound.released_le) hNothing
      simp only [Option.some.injEq] at h
      subst h
      refine .changes escrowId row _ buyerWalletId hRow hHolds rfl hOwner hOwner hCompleted ?_
        (.inl rfl)
      rw [hPart, hZero, neg_zero]
      exact Bank.LocksBy.refl _ _
    · simp only [Option.bind_eq_some_iff, Option.some.injEq] at h
      obtain ⟨bank', hPay, rfl⟩ := h
      refine .changes escrowId row _ buyerWalletId hRow hHolds rfl hOwner hOwner hCompleted ?_
        (.inr (transactions_payRelease hPay))
      rw [hPart]
      exact locks_payRelease hPay
  · cases h

theorem effect_executeRefund (hSound : ∀ row ∈ db.escrows, row.Sound)
    (hMatches : Matches db escrowId escrow)
    (h : db.executeRefund escrowId escrow resolution now = some db') : Effect db db' := by
  simp only [EscrowDb.executeRefund, Option.bind_eq_bind, Option.bind_eq_some_iff] at h
  obtain ⟨fresh, hFresh, h⟩ := h
  obtain ⟨row, hRow, hWallet⟩ := hMatches
  obtain rfl : row = fresh := Option.some.inj (hRow.symm.trans hFresh)
  split at h
  · rename_i hStatus
    have hRowSound := hSound row (List.mem_of_getElem? hRow)
    have hHolds : row.status.holdsMoney = true := hStatus ▸ holdsMoney_claimable resolution
    have hRefunded := hRowSound.withStatus .refunded
      ⟨EscrowStatus.noConfusion, EscrowStatus.noConfusion⟩
    have hSettled : EscrowStatus.refunded.holdsMoney = false := rfl
    have hPart := EscrowContract.lockedPart_settle hHolds hSettled
    simp only [remainingAmount_sound hRowSound, Option.bind_eq_some_iff, Option.pure_def,
      Option.some.injEq] at h
    obtain ⟨buyerWalletId, hBuyer, bank₁, hUpdate, rfl⟩ := h
    have hOwner : row.buyerWalletId = some buyerWalletId := hWallet.trans hBuyer
    have hUnlock : Bank.LocksBy buyerWalletId (-(row.amount - row.releasedAmount)) db.bank bank₁ := by
      refine Bank.locksBy_walletsUpdate ?_ hUpdate
      intro w _
      rw [Wallet.decrementLocked_toNumber, sub_eq_add_neg]
    have hTransactions := (Bank.rest_walletsUpdate hUpdate).2.1
    refine .changes escrowId row _ buyerWalletId hRow hHolds rfl hOwner hOwner hRefunded ?_
      (.inr ⟨_, ?_, congrArg (· ++ [_]) hTransactions⟩)
    · rw [hPart]
      exact hUnlock.trans (Bank.keepsLocks_transactionsCreate _ _)
    · rfl
  · cases h

theorem effect_releasePartialTx {n : ℤ} (hPositive : 0 < n)
    (hSound : ∀ row ∈ db.escrows, row.Sound) (hMatches : Matches db escrowId escrow)
    (h : db.releasePartialTx rules escrowId escrow (toNumber n) now = some db') :
    Effect db db' := by
  simp only [EscrowDb.releasePartialTx, Option.bind_eq_bind, Option.bind_eq_some_iff] at h
  obtain ⟨buyerWalletId, hBuyer, sellerWalletId, hSeller, fresh, hFresh, h⟩ := h
  obtain ⟨row, hRow, hWallet⟩ := hMatches
  obtain rfl : row = fresh := Option.some.inj (hRow.symm.trans hFresh)
  split at h
  · rename_i hClaim
    obtain ⟨hActive, hFits⟩ := hClaim
    have hRowSound := hSound row (List.mem_of_getElem? hRow)
    have hNonneg := hRowSound.released_nonneg
    have hHolds : row.status.holdsMoney = true := by rw [hActive]; rfl
    have hOwner : row.buyerWalletId = some buyerWalletId := hWallet.trans hBuyer
    simp only [value_add, value_le_value, column_value] at hFits h
    simp only [Option.bind_eq_some_iff, Option.pure_def, Option.some.injEq] at h
    obtain ⟨bank', hPay, rfl⟩ := h
    have hLeft : remainingAmount row.amount (row.releasedAmount + n) =
        toNumber (row.amount - (row.releasedAmount + n)) := by
      rw [remainingAmount_eq, max_eq_right (by omega)]
    refine .changes escrowId row _ buyerWalletId hRow hHolds rfl hOwner hOwner ?_ ?_
      (.inr (transactions_payRelease hPay))
    · refine ⟨⟨_, hOwner⟩, add_nonneg hNonneg hPositive.le, hFits, ?_⟩
      dsimp only
      split
      · exact ⟨EscrowStatus.noConfusion, EscrowStatus.noConfusion⟩
      · exact hRowSound.funded
    · have hUnlock := locks_payRelease hPay
      have hPart : row.amount - (row.releasedAmount + n) - (row.amount - row.releasedAmount) = -n := by
        ring
      rw [EscrowContract.lockedPart_of_holds hHolds]
      by_cases hDone : remainingAmount row.amount (row.releasedAmount + n) ≤ 0
      · -- The last part: the contract completes and there was exactly `n` left.
        have hZero : row.amount - (row.releasedAmount + n) = 0 :=
          eq_zero_of_toNumber_nonpos (sub_nonneg.mpr hFits) (hLeft ▸ hDone)
        rw [EscrowContract.lockedPart_of_settled (by simp only [if_pos hDone]; rfl), ← hZero, hPart]
        exact hUnlock
      · rw [EscrowContract.lockedPart_of_holds (by simp only [if_neg hDone]; exact hHolds), hPart]
        exact hUnlock
  · cases h

theorem effect_disputeTx (hSound : ∀ row ∈ db.escrows, row.Sound)
    (h : db.disputeTx escrowId = some db') : Effect db db' := by
  simp only [EscrowDb.disputeTx, Option.bind_eq_bind, Option.bind_eq_some_iff] at h
  obtain ⟨row, hRow, h⟩ := h
  split at h
  · rename_i hActive
    simp only [Option.pure_def, Option.some.injEq] at h
    subst h
    have hRowSound := hSound row (List.mem_of_getElem? hRow)
    obtain ⟨owner, hOwner⟩ := hRowSound.owned
    have hHolds : row.status.holdsMoney = true := by rw [hActive]; rfl
    have hHolds' : EscrowStatus.disputed.holdsMoney = true := rfl
    refine .changes escrowId row _ owner hRow hHolds rfl hOwner hOwner
      (hRowSound.withStatus .disputed ⟨EscrowStatus.noConfusion, EscrowStatus.noConfusion⟩) ?_
      (.inl rfl)
    rw [EscrowContract.lockedPart_of_holds hHolds, EscrowContract.lockedPart_of_holds hHolds',
      sub_self]
    exact Bank.LocksBy.refl _ _
  · cases h

end Transactions

/-! What a call has read stays true of the row it read. -/

def Knows (db : EscrowDb) : Call → Prop
  | .createSeller _ dto _ _ => 0 < dto.amount
  | .createDuplicate _ dto _ _ _ _ => 0 < dto.amount
  | .createFee _ dto _ _ _ _ => 0 < dto.amount
  | .createTx _ dto _ _ _ _ _ => 0 < dto.amount
  | .executeRelease escrowId escrow _ => Matches db escrowId escrow
  | .executeRefund escrowId escrow _ => Matches db escrowId escrow
  | .releasePartialTx escrowId escrow part =>
    Matches db escrowId escrow ∧ ∃ n : ℤ, 0 < n ∧ part = toNumber n
  | .cancelUpdate _ => False
  | .autoReleases expired => ∀ entry ∈ expired, Matches db entry.1 entry.2
  | _ => True

section Effects
variable {db₀ db db' : EscrowDb}

theorem Effect.matches {escrowId : ℕ} {escrow : EscrowContract} (h : Effect db db')
    (hMatches : Matches db escrowId escrow) : Matches db' escrowId escrow := by
  obtain ⟨row, hRow, hWallet⟩ := hMatches
  cases h with
  | stays hSame => exact ⟨row, hSame ▸ hRow, hWallet⟩
  | opens new owner hRows =>
    exact ⟨row, by rw [hRows]; exact getElem?_append_of_some hRow, hWallet⟩
  | changes changed old f owner hOld hHolds hRows hOwner hKeeps =>
    by_cases hId : changed = escrowId
    · subst hId
      obtain rfl : old = row := Option.some.inj (hOld.symm.trans hRow)
      refine ⟨f old, ?_, hKeeps.trans (hOwner.symm.trans hWallet)⟩
      rw [hRows]
      exact getElem?_modify_self f hOld
    · exact ⟨row, by rw [hRows, getElem?_modify_ne f hId]; exact hRow, hWallet⟩

theorem Effect.knows {call : Call} (h : Effect db db') (hKnows : Knows db call) :
    Knows db' call := by
  cases call with
  | executeRelease => exact h.matches hKnows
  | executeRefund => exact h.matches hKnows
  | releasePartialTx => exact ⟨h.matches hKnows.1, hKnows.2⟩
  | autoReleases => exact fun entry hMem => h.matches (hKnows entry hMem)
  | _ => exact hKnows

/-- Locked balances are what they were in `db₀` plus what the open escrows hold. -/
structure Accounted (db₀ db : EscrowDb) : Prop where
  sound : ∀ row ∈ db.escrows, row.Sound
  locks : ∀ walletId w, db.bank.wallets walletId = some w →
    ∃ w₀, db₀.bank.wallets walletId = some w₀ ∧
      w.lockedBalance = w₀.lockedBalance + db.lockedFor walletId

theorem lockedFor_nonneg (hSound : ∀ row ∈ db.escrows, row.Sound) (walletId : WalletId) :
    0 ≤ db.lockedFor walletId := by
  refine List.sum_nonneg ?_
  intro part hMem
  obtain ⟨row, hRow, rfl⟩ := List.mem_map.mp hMem
  unfold EscrowContract.lockedIn
  split
  · exact (hSound row hRow).lockedPart_nonneg
  · exact le_rfl

theorem lockedIn_eq {row : EscrowContract} {owner : WalletId} (h : row.buyerWalletId = some owner)
    (walletId : WalletId) :
    row.lockedIn walletId = if walletId = owner then row.lockedPart else 0 := by
  simp only [EscrowContract.lockedIn, h, Option.some.injEq, eq_comm]

/-- A step moves the locked balances by what it moves in the contracts. -/
theorem Effect.accounted (h : Effect db db') (hAcc : Accounted db₀ db) : Accounted db₀ db' := by
  cases h with
  | stays hSame => exact hSame ▸ hAcc
  | opens row owner hRows hOwner hSound hHolds hLocks =>
    refine ⟨?_, ?_⟩
    · intro other hMem
      rcases List.mem_append.mp (hRows ▸ hMem) with hOld | hNew
      · exact hAcc.sound other hOld
      · exact List.mem_singleton.mp hNew ▸ hSound
    · intro walletId w' hw'
      obtain ⟨w, hw, hMoved⟩ := hLocks walletId w' hw'
      obtain ⟨w₀, hw₀, hLocked⟩ := hAcc.locks walletId w hw
      refine ⟨w₀, hw₀, ?_⟩
      have hTotal : db'.lockedFor walletId = db.lockedFor walletId + row.lockedIn walletId := by
        rw [EscrowDb.lockedFor, hRows, sum_map_insert, EscrowDb.lockedFor]
      rw [hMoved, hLocked, hTotal, lockedIn_eq hOwner, add_assoc]
  | changes escrowId row f owner hRow hHolds hRows hOwner hKeeps hSound hLocks =>
    refine ⟨?_, ?_⟩
    · intro other hMem
      obtain ⟨id, hId⟩ := List.mem_iff_getElem?.mp (hRows ▸ hMem)
      rcases getElem?_modify_cases hId with ⟨-, old, hOld, rfl⟩ | ⟨-, hOld⟩
      · exact Option.some.inj (hRow.symm.trans hOld) ▸ hSound
      · exact hAcc.sound other (List.mem_of_getElem? hOld)
    · intro walletId w' hw'
      obtain ⟨w, hw, hMoved⟩ := hLocks walletId w' hw'
      obtain ⟨w₀, hw₀, hLocked⟩ := hAcc.locks walletId w hw
      refine ⟨w₀, hw₀, ?_⟩
      have hTotal : db'.lockedFor walletId =
          db.lockedFor walletId + ((f row).lockedIn walletId - row.lockedIn walletId) := by
        rw [EscrowDb.lockedFor, hRows, sum_map_modify _ f hRow, EscrowDb.lockedFor]
      rw [hMoved, hLocked, hTotal, lockedIn_eq hKeeps, lockedIn_eq hOwner, add_assoc]
      split <;> simp

theorem matches_expired {now : Time} {entry : ℕ × EscrowContract}
    (h : entry ∈ db.expired now) : Matches db entry.1 entry.2 := by
  obtain ⟨⟨row, id⟩, hMem, hEntry⟩ := List.mem_filterMap.mp h
  simp only [Option.ite_none_right_eq_some, Option.some.injEq] at hEntry
  obtain ⟨-, rfl⟩ := hEntry
  exact ⟨row, List.mk_mem_zipIdx_iff_getElem?.mp hMem, rfl⟩

/-- Every step has an effect, and the call knows what its next step needs. -/
theorem effect_of_step {o : Outcome} {call call' : Call}
    (hStart : ∀ walletId w, db₀.bank.wallets walletId = some w → 0 ≤ w.lockedBalance)
    (hAcc : Accounted db₀ db) (hKnows : Knows db call)
    (hStep : step o db call = some (db', call')) : Effect db db' ∧ Knows db' call' := by
  have hLocked : ∀ walletId w, db.bank.wallets walletId = some w → 0 ≤ w.lockedBalance := by
    intro walletId w hw
    obtain ⟨w₀, hw₀, hEq⟩ := hAcc.locks walletId w hw
    have hBase := hStart walletId w₀ hw₀
    have hHeld := lockedFor_nonneg hAcc.sound walletId
    omega
  have hSelf : ∀ escrowId row, db.escrows[escrowId]? = some row → Matches db escrowId row :=
    fun _ row hRow => ⟨row, hRow, rfl⟩
  cases call with
  | autoReleases expired =>
    cases expired with
    | nil =>
      simp only [step, Option.some.injEq, Prod.mk.injEq] at hStep
      obtain ⟨rfl, rfl⟩ := hStep
      exact ⟨.stays rfl, trivial⟩
    | cons entry expired =>
      have hRest : ∀ other ∈ expired, Matches db other.1 other.2 :=
        fun other hMem => hKnows other (List.mem_cons_of_mem entry hMem)
      simp only [step] at hStep
      split at hStep
      · simp only [Option.some.injEq, Prod.mk.injEq] at hStep
        obtain ⟨rfl, rfl⟩ := hStep
        exact ⟨.stays rfl, hRest⟩
      · rename_i db₁ hRelease
        simp only [Option.some.injEq, Prod.mk.injEq] at hStep
        obtain ⟨rfl, rfl⟩ := hStep
        rw [Option.ite_none_left_eq_some] at hRelease
        have hEffect := effect_executeRelease hAcc.sound (hKnows entry (by simp)) hRelease.2
        exact ⟨hEffect, fun other hMem => hEffect.matches (hRest other hMem)⟩
  | createTx buyerId dto buyerWalletId sellerId sellerWalletId fee autoReleaseAt =>
    obtain ⟨hTx, rfl⟩ := committed_eq_some.mp hStep
    exact ⟨effect_createTx hKnows (hLocked buyerWalletId) hTx, trivial⟩
  | executeRelease escrowId escrow resolution =>
    obtain ⟨hTx, rfl⟩ := committed_eq_some.mp hStep
    exact ⟨effect_executeRelease hAcc.sound hKnows hTx, trivial⟩
  | executeRefund escrowId escrow resolution =>
    obtain ⟨hTx, rfl⟩ := committed_eq_some.mp hStep
    exact ⟨effect_executeRefund hAcc.sound hKnows hTx, trivial⟩
  | releasePartialTx escrowId escrow part =>
    obtain ⟨hTx, rfl⟩ := committed_eq_some.mp hStep
    obtain ⟨hMatches, n, hPositive, rfl⟩ := hKnows
    exact ⟨effect_releasePartialTx hPositive hAcc.sound hMatches hTx, trivial⟩
  | disputeTx escrowId =>
    obtain ⟨hTx, rfl⟩ := committed_eq_some.mp hStep
    exact ⟨effect_disputeTx hAcc.sound hTx, trivial⟩
  | cancelUpdate escrowId => exact hKnows.elim
  | done => cases hStep
  | create buyerId dto =>
    simp only [step, Option.bind_eq_bind, Option.bind_eq_some_iff, Option.pure_def,
      Option.ite_none_right_eq_some, Option.some.injEq, Prod.mk.injEq] at hStep
    obtain ⟨buyerWalletId, hWallet, wallet, hRow, ⟨hValid, -⟩, rfl, rfl⟩ := hStep
    simp only [CreateDto.valid, Bool.and_eq_true, decide_eq_true_eq] at hValid
    exact ⟨.stays rfl, hValid.1.1.1.1⟩
  | createSeller buyerId dto buyerWalletId wallet =>
    simp only [step, Option.bind_eq_bind, Option.bind_eq_some_iff, Option.pure_def,
      Option.ite_none_right_eq_some, Option.some.injEq, Prod.mk.injEq] at hStep
    obtain ⟨sellerId, hSeller, sellerWalletId, hWallet, -, rfl, rfl⟩ := hStep
    exact ⟨.stays rfl, hKnows⟩
  | createDuplicate buyerId dto buyerWalletId wallet sellerId sellerWalletId =>
    simp only [step, Option.ite_none_right_eq_some, Option.some.injEq, Prod.mk.injEq] at hStep
    obtain ⟨-, rfl, rfl⟩ := hStep
    exact ⟨.stays rfl, hKnows⟩
  | createFee buyerId dto buyerWalletId wallet sellerId sellerWalletId =>
    simp only [step, Option.ite_none_right_eq_some, Option.some.injEq, Prod.mk.injEq] at hStep
    obtain ⟨-, rfl, rfl⟩ := hStep
    exact ⟨.stays rfl, hKnows⟩
  | release escrowId buyerId =>
    simp only [step, Option.bind_eq_bind, Option.bind_eq_some_iff, Option.pure_def,
      Option.ite_none_right_eq_some, Option.some.injEq, Prod.mk.injEq] at hStep
    obtain ⟨row, hRow, -, rfl, rfl⟩ := hStep
    exact ⟨.stays rfl, hSelf escrowId row hRow⟩
  | releasePartial escrowId buyerId amount =>
    simp only [step, Option.bind_eq_bind, Option.bind_eq_some_iff, Option.pure_def,
      Option.ite_none_right_eq_some, Option.some.injEq, Prod.mk.injEq] at hStep
    obtain ⟨row, hRow, part, hPart, -, rfl, rfl⟩ := hStep
    exact ⟨.stays rfl, hSelf escrowId row hRow, part_of_releasePartialChecks hPart⟩
  | dispute escrowId userId =>
    simp only [step, Option.bind_eq_bind, Option.bind_eq_some_iff, Option.pure_def,
      Option.ite_none_right_eq_some, Option.some.injEq, Prod.mk.injEq] at hStep
    obtain ⟨row, hRow, -, rfl, rfl⟩ := hStep
    exact ⟨.stays rfl, trivial⟩
  | cancel escrowId userId =>
    simp only [step, Option.bind_eq_bind, Option.bind_eq_some_iff, Option.pure_def,
      Option.ite_none_right_eq_some, Option.some.injEq, Prod.mk.injEq] at hStep
    -- No contract of a run is pending, so `cancel` never gets past its check.
    obtain ⟨row, hRow, ⟨-, hPending⟩, -⟩ := hStep
    exact absurd hPending (hAcc.sound row (List.mem_of_getElem? hRow)).funded.1
  | resolveDispute escrowId winner =>
    simp only [step, Option.bind_eq_bind, Option.bind_eq_some_iff, Option.pure_def,
      Option.ite_none_right_eq_some, Option.some.injEq, Prod.mk.injEq] at hStep
    obtain ⟨row, hRow, -, rfl, rfl⟩ := hStep
    cases winner with
    | buyer => exact ⟨.stays rfl, hSelf escrowId row hRow⟩
    | seller => exact ⟨.stays rfl, hSelf escrowId row hRow⟩
  | processAutoReleases =>
    simp only [step, Option.some.injEq, Prod.mk.injEq] at hStep
    obtain ⟨rfl, rfl⟩ := hStep
    exact ⟨.stays rfl, fun entry hMem => matches_expired hMem⟩

theorem Effect.settled {escrowId : ℕ} {row : EscrowContract} (h : Effect db db')
    (hRow : db.escrows[escrowId]? = some row) (hSettled : row.status.holdsMoney = false) :
    db'.escrows[escrowId]? = some row ∧ ∃ other, other ≠ escrowId ∧ Books other db.bank db'.bank := by
  obtain ⟨hLt, -⟩ := List.getElem?_eq_some_iff.mp hRow
  cases h with
  | stays hSame =>
    subst hSame
    exact ⟨hRow, escrowId + 1, by omega, .inl rfl⟩
  | opens new owner hRows _ _ _ _ hBooks =>
    rw [hRows]
    exact ⟨getElem?_append_of_some hRow, db.escrows.length, by omega, hBooks⟩
  | changes changed old f owner hOld hHolds hRows _ _ _ _ hBooks =>
    have hId : changed ≠ escrowId := by
      rintro rfl
      obtain rfl : old = row := Option.some.inj (hOld.symm.trans hRow)
      simp [hSettled] at hHolds
    rw [hRows, getElem?_modify_ne f hId]
    exact ⟨hRow, changed, hId, hBooks⟩

theorem isCreated_of_isLocked {escrowId : ℕ} (h : db.isLocked escrowId = true) :
    db.isCreated escrowId = true := by
  unfold EscrowDb.isLocked at h
  unfold EscrowDb.isCreated
  split at h
  · cases h
  · rename_i row hRow
    rw [hRow]
    rfl

theorem Effect.locked (h : Effect db db') (escrowId : ℕ) :
    (db.isCreated escrowId = true → db'.isCreated escrowId = true ∧
      (db.isLocked escrowId = false → db'.isLocked escrowId = false)) ∧
    (db.isCreated escrowId = false → db'.isCreated escrowId = true →
      db'.isLocked escrowId = true) := by
  refine ⟨?_, ?_⟩
  · intro hCreated
    obtain ⟨row, hRow⟩ := Option.isSome_iff_exists.mp hCreated
    refine ⟨?_, ?_⟩
    · cases h with
      | stays hSame => exact hSame ▸ hCreated
      | opens new owner hRows =>
        rw [EscrowDb.isCreated, hRows, getElem?_append_of_some hRow]
        rfl
      | changes changed old f owner hOld hHolds hRows =>
        simpa [EscrowDb.isCreated, hRows] using hCreated
    · intro hUnlocked
      simp only [EscrowDb.isLocked, hRow] at hUnlocked
      simp only [EscrowDb.isLocked, (h.settled hRow hUnlocked).1, hUnlocked]
  · intro hAbsent hCreated
    cases h with
    | stays hSame => simp [hSame, hAbsent] at hCreated
    | opens new owner hRows _ _ hHolds =>
      obtain ⟨row, hRow⟩ := Option.isSome_iff_exists.mp hCreated
      rcases getElem?_insert_cases (hRows ▸ hRow) with hOld | ⟨-, rfl⟩
      · simp [EscrowDb.isCreated, hOld] at hAbsent
      · simp only [EscrowDb.isLocked, hRow, hHolds]
    | changes changed old f owner hOld hHolds hRows =>
      simp [EscrowDb.isCreated, hRows] at hCreated hAbsent
      omega

end Effects

section Runs
variable {db₀ : EscrowDb} {c c' : Config EscrowDb Call}

theorem accounted_of_reaches (hFresh : db₀.escrows = [])
    (hStart : ∀ walletId w, db₀.bank.wallets walletId = some w → 0 ≤ w.lockedBalance)
    (h : program.Reaches anyStep (Program.idle db₀) c) :
    Accounted db₀ c.store ∧ ∀ call ∈ c.calls, Knows c.store call := by
  refine h.assertions (Accounted db₀) Knows ⟨⟨?_, ?_⟩, ?_⟩ ?_ ?_ ?_
  · simp [Program.idle, hFresh]
  · intro walletId w hw
    exact ⟨w, hw, by simp [Program.idle, EscrowDb.lockedFor, hFresh]⟩
  · simp [Program.idle]
  · intro request store _
    cases request <;> exact trivial
  · intro outcome store store' call call' hAcc hKnows _ hStep
    obtain ⟨hEffect, hNext⟩ := effect_of_step hStart hAcc hKnows hStep
    exact ⟨hEffect.accounted hAcc, hNext⟩
  · intro outcome store store' call call' other hAcc hKnows hOther _ hStep
    exact (effect_of_step hStart hAcc hKnows hStep).1.knows hOther

theorem effect_of_reaches (hFresh : db₀.escrows = [])
    (hStart : ∀ walletId w, db₀.bank.wallets walletId = some w → 0 ≤ w.lockedBalance)
    (h : program.Reaches anyStep (Program.idle db₀) c) (hStep : program.Step anyStep c c') :
    Effect c.store c'.store := by
  obtain ⟨hAcc, hKnows⟩ := accounted_of_reaches hFresh hStart h
  cases hStep with
  | enter request store calls => exact .stays rfl
  | call before after _ hCall =>
    exact (effect_of_step hStart hAcc (hKnows _ (by simp)) hCall).1

/-- Once settled, a contract keeps its row, and every later step books other contracts only. -/
theorem settled_of_reaches {escrowId : ℕ} {row : EscrowContract} (hFresh : db₀.escrows = [])
    (hStart : ∀ walletId w, db₀.bank.wallets walletId = some w → 0 ≤ w.lockedBalance)
    (h : program.Reaches anyStep (Program.idle db₀) c)
    (hRow : c.store.escrows[escrowId]? = some row) (hSettled : row.status.holdsMoney = false)
    (hLater : program.Reaches anyStep c c') : c'.store.escrows[escrowId]? = some row := by
  induction hLater with
  | refl => exact hRow
  | tail hRun hStep ih =>
    exact ((effect_of_reaches hFresh hStart (h.trans hRun) hStep).settled ih hSettled).1

end Runs

/-- User 1 funds escrows for user 2; wallet 0 is the platform's. -/
def twoUsers : EscrowDb where
  bank :=
    { wallets := fun id => if id ≤ 2 then some ⟨toUnits 100, 0, false⟩ else none
      platform := some 0
      transactions := []
      ledger := [] }
  findUser := fun identifier => if identifier = "seller" then some 2 else none
  activeWallet := fun userId => if userId = 1 ∨ userId = 2 then some userId else none
  escrows := []

/-- Two partial releases and a dispute race; the admin refunds what is left. -/
def disputedMilestones : List (Move Request Outcome) :=
  let o : Outcome := ⟨0, FEE_DEFAULTS, true, false⟩
  [.enter (.create 1 ⟨"seller", 5, 30, none⟩),
    .run 0 o, .run 0 o, .run 0 o, .run 0 o, .run 0 o,
    .enter (.releasePartial 0 1 10), .enter (.releasePartial 0 1 10), .enter (.dispute 0 1),
    .enter (.release 0 1),
    .run 1 o, .run 2 o, .run 3 o, .run 4 o,
    .run 1 o, .run 3 o,
    .enter (.resolveDispute 0 .buyer), .run 5 o, .run 5 o]

end FarmBackend.Escrow
