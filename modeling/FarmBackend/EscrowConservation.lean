import FarmBackend.Conservation
import FarmBackend.EscrowSplits

/-!
# Escrows conserve the money

A booking of the escrow service moves money between the buyer, the seller and the platform and
leaves the total alone; and a wallet that covers what it has locked goes on covering it, as long as
no release fee is more than what is released.
-/

namespace FarmBackend.Escrow
open Decimal Fees Wallets Rows Interleaving

set_option autoImplicit false

/-- The wallets that exist, and the platform's, are all among these. -/
structure Within (ids : Finset WalletId) (bank : Bank) : Prop where
  wallets : ∀ id, (bank.wallets id).isSome = true → id ∈ ids
  platform : ∀ id, bank.platform = some id → id ∈ ids

/-- No wallet has more locked than it holds. -/
def Covered (bank : Bank) : Prop := ∀ id, bank.lockedOf id ≤ bank.balanceOf id

/-- The schedule never charges more for a release than what is released. -/
def ReleaseFits (rules : FeeRules) : Prop :=
  ∀ n : ℤ, 0 < n → (rules .escrowRelease).Fits (toNumber n) 2

/-- All that a booking does to the money. -/
structure Booked (rules : FeeRules) (bank bank' : Bank) : Prop where
  within : ∀ ids, Within ids bank → Within ids bank'
  total : ∀ ids, Within ids bank → bank'.total ids = bank.total ids
  covered : ReleaseFits rules → Covered bank → Covered bank'

theorem Booked.refl (rules : FeeRules) (bank : Bank) : Booked rules bank bank :=
  ⟨fun _ h => h, fun _ _ => rfl, fun _ h => h⟩

section Bookings
variable {rules : FeeRules} {bank bank' : Bank} {ids : Finset WalletId} {walletId : WalletId}

theorem isSome_of_walletsUpdate {f : Wallet → Wallet}
    (h : bank.walletsUpdate walletId f = some bank') : (bank.wallets walletId).isSome = true := by
  obtain ⟨w, hw, -⟩ := Bank.wallets_walletsUpdate h
  exact Option.isSome_iff_exists.mpr ⟨w, hw⟩

theorem Within.of_same (h : Within ids bank) (hPlatform : bank'.platform = bank.platform)
    (hSame : ∀ id, (bank'.wallets id).isSome = (bank.wallets id).isSome) : Within ids bank' := by
  refine ⟨?_, ?_⟩
  · intro id hId
    exact h.wallets id (hSame id ▸ hId)
  · intro id hId
    exact h.platform id (hPlatform ▸ hId)

theorem Within.walletsUpdate {f : Wallet → Wallet} (h : Within ids bank)
    (hUpdate : bank.walletsUpdate walletId f = some bank') : Within ids bank' :=
  h.of_same (Bank.rest_walletsUpdate hUpdate).1 (Bank.isSome_walletsUpdate hUpdate)

theorem Within.transactionsCreate (h : Within ids bank) (row : Transaction) :
    Within ids (bank.transactionsCreate row) := ⟨h.wallets, h.platform⟩

theorem Within.ledgerCreate (h : Within ids bank) (entry : LedgerEntry) :
    Within ids (bank.ledgerCreate entry) := ⟨h.wallets, h.platform⟩

theorem Within.creditPlatformInTx {amount : ℚ} {transactionId : Option ℕ} (h : Within ids bank)
    (hCredit : bank.creditPlatformInTx amount transactionId = some bank') : Within ids bank' :=
  h.of_same (Bank.rest_creditPlatformInTx hCredit).1 (Bank.isSome_creditPlatformInTx hCredit)

/-- A wallet stays covered when it gains at least as much balance as it gains locked money. -/
theorem covered_of_moves {balance locked : WalletId → ℤ} {rows : List Transaction}
    (hMoves : Moves balance locked rows bank bank') (hGain : ∀ id, locked id ≤ balance id)
    (h : Covered bank) : Covered bank' := by
  intro id
  have hHere := h id
  have hMore := hGain id
  rw [hMoves.balance_eq, hMoves.locked_eq]
  omega

theorem booked_payRelease {escrowId : ℕ} {buyer seller : WalletId} {n f : ℤ} {now : Time}
    (hFee : 0 ≤ f) (hFits : ReleaseFits rules → f ≤ n)
    (h : EscrowDb.payRelease escrowId buyer seller (toNumber n) (toNumber f) (toNumber (n - f)) now
      bank = some bank') : Booked rules bank bank' := by
  have hMoves := moves_payRelease hFee h
  simp only [EscrowDb.payRelease, Option.bind_eq_bind, Option.bind_eq_some_iff,
    EscrowDb.creditSuperadminWalletInTx, toUnits_toNumber] at h
  obtain ⟨bank₁, hBuyer, bank₂, hSeller, hLast⟩ := h
  refine ⟨?_, ?_, ?_⟩
  · intro ids hIds
    have hPaid : Within ids bank₂ := (hIds.walletsUpdate hBuyer).walletsUpdate hSeller
    exact (((hPaid.transactionsCreate _).ledgerCreate _).ledgerCreate _).creditPlatformInTx hLast
  · intro ids hIds
    have hBuyerIn := hIds.wallets buyer (isSome_of_walletsUpdate hBuyer)
    have hSellerIn := (hIds.walletsUpdate hBuyer).wallets seller (isSome_of_walletsUpdate hSeller)
    obtain ⟨w, -, hTaken⟩ := Conservation.books_walletsUpdate hBuyerIn hBuyer
    have hGiven := Conservation.books_incrementBalance hSellerIn hSeller
    have hMoved := (hTaken.trans hGiven).trans
      (Conservation.books_transactionsCreate (releaseRow escrowId buyer seller n f now))
    have hEntered := hMoved.trans (Conservation.books_entries ids _
      (some bank₂.transactions.length) buyer seller n (n - f))
    have hPlatform := Conservation.books_creditPlatformInTx hFee
      (fun id hId => hIds.platform id (hEntered.platform_eq ▸ hId)) hLast
    have hAll := (hEntered.trans hPlatform).total_eq
    rw [Function.comp_apply, Wallet.decrementBalance_toNumber, Wallet.decrementLocked_balance]
      at hAll
    omega
  · intro hRules hCovered
    have hAtMost := hFits hRules
    refine covered_of_moves hMoves ?_ hCovered
    intro id
    split_ifs <;> omega

theorem booked_createTx {db db' : EscrowDb} {buyerId sellerId : UserId} {dto : CreateDto}
    {buyer seller : WalletId} {f : ℤ} {autoReleaseAt now : Time} (hAmount : 0 < dto.amount)
    (hFee : 0 ≤ f) (hLocked : ∀ w, db.bank.wallets buyer = some w → 0 ≤ w.lockedBalance)
    (h : db.createTx buyerId dto buyer sellerId seller (toNumber f) autoReleaseAt now = some db') :
    Booked rules db.bank db'.bank := by
  simp only [EscrowDb.createTx, Option.bind_eq_bind, Option.bind_eq_some_iff] at h
  obtain ⟨w, hw, h⟩ := h
  split at h
  · cases h
  rename_i hEnough
  simp only [Option.pure_def, Option.bind_eq_some_iff, Option.some.injEq,
    EscrowDb.creditSuperadminWalletInTx] at h
  obtain ⟨bank₁, hUpdate, bank₂, hLast, rfl⟩ := h
  refine ⟨?_, ?_, ?_⟩
  · intro ids hIds
    exact ((hIds.walletsUpdate hUpdate).transactionsCreate _).creditPlatformInTx hLast
  · intro ids hIds
    have hBuyerIn := hIds.wallets buyer (isSome_of_walletsUpdate hUpdate)
    obtain ⟨w', -, hTaken⟩ := Conservation.books_walletsUpdate hBuyerIn hUpdate
    have hHeld := hTaken.total_eq
    have hPaid : bank₂.total ids = bank₁.total ids + f := by
      refine (Conservation.books_creditPlatformInTx hFee ?_ hLast).total_eq
      intro id hId
      exact hIds.platform id (hTaken.platform_eq ▸ hId)
    rw [Function.comp_apply, Wallet.incrementLocked_balance, Wallet.decrementBalance_toNumber]
      at hHeld
    change bank₂.total ids = db.bank.total ids
    omega
  · intro _ hCovered
    obtain ⟨v, hv, hBalance⟩ := Bank.balanceOf_walletsUpdate hUpdate
    obtain ⟨u, hu, hLock⟩ := Bank.lockedOf_walletsUpdate hUpdate
    obtain rfl : w = v := Option.some.inj (hw.symm.trans hv)
    obtain rfl : w = u := Option.some.inj (hw.symm.trans hu)
    have hUnits : toUnits dto.amount ≤ w.balance - w.lockedBalance - f := by
      have hRoom : dto.amount ≤ toNumber (w.balance - w.lockedBalance - f) := by
        have hUnits : toNumber (w.balance - w.lockedBalance - f) =
            toNumber w.balance - toNumber w.lockedBalance - toNumber f := by
          rw [value_sub, value_sub]
        have hLess := not_lt.mp hEnough
        unfold Wallet.available at hLess
        rw [hUnits]
        linarith
      exact (column_mono hRoom).trans_eq (column_value 8 _)
    have hNewLock : (Wallet.incrementLocked dto.amount w).lockedBalance =
        w.lockedBalance + toUnits dto.amount := column_value_add (hLocked w hw) hAmount.le
    have hHeld : Covered bank₁ := by
      intro id
      rw [hBalance, hLock]
      split
      · rw [Function.comp_apply, Wallet.incrementLocked_balance, Wallet.decrementBalance_toNumber]
        change (Wallet.incrementLocked dto.amount w).lockedBalance ≤ _
        omega
      · exact hCovered id
    have hEntered := moves_creditPlatformInTx hFee hLast
    refine covered_of_moves hEntered ?_ hHeld
    intro id
    split_ifs <;> omega

theorem booked_executeRefund {db db' : EscrowDb} {escrowId : ℕ} {escrow : EscrowContract}
    {resolution : Bool} {now : Time}
    (h : db.executeRefund escrowId escrow resolution now = some db') :
    Booked rules db.bank db'.bank := by
  simp only [EscrowDb.executeRefund, Option.bind_eq_bind, Option.bind_eq_some_iff,
    Option.ite_none_right_eq_some, Option.pure_def, Option.some.injEq] at h
  obtain ⟨fresh, -, -, buyer, -, bank₁, hUpdate, rfl⟩ := h
  rw [remainingAmount_eq] at hUpdate
  refine ⟨?_, ?_, ?_⟩
  · intro ids hIds
    have hFreed := hIds.walletsUpdate hUpdate
    exact ⟨hFreed.wallets, hFreed.platform⟩
  · intro ids hIds
    have hBuyerIn := hIds.wallets buyer (isSome_of_walletsUpdate hUpdate)
    obtain ⟨w, -, hFreed⟩ := Conservation.books_walletsUpdate hBuyerIn hUpdate
    have hAll := hFreed.total_eq
    rwa [Wallet.decrementLocked_balance, sub_self, add_zero] at hAll
  · intro _ hCovered
    obtain ⟨w, hw, hBalance⟩ := Bank.balanceOf_walletsUpdate hUpdate
    obtain ⟨v, hv, hLock⟩ := Bank.lockedOf_walletsUpdate hUpdate
    obtain rfl : w = v := Option.some.inj (hw.symm.trans hv)
    intro id
    have hHere := hCovered id
    change bank₁.lockedOf id ≤ bank₁.balanceOf id
    rw [hBalance, hLock]
    split
    · rename_i hId
      rw [hId, Bank.balanceOf_eq hw, Bank.lockedOf_eq hw] at hHere
      rw [Wallet.decrementLocked_balance, Wallet.decrementLocked_toNumber]
      omega
    · exact hHere

theorem releaseFee_units (rules : FeeRules) {n : ℤ} (hPositive : 0 < n) :
    ∃ f : ℤ, 0 ≤ f ∧ feeFor rules .escrowRelease (toNumber n) 2 = toNumber f ∧
      (ReleaseFits rules → f ≤ n) := by
  obtain ⟨f, hFee, hEq, hFits⟩ := releaseFee_eq rules hPositive
  exact ⟨f, hFee, hEq, fun hRules => hFits.mpr (hRules n hPositive)⟩

theorem booked_executeRelease {db db' : EscrowDb} {escrowId : ℕ} {escrow : EscrowContract}
    {resolution : Bool} {now : Time}
    (h : db.executeRelease rules escrowId escrow resolution now = some db') :
    Booked rules db.bank db'.bank := by
  simp only [EscrowDb.executeRelease, Option.bind_eq_bind, Option.bind_eq_some_iff] at h
  obtain ⟨buyer, -, seller, -, h⟩ := h
  split at h
  · cases h
  simp only [Option.pure_def, Option.bind_eq_some_iff, Option.ite_none_right_eq_some] at h
  obtain ⟨fresh, -, -, h⟩ := h
  rw [remainingAmount_eq] at h
  split at h
  · obtain rfl := Option.some.inj h
    exact .refl rules db.bank
  · rename_i hSome
    simp only [Option.bind_eq_some_iff, Option.some.injEq] at h
    obtain ⟨bank', hPay, rfl⟩ := h
    have hPositive := value_pos.mp (not_le.mp hSome)
    obtain ⟨f, hFee, hFeeEq, hFits⟩ := releaseFee_units rules hPositive
    rw [hFeeEq, value_sub, toFixed_value] at hPay
    exact booked_payRelease hFee hFits hPay

theorem booked_releasePartialTx {db db' : EscrowDb} {escrowId : ℕ} {escrow : EscrowContract}
    {n : ℤ} {now : Time} (hPositive : 0 < n)
    (h : db.releasePartialTx rules escrowId escrow (toNumber n) now = some db') :
    Booked rules db.bank db'.bank := by
  simp only [EscrowDb.releasePartialTx, Option.bind_eq_bind, Option.bind_eq_some_iff,
    Option.ite_none_right_eq_some, Option.pure_def, Option.some.injEq] at h
  obtain ⟨buyer, -, seller, -, row, -, -, bank', hPay, rfl⟩ := h
  obtain ⟨f, hFee, hFeeEq, hFits⟩ := releaseFee_units rules hPositive
  rw [hFeeEq, value_sub, toFixed_value] at hPay
  exact booked_payRelease hFee hFits hPay

end Bookings

/-! What a call has computed before it books: the creation fee in whole units. -/

def Charged : Call → Prop
  | .createTx _ _ _ _ _ fee _ => ∃ f : ℤ, 0 ≤ f ∧ fee = toNumber f
  | _ => True

theorem creationFee_units (rules : FeeRules) (amount : ℚ) :
    ∃ f : ℤ, 0 ≤ f ∧ creationFee rules amount = toNumber f := by
  have hNonneg := feeUnits_nonneg (rules .escrowCreation) amount 2
  refine ⟨feeUnits (rules .escrowCreation) amount 2 * 10 ^ 6, by omega, ?_⟩
  rw [← toNumber_cents]
  exact computeFee_eq_value _ _ _

/-- The calls whose next step is a transaction. -/
def Call.books : Call → Bool
  | .createTx .. | .executeRelease .. | .executeRefund .. | .releasePartialTx .. | .disputeTx ..
  | .cancelUpdate .. | .autoReleases .. => true
  | _ => false

/-- The other calls only read. -/
theorem reads_of_step {o : Outcome} {db db' : EscrowDb} {call call' : Call}
    (hReads : call.books = false) (hStep : step o db call = some (db', call')) :
    db' = db ∧ Charged call' := by
  cases call with
  -- Two values are read and a check is passed.
  | create | createSeller | releasePartial =>
    simp only [step, Option.bind_eq_bind, Option.bind_eq_some_iff, Option.pure_def,
      Option.ite_none_right_eq_some, Option.some.injEq, Prod.mk.injEq] at hStep
    obtain ⟨_, -, _, -, -, rfl, rfl⟩ := hStep
    exact ⟨rfl, trivial⟩
  | createDuplicate buyerId dto buyerWalletId wallet sellerId sellerWalletId =>
    simp only [step, Option.ite_none_right_eq_some, Option.some.injEq, Prod.mk.injEq] at hStep
    obtain ⟨-, rfl, rfl⟩ := hStep
    exact ⟨rfl, trivial⟩
  | createFee buyerId dto buyerWalletId wallet sellerId sellerWalletId =>
    simp only [step, Option.ite_none_right_eq_some, Option.some.injEq, Prod.mk.injEq] at hStep
    obtain ⟨-, rfl, rfl⟩ := hStep
    exact ⟨rfl, creationFee_units _ _⟩
  -- One value is read and a check is passed.
  | release | dispute | cancel =>
    simp only [step, Option.bind_eq_bind, Option.bind_eq_some_iff, Option.pure_def,
      Option.ite_none_right_eq_some, Option.some.injEq, Prod.mk.injEq] at hStep
    obtain ⟨_, -, -, rfl, rfl⟩ := hStep
    exact ⟨rfl, trivial⟩
  | resolveDispute escrowId winner =>
    simp only [step, Option.bind_eq_bind, Option.bind_eq_some_iff, Option.pure_def,
      Option.ite_none_right_eq_some, Option.some.injEq, Prod.mk.injEq] at hStep
    obtain ⟨_, -, -, rfl, rfl⟩ := hStep
    cases winner <;> exact ⟨rfl, trivial⟩
  | processAutoReleases =>
    simp only [step, Option.some.injEq, Prod.mk.injEq] at hStep
    obtain ⟨rfl, rfl⟩ := hStep
    exact ⟨rfl, trivial⟩
  | done => cases hStep
  | createTx | executeRelease | executeRefund | releasePartialTx | disputeTx | cancelUpdate
  | autoReleases => cases hReads

theorem charged_of_step {o : Outcome} {db db' : EscrowDb} {call call' : Call}
    (hStep : step o db call = some (db', call')) : Charged call' := by
  cases hBooks : call.books with
  | false => exact (reads_of_step hBooks hStep).2
  | true =>
    cases call with
    | createTx | executeRelease | executeRefund | releasePartialTx | disputeTx | cancelUpdate =>
      obtain ⟨-, rfl⟩ := committed_eq_some.mp hStep
      trivial
    | autoReleases expired =>
      cases expired with
      | nil =>
        simp only [step, Option.some.injEq, Prod.mk.injEq] at hStep
        obtain ⟨-, rfl⟩ := hStep
        trivial
      | cons =>
        simp only [step] at hStep
        split at hStep
        all_goals
          simp only [Option.some.injEq, Prod.mk.injEq] at hStep
          obtain ⟨-, rfl⟩ := hStep
          trivial
    | _ => cases hBooks

/-! Runs. -/

section Runs
variable {db₀ : EscrowDb} {ok : Guard EscrowDb Call Outcome} {c : Config EscrowDb Call}

/-- Every step is booked, whatever the other calls do in between. -/
theorem booked_of_step {o : Outcome} {db db' : EscrowDb} {call call' : Call}
    (hLocked : ∀ walletId w, db.bank.wallets walletId = some w → 0 ≤ w.lockedBalance)
    (hKnows : Knows db call) (hCharged : Charged call)
    (hStep : step o db call = some (db', call')) : Booked o.rules db.bank db'.bank := by
  cases call with
  | createTx buyerId dto buyer sellerId seller fee autoReleaseAt =>
    obtain ⟨f, hFee, rfl⟩ := hCharged
    exact booked_createTx hKnows hFee (hLocked buyer) (committed_eq_some.mp hStep).1
  | executeRelease => exact booked_executeRelease (committed_eq_some.mp hStep).1
  | executeRefund => exact booked_executeRefund (committed_eq_some.mp hStep).1
  | releasePartialTx =>
    obtain ⟨-, n, hPositive, rfl⟩ := hKnows
    exact booked_releasePartialTx hPositive (committed_eq_some.mp hStep).1
  | cancelUpdate => exact hKnows.elim
  | disputeTx =>
    have hTx := (committed_eq_some.mp hStep).1
    simp only [EscrowDb.disputeTx, Option.bind_eq_bind, Option.bind_eq_some_iff,
      Option.ite_none_right_eq_some, Option.pure_def, Option.some.injEq] at hTx
    obtain ⟨row, -, -, rfl⟩ := hTx
    exact .refl o.rules db.bank
  | autoReleases expired =>
    cases expired with
    | nil =>
      simp only [step, Option.some.injEq, Prod.mk.injEq] at hStep
      obtain ⟨rfl, -⟩ := hStep
      exact .refl o.rules db.bank
    | cons entry expired =>
      simp only [step] at hStep
      split at hStep
      · simp only [Option.some.injEq, Prod.mk.injEq] at hStep
        obtain ⟨rfl, -⟩ := hStep
        exact .refl o.rules db.bank
      · rename_i db₁ hRelease
        simp only [Option.some.injEq, Prod.mk.injEq] at hStep
        obtain ⟨rfl, -⟩ := hStep
        rw [Option.ite_none_left_eq_some] at hRelease
        exact booked_executeRelease hRelease.2
  | _ =>
    obtain ⟨rfl, -⟩ := reads_of_step rfl hStep
    exact .refl o.rules db'.bank

/-- What every booking keeps holds in every state a run reaches. -/
theorem booked_of_reaches (I : Bank → Prop) (hStart : I db₀.bank)
    (hKeep : ∀ o (db db' : EscrowDb) call, ok o db call → Booked o.rules db.bank db'.bank →
      I db.bank → I db'.bank)
    (hFresh : db₀.escrows = [])
    (hLocked : ∀ walletId w, db₀.bank.wallets walletId = some w → 0 ≤ w.lockedBalance)
    (h : program.Reaches ok (Program.idle db₀) c) : I c.store.bank := by
  have hAll : (Accounted db₀ c.store ∧ I c.store.bank) ∧
      ∀ call ∈ c.calls, Knows c.store call ∧ Charged call := by
    refine h.assertions (fun db => Accounted db₀ db ∧ I db.bank)
      (fun db call => Knows db call ∧ Charged call) ⟨⟨⟨?_, ?_⟩, hStart⟩, ?_⟩ ?_ ?_ ?_
    · simp [Program.idle, hFresh]
    · intro walletId w hw
      exact ⟨w, hw, by simp [Program.idle, EscrowDb.lockedFor, hFresh]⟩
    · simp [Program.idle]
    · intro request store _
      cases request <;> exact ⟨trivial, trivial⟩
    · intro o db db' call call' hStore hCall hOk hStep
      obtain ⟨hAcc, hI⟩ := hStore
      obtain ⟨hKnows, hCharged⟩ := hCall
      have hNow : ∀ walletId w, db.bank.wallets walletId = some w → 0 ≤ w.lockedBalance := by
        intro walletId w hw
        obtain ⟨w₀, hw₀, hEq⟩ := hAcc.locks walletId w hw
        have hBase := hLocked walletId w₀ hw₀
        have hHeld := lockedFor_nonneg hAcc.sound walletId
        omega
      obtain ⟨hEffect, hNext⟩ := effect_of_step hLocked hAcc hKnows hStep
      exact ⟨⟨hEffect.accounted hAcc, hKeep o db db' call hOk
        (booked_of_step hNow hKnows hCharged hStep) hI⟩, hNext, charged_of_step hStep⟩
    · intro o db db' call call' other hStore hCall hOther _ hStep
      have hEffect := (effect_of_step hLocked hStore.1 hCall.1 hStep).1
      exact ⟨hEffect.knows hOther.1, hOther.2⟩
  exact hAll.1.2

theorem within_twoUsers : Within (Finset.range 3) twoUsers.bank := by
  refine ⟨?_, ?_⟩
  · intro id hId
    have hLe : id ≤ 2 := by
      by_contra hMore
      simp [twoUsers, hMore] at hId
    exact Finset.mem_range.mpr (Nat.lt_succ_of_le hLe)
  · intro id hId
    simp only [twoUsers, Option.some.injEq] at hId
    rw [← hId]
    exact Finset.mem_range.mpr (Nat.zero_lt_succ 2)

theorem locked_twoUsers (walletId : WalletId) (w : Wallet)
    (hw : twoUsers.bank.wallets walletId = some w) : w = ⟨toUnits 100, 0, false⟩ := by
  simp only [twoUsers, Option.ite_none_right_eq_some, Option.some.injEq] at hw
  exact hw.2.symm

/-- Every step is charged by the default rule for releases. -/
abbrev ChargedByDefault : Guard EscrowDb Call Outcome :=
  fun o _ _ => o.rules .escrowRelease = FEE_DEFAULTS .escrowRelease

theorem reaches_mono {ok ok' : Guard EscrowDb Call Outcome} {c c' : Config EscrowDb Call}
    (hGuard : ∀ o db call, ok o db call → ok' o db call) (h : program.Reaches ok c c') :
    program.Reaches ok' c c' := by
  refine Relation.ReflTransGen.mono ?_ _ _ h
  intro a b hab
  cases hab with
  | enter request store calls => exact .enter request store calls
  | call before after hOk hStep => exact .call before after (hGuard _ _ _ hOk) hStep

theorem reaches_disputedMilestones :
    ∃ c, program.Reaches ChargedByDefault (Program.idle twoUsers) c ∧
      decide (c.store.escrows.length = 1) = true := by
  have hRuns : ((program.guarded ChargedByDefault).schedule disputedMilestones
      (Program.idle twoUsers)).any (fun c => decide (c.store.escrows.length = 1)) = true := by
    decide +kernel
  exact Program.reaches_of_guarded_any hRuns

/-- The steps that book under a schedule whose release fee is never more than what is released. -/
abbrev FairlyCharged : Guard EscrowDb Call Outcome := fun o _ _ => ReleaseFits o.rules

/-- A release at the default rate of 1.5%, rounded to cents, never costs more than its amount. -/
theorem releaseFits_of_default {rules : FeeRules}
    (h : rules .escrowRelease = FEE_DEFAULTS .escrowRelease) : ReleaseFits rules := by
  intro n hPositive
  have hAmount : 0 < toNumber n := value_pos.mpr hPositive
  generalize toNumber n = amount at hAmount ⊢
  have hBelow := Int.lt_floor_add_one (amount * 10 ^ 2)
  have hWhole : (0 : ℚ) ≤ (⌊amount * 10 ^ 2⌋ : ℤ) := by
    exact_mod_cast Int.floor_nonneg.mpr (by positivity)
  rw [FeeRule.Fits, h, lt_div_iff₀ (by norm_num)]
  simp only [rawFee, FEE_DEFAULTS, EPSILON, lt_irrefl, if_false]
  generalize ⌊amount * 10 ^ 2⌋ = cents at hBelow hWhole ⊢
  norm_num at hBelow ⊢
  linarith

end Runs

end FarmBackend.Escrow
