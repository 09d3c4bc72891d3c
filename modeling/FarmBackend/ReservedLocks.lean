import FarmBackend.ReservedFunds

/-!
# What the locks of the rows keep

At most one running transaction has the lock of the wallet, and at most one that of a withdrawal. So
what a transaction has read under its locks still holds when it commits, and the locked balance stays
between what the open withdrawals were locked with and the balance.
-/

namespace FarmBackend.ReservedFunds
open Decimal Fees Wallets Rows Interleaving
open Withdrawals (DailyLimits WithdrawalStatus unlock)

set_option autoImplicit false

/-! The statements on the wallet. -/

section Wallet
variable {w : Wallet} {x fee : ℚ}

theorem le_of_toNumber_le {n : ℤ} {y : ℚ} (h : toNumber n ≤ y) : n ≤ toUnits y := by
  have hUnits : toUnits (toNumber n) ≤ toUnits y := column_mono h
  rwa [toUnits_toNumber] at hUnits

theorem toUnits_le_of_le {n : ℤ} {y : ℚ} (h : y ≤ toNumber n) : toUnits y ≤ n := by
  have hUnits : toUnits y ≤ toUnits (toNumber n) := column_mono h
  rwa [toUnits_toNumber] at hUnits

theorem locked_incrementLocked (hLocked : 0 ≤ w.lockedBalance) (hx : 0 ≤ x) :
    (w.incrementLocked x).lockedBalance = w.lockedBalance + toUnits x :=
  column_value_add hLocked hx

/-- The increment that the check of `lockFundsInTx` allows. -/
theorem bounded_incrementLocked (h : x ≤ w.available) :
    (w.incrementLocked x).lockedBalance ≤ (w.incrementLocked x).balance := by
  unfold Wallet.available at h
  have hLe : toNumber w.lockedBalance + x ≤ toNumber w.balance := by linarith
  exact toUnits_le_of_le hLe

theorem bounded_updateBuyer (h : x + fee ≤ w.available) :
    ((w.decrementBalance fee).incrementLocked x).lockedBalance ≤
      ((w.decrementBalance fee).incrementLocked x).balance := by
  unfold Wallet.available at h
  have hLe : toNumber w.lockedBalance + x ≤ toNumber w.balance - fee := by linarith
  exact column_mono hLe

theorem bounded_debit (h : x ≤ w.available) :
    w.lockedBalance ≤ (w.decrementBalance x).balance := by
  unfold Wallet.available at h
  exact le_of_toNumber_le (by linarith)

theorem unlock_nonneg : 0 ≤ (unlock x w).lockedBalance := column_nonneg (le_max_right _ _)

/-- An unlock takes back at most what the lock of the same amount brought. -/
theorem sub_toUnits_le_unlock (hx : 0 ≤ x) :
    w.lockedBalance - toUnits x ≤ (unlock x w).lockedBalance := by
  have hScaled : (0 : ℚ) ≤ x * 10 ^ 8 := by positivity
  by_cases hCovers : toNumber w.lockedBalance ≤ x
  · have hUnits := le_of_toNumber_le hCovers
    have hNonneg : 0 ≤ (unlock x w).lockedBalance := unlock_nonneg
    omega
  · have hDiff : (0 : ℚ) ≤ (w.lockedBalance : ℚ) - x * 10 ^ 8 := by
      have hScale := mul_le_mul_of_nonneg_right (not_le.mp hCovers).le
        (by positivity : (0 : ℚ) ≤ 10 ^ 8)
      rw [value_mul] at hScale
      linarith
    have hUnlocked : (unlock x w).lockedBalance = w.lockedBalance - ⌈x * 10 ^ 8 - 1 / 2⌉ := by
      change roundHalfAway (max (toNumber w.lockedBalance - x) 0 * 10 ^ 8) = _
      rw [max_eq_left (by linarith [not_le.mp hCovers]), sub_mul, value_mul,
        roundHalfAway_int_sub hDiff]
    have hUnits : toUnits x = ⌊x * 10 ^ 8 + 1 / 2⌋ := roundHalfAway_of_nonneg hScaled
    have hResidue := floor_add_half_sub_ceil_sub_half (x * 10 ^ 8)
    rw [hUnlocked, hUnits]
    split at hResidue <;> omega

theorem unlock_le (hLocked : 0 ≤ w.lockedBalance) (hx : 0 ≤ x) :
    (unlock x w).lockedBalance ≤ w.lockedBalance := by
  have hNumber : 0 ≤ toNumber w.lockedBalance := value_nonneg.mpr hLocked
  exact toUnits_le_of_le (max_le (by linarith) hNumber)

theorem bounded_settle (hLe : w.lockedBalance ≤ w.balance) (hFunds : x ≤ toNumber w.balance) :
    (unlock x w).lockedBalance ≤ ((unlock x w).decrementBalance x).balance := by
  have hNumber : toNumber w.lockedBalance ≤ toNumber w.balance := value_le_value.mpr hLe
  have hMax : max (toNumber w.lockedBalance - x) 0 ≤ toNumber w.balance - x :=
    max_le (by linarith) (by linarith)
  exact column_mono hMax

theorem balance_le_incrementBalance (hFee : 0 < fee) :
    w.balance ≤ (w.incrementBalance fee).balance :=
  le_of_toNumber_le (by linarith)

end Wallet

/-! What a step can do. -/

/-- One constructor for every statement that goes on, and one for a transaction that ends without a
commit. -/
inductive Took (limits : DailyLimits) (o : Outcome) (s : Store) : Call → Store → Call → Prop where
  | ended {call : Call} : Took limits o s call (s.release call) .done
  | asked {amount fee : ℚ} (hAmount : 0 < amount) :
      Took limits o s (.createWithdrawal amount) s (.lockFunds amount fee)
  | locked {amount fee : ℚ} (hFree : s.walletLocked = false) (hFunds : amount ≤ s.wallet.available) :
      Took limits o s (.lockFunds amount fee) { s with walletLocked := true }
        (.checkLimits amount fee (s.wallet.incrementLocked amount))
  | allowed {amount fee : ℚ} {pending : Wallet}
      (hLimits : WithinLimits limits amount (s.recent o.now)) :
      Took limits o s (.checkLimits amount fee pending) s (.insert amount fee o.now pending)
  | dated {amount fee : ℚ} {checkedAt : Time} {pending : Wallet} :
      Took limits o s (.insert amount fee checkedAt pending) s
        (.commit (.create ⟨amount, fee, .pending, o.createdAt⟩) pending)
  | read {success : Bool} {reference : ℕ} {row : Withdrawal}
      (hRow : s.withdrawals[reference]? = some row) :
      Took limits o s (.settle success reference) s (.claim success reference row.amount row.fee)
  | claimed {success : Bool} {reference : ℕ} {amount fee : ℚ} {row : Withdrawal}
      (hFree : s.rowLocked reference = false) (hRow : s.withdrawals[reference]? = some row)
      (hOpen : row.status.isOpen = true) :
      Took limits o s (.claim success reference amount fee)
        { s with rowLocked := Function.update s.rowLocked reference true }
        (.settleWallet success reference amount fee)
  | debited {reference : ℕ} {amount fee : ℚ} (hFree : s.walletLocked = false)
      (hFunds : amount ≤ toNumber s.wallet.balance) :
      Took limits o s (.settleWallet true reference amount fee) { s with walletLocked := true }
        (.credit [fee] (.settle .completed reference) ((unlock amount s.wallet).decrementBalance amount))
  | unlocked {reference : ℕ} {amount fee : ℚ} (hFree : s.walletLocked = false) :
      Took limits o s (.settleWallet false reference amount fee) { s with walletLocked := true }
        (.commit (.settle .failed reference) (unlock amount s.wallet))
  | priced {amount fee : ℚ} (hAmount : 0 < amount) (hFee : 0 ≤ fee) :
      Took limits o s (.createEscrow amount) s (.selectForUpdate amount fee)
  | selected {amount fee : ℚ} (hFree : s.walletLocked = false)
      (hFunds : amount + fee ≤ s.wallet.available) :
      Took limits o s (.selectForUpdate amount fee) { s with walletLocked := true }
        (.updateBuyer amount fee)
  | updated {amount fee : ℚ} :
      Took limits o s (.updateBuyer amount fee) s
        (.credit [fee] .keep ((s.wallet.decrementBalance fee).incrementLocked amount))
  | invested {amount totalDebit fee consolidation : ℚ} :
      Took limits o s (.invest amount) s (.debit totalDebit fee consolidation)
  | charged {totalDebit fee consolidation : ℚ} (hFree : s.walletLocked = false)
      (hFunds : totalDebit ≤ s.wallet.available) :
      Took limits o s (.debit totalDebit fee consolidation) { s with walletLocked := true }
        (.credit [fee, consolidation] .keep (s.wallet.decrementBalance totalDebit))
  | paid {fee : ℚ} {rest : List ℚ} {write : Write} {pending : Wallet} :
      Took limits o s (.credit (fee :: rest) write pending) s
        (.credit rest write (s.creditPlatform fee pending))
  | credited {write : Write} {pending : Wallet} :
      Took limits o s (.credit [] write pending) s (.commit write pending)
  | committed {write : Write} {pending : Wallet} :
      Took limits o s (.commit write pending)
        { (s.release (.commit write pending)).write write with wallet := pending } .done

section Steps
variable {limits : DailyLimits} {o : Outcome} {s s' : Store} {call call' : Call}

theorem release_of_idle (hWallet : call.holdsWallet = false) (hRow : call.claimed = none) :
    s.release call = s := by
  simp [Store.release, Store.unlockRow, hWallet, hRow]

/-- A call that holds nothing ends as it was. -/
theorem Took.ended_idle (hWallet : call.holdsWallet = false) (hRow : call.claimed = none) :
    Took limits o s call s .done := by
  have hEnded := @Took.ended limits o s call
  rwa [release_of_idle hWallet hRow] at hEnded

theorem took_of_run (h : run limits o s call = some (s', call')) :
    Took limits o s call s' call' := by
  cases call with
  | createWithdrawal amount =>
    simp only [run, Option.ite_none_right_eq_some, Option.some.injEq, Prod.mk.injEq] at h
    obtain ⟨hAmount, rfl, rfl⟩ := h
    exact .asked hAmount
  | lockFunds amount fee =>
    simp only [run] at h
    split at h
    · cases h
    · rename_i hLocked
      split at h
      · rename_i hFunds
        cases h
        exact .locked (Bool.not_eq_true _ ▸ hLocked) hFunds.2
      · cases h
        exact .ended_idle rfl rfl
  | checkLimits amount fee pending =>
    simp only [run] at h
    split at h
    · rename_i hLimits
      cases h
      exact .allowed hLimits
    · cases h
      have hEnded := @Took.ended limits o s (.checkLimits amount fee pending)
      simpa [Store.release, Store.unlockRow, Call.claimed, Call.holdsWallet] using hEnded
  | insert amount fee checkedAt pending =>
    cases h
    exact .dated
  | settle success reference =>
    simp only [run] at h
    split at h
    · cases h
      exact .ended_idle rfl rfl
    · rename_i row hRow
      split at h
      · cases h
        exact .read hRow
      · cases h
        exact .ended_idle rfl rfl
  | claim success reference amount fee =>
    simp only [run] at h
    split at h
    · cases h
    · rename_i hLocked
      split at h
      · cases h
        exact .ended_idle rfl rfl
      · rename_i row hRow
        split at h
        · rename_i hOpen
          cases h
          exact .claimed (Bool.not_eq_true _ ▸ hLocked) hRow hOpen
        · cases h
          exact .ended_idle rfl rfl
  | settleWallet success reference amount fee =>
    simp only [run] at h
    split at h
    · cases h
    · rename_i hLocked
      cases success with
      | true =>
        simp only [if_true] at h
        split at h
        · rename_i hFunds
          cases h
          exact .debited (Bool.not_eq_true _ ▸ hLocked) hFunds
        · cases h
          have hEnded := @Took.ended limits o s (.settleWallet true reference amount fee)
          simpa [Store.release, Store.unlockRow, Call.claimed, Call.holdsWallet] using hEnded
      | false =>
        simp only [Bool.false_eq_true, if_false, Option.some.injEq, Prod.mk.injEq] at h
        obtain ⟨rfl, rfl⟩ := h
        exact .unlocked (Bool.not_eq_true _ ▸ hLocked)
  | createEscrow amount =>
    simp only [run, Option.ite_none_right_eq_some, Option.some.injEq, Prod.mk.injEq] at h
    obtain ⟨hAmount, rfl, rfl⟩ := h
    exact .priced hAmount (computeFee_nonneg _ _ _)
  | selectForUpdate amount fee =>
    simp only [run] at h
    split at h
    · cases h
    · rename_i hLocked
      split at h
      · rename_i hFunds
        cases h
        exact .selected (Bool.not_eq_true _ ▸ hLocked) hFunds
      · cases h
        exact .ended_idle rfl rfl
  | updateBuyer amount fee =>
    cases h
    exact .updated
  | invest amount =>
    cases h
    exact .invested
  | debit totalDebit fee consolidation =>
    simp only [run] at h
    split at h
    · cases h
    · rename_i hLocked
      split at h
      · rename_i hFunds
        cases h
        exact .charged (Bool.not_eq_true _ ▸ hLocked) hFunds
      · cases h
        exact .ended_idle rfl rfl
  | credit fees write pending =>
    cases fees with
    | nil =>
      cases h
      exact .credited
    | cons fee rest =>
      cases h
      exact .paid
  | commit write pending =>
    cases h
    exact .committed
  | done => cases h

theorem took_of_step (h : step limits o s call = some (s', call')) :
    Took limits o s call s' call' := by
  unfold step at h
  split at h
  · cases h
    exact .ended
  · exact took_of_run h

end Steps

/-! Who has the locks. -/

def walletTicket : Ticket Store Call where
  isOpen s := s.walletLocked = false
  fired _ := 0
  holds call := call.holdsWallet.toNat

def rowTicket (reference : ℕ) : Ticket Store Call where
  isOpen s := s.rowLocked reference = false
  fired _ := 0
  holds call := if call.claimed = some reference then 1 else 0

section Tickets
variable {limits : DailyLimits} {o : Outcome} {s s' : Store} {call call' : Call} {reference : ℕ}

theorem rowLocked_write (w : Write) : (s.write w).rowLocked = s.rowLocked := by
  cases w <;> rfl

theorem walletLocked_release : (s.release call).walletLocked = (s.walletLocked && !call.holdsWallet) :=
  rfl

theorem rowLocked_release (h : (s.release call).rowLocked reference = false) :
    s.rowLocked reference = false ∨ call.claimed = some reference := by
  unfold Store.release Store.unlockRow at h
  cases hClaimed : call.claimed with
  | none =>
    rw [hClaimed] at h
    exact .inl h
  | some claimed =>
    rw [hClaimed] at h
    by_cases hSame : claimed = reference
    · exact .inr (by rw [hSame])
    · simp only [Function.update_of_ne (Ne.symm hSame)] at h
      exact .inl h

theorem wallet_keeps_or_takes (hTook : Took limits o s call s' call') :
    walletTicket.Keeps s call s' call' ∨ walletTicket.Takes s call s' call' := by
  cases hTook with
  | ended =>
    refine .inl ⟨Nat.zero_le _, ?_⟩
    intro hOpen
    simp only [walletTicket, walletLocked_release] at hOpen ⊢
    cases hHolds : call.holdsWallet with
    | false =>
      rw [hHolds] at hOpen
      exact .inl (by simpa using hOpen)
    | true => exact .inr Nat.zero_lt_one
  | committed => exact .inl ⟨Nat.zero_le _, fun _ => .inr Nat.zero_lt_one⟩
  | locked hFree _ | debited hFree _ | unlocked hFree | selected hFree _ | charged hFree _ =>
    exact .inr ⟨hFree, Bool.noConfusion, Nat.le_refl _⟩
  | asked _ | allowed _ | dated | read _ | claimed _ _ _ | priced _ _ | updated | invested | paid
  | credited => exact .inl ⟨Nat.le_refl _, fun hOpen => .inl hOpen⟩

theorem row_keeps_or_takes (hTook : Took limits o s call s' call') :
    (rowTicket reference).Keeps s call s' call' ∨ (rowTicket reference).Takes s call s' call' := by
  cases hTook with
  | ended =>
    refine .inl ⟨Nat.zero_le _, ?_⟩
    intro hOpen
    simp only [rowTicket] at hOpen ⊢
    rcases rowLocked_release hOpen with hBefore | hClaimed
    · exact .inl hBefore
    · rw [if_pos hClaimed]
      exact .inr Nat.zero_lt_one
  | @committed write pending =>
    refine .inl ⟨Nat.zero_le _, ?_⟩
    intro hOpen
    simp only [rowTicket, rowLocked_write] at hOpen ⊢
    rcases rowLocked_release hOpen with hBefore | hClaimed
    · exact .inl hBefore
    · rw [if_pos hClaimed]
      exact .inr Nat.zero_lt_one
  | @claimed _ claimed _ _ _ hFree _ _ =>
    by_cases hSame : claimed = reference
    · subst hSame
      refine .inr ⟨hFree, ?_, ?_⟩
      · simp [rowTicket]
      · simp [rowTicket, Call.claimed]
    · refine .inl ⟨?_, ?_⟩
      · simp [rowTicket, Call.claimed, hSame]
      · intro hOpen
        simp only [rowTicket, Function.update_of_ne (Ne.symm hSame)] at hOpen
        exact .inl hOpen
  | locked _ _ | debited _ _ | unlocked _ | selected _ _ | charged _ _ | asked _ | allowed _ | dated
  | read _ | priced _ _ | updated | invested | paid | credited =>
    exact .inl ⟨Nat.le_refl _, fun hOpen => .inl hOpen⟩

variable {ok : Guard Store Call Outcome} {start : Store} {c : Config Store Call}

theorem walletTicket_sound (h : (program limits).Reaches ok (Program.idle start) c) :
    walletTicket.Sound c := by
  refine Ticket.Sound.reaches h ?_ ?_ ?_
  · exact ⟨Nat.zero_le _, fun _ => rfl⟩
  · intro request
    cases request <;> rfl
  · intro o s s' call call' _ _ _ _ hStep
    exact wallet_keeps_or_takes (took_of_step hStep)

theorem rowTicket_sound (h : (program limits).Reaches ok (Program.idle start) c) (reference : ℕ) :
    (rowTicket reference).Sound c := by
  refine Ticket.Sound.reaches h ?_ ?_ ?_
  · exact ⟨Nat.zero_le _, fun _ => rfl⟩
  · intro request
    cases request <;> rfl
  · intro o s s' call call' _ _ _ _ hStep
    exact row_keeps_or_takes (took_of_step hStep)

variable {before after : List Call} {other : Call}

/-- While one transaction has the wallet, no other has it. -/
theorem wallet_apart
    (h : (program limits).Reaches ok (Program.idle start) ⟨s, before ++ call :: after⟩)
    (hOther : other ∈ before ++ after) (hHolds : call.holdsWallet = true) :
    other.holdsWallet = false := by
  have hApart := (walletTicket_sound h).apart hOther
  cases hBoth : other.holdsWallet with
  | false => rfl
  | true => simp [walletTicket, hHolds, hBoth] at hApart

theorem row_apart
    (h : (program limits).Reaches ok (Program.idle start) ⟨s, before ++ call :: after⟩)
    (hOther : other ∈ before ++ after) (hClaimed : call.claimed = some reference) :
    other.claimed ≠ some reference := by
  have hApart := (rowTicket_sound h reference).apart hOther
  intro hBoth
  simp [rowTicket, hClaimed, hBoth] at hApart

end Tickets

/-! What the wallet holds for the open withdrawals. -/

structure Sound (s : Store) : Prop where
  bounded : s.Bounded
  reserved : (s.withdrawals.map Withdrawal.reservedUnits).sum ≤ s.wallet.lockedBalance
  amounts : ∀ row ∈ s.withdrawals, 0 ≤ row.amount

/-- The commit of the write and the wallet would leave a sound store. -/
def Ready (s : Store) (w : Write) (pending : Wallet) : Prop :=
  Sound { s.write w with wallet := pending }

/-- What a call knows of the committed rows. -/
def Knows (s : Store) : Call → Prop
  | .lockFunds amount _ => 0 < amount
  | .checkLimits amount fee pending | .insert amount fee _ pending =>
    ∀ createdAt, Ready s (.create ⟨amount, fee, .pending, createdAt⟩) pending
  | .claim _ reference amount _ =>
    ∃ row, s.withdrawals[reference]? = some row ∧ row.amount = amount
  | .settleWallet _ reference amount _ =>
    ∃ row, s.withdrawals[reference]? = some row ∧ row.amount = amount ∧ row.status.isOpen = true
  | .selectForUpdate amount fee => 0 < amount ∧ 0 ≤ fee
  | .updateBuyer amount fee => 0 < amount ∧ amount + fee ≤ s.wallet.available
  | .credit _ write pending | .commit write pending => Ready s write pending
  | _ => True

section Keeping
variable {limits : DailyLimits} {o : Outcome} {s s' start : Store} {call call' : Call}
  {c : Config Store Call} {amount fee : ℚ}

theorem Sound.of_same (h : Sound s) (hWallet : s'.wallet = s.wallet)
    (hRows : s'.withdrawals = s.withdrawals) : Sound s' := by
  obtain ⟨⟨hNonneg, hLe⟩, hReserved, hAmounts⟩ := h
  refine ⟨⟨?_, ?_⟩, ?_, ?_⟩
  · rwa [hWallet]
  · rwa [hWallet]
  · rwa [hWallet, hRows]
  · rwa [hRows]

theorem withdrawals_write (hRows : s'.withdrawals = s.withdrawals) (w : Write) :
    (s'.write w).withdrawals = (s.write w).withdrawals := by
  cases w with
  | create row => simp only [Store.write, hRows]
  | settle status reference => simp only [Store.write, hRows]
  | keep => exact hRows

theorem withdrawals_release (call : Call) : (s.release call).withdrawals = s.withdrawals := by
  unfold Store.release Store.unlockRow
  cases call.claimed <;> rfl

theorem wallet_release (call : Call) : (s.release call).wallet = s.wallet := by
  unfold Store.release Store.unlockRow
  cases call.claimed <;> rfl

theorem Ready.of_same {w : Write} {pending : Wallet} (h : Ready s w pending)
    (hRows : s'.withdrawals = s.withdrawals) : Ready s' w pending :=
  Sound.of_same h rfl (withdrawals_write hRows w)

theorem ready_create {createdAt : Time} (h : Sound s) (hAmount : 0 < amount)
    (hFunds : amount ≤ s.wallet.available) :
    Ready s (.create ⟨amount, fee, .pending, createdAt⟩) (s.wallet.incrementLocked amount) := by
  have hLocked := locked_incrementLocked h.bounded.nonneg hAmount.le
  have hUnits : 0 ≤ toUnits amount := column_nonneg hAmount.le
  refine ⟨⟨?_, bounded_incrementLocked hFunds⟩, ?_, ?_⟩
  · have hBefore := h.bounded.nonneg
    change 0 ≤ (s.wallet.incrementLocked amount).lockedBalance
    omega
  · have hReserved := h.reserved
    change ((s.withdrawals ++ [_]).map Withdrawal.reservedUnits).sum ≤
      (s.wallet.incrementLocked amount).lockedBalance
    rw [sum_map_insert, hLocked]
    exact add_le_add hReserved (le_refl (toUnits amount))
  · intro row hMem
    rcases List.mem_append.mp hMem with hOld | hNew
    · exact h.amounts row hOld
    · rw [List.mem_singleton.mp hNew]
      exact hAmount.le

/-- A withdrawal that ends gives back at most what was reserved for it. -/
theorem ready_settle {reference : ℕ} {row : Withdrawal} {status : WithdrawalStatus}
    {pending : Wallet} (h : Sound s) (hRow : s.withdrawals[reference]? = some row)
    (hOpen : row.status.isOpen = true) (hStatus : status.isOpen = false)
    (hBounded : 0 ≤ pending.lockedBalance ∧ pending.lockedBalance ≤ pending.balance)
    (hGives : s.wallet.lockedBalance - toUnits row.amount ≤ pending.lockedBalance) :
    Ready s (.settle status reference) pending := by
  refine ⟨⟨hBounded.1, hBounded.2⟩, ?_, ?_⟩
  · have hReserved := h.reserved
    change ((s.withdrawals.modify reference _).map Withdrawal.reservedUnits).sum ≤
      pending.lockedBalance
    rw [sum_map_modify _ _ hRow]
    simp only [Withdrawal.reservedUnits, hOpen, hStatus, if_true, Bool.false_eq_true, if_false]
    omega
  · intro other hMem
    obtain ⟨id, hAt⟩ := List.mem_iff_getElem?.mp hMem
    rcases getElem?_modify_cases hAt with ⟨-, old, hOld, rfl⟩ | ⟨-, hOld⟩
    · exact h.amounts old (List.mem_of_getElem? hOld)
    · exact h.amounts other (List.mem_of_getElem? hOld)

theorem ready_keep {pending : Wallet} (h : Sound s)
    (hLocked : s.wallet.lockedBalance ≤ pending.lockedBalance)
    (hBounded : pending.lockedBalance ≤ pending.balance) : Ready s .keep pending :=
  ⟨⟨h.bounded.nonneg.trans hLocked, hBounded⟩, h.reserved.trans hLocked, h.amounts⟩

theorem ready_creditPlatform {w : Write} {pending : Wallet} (h : Ready s w pending) :
    Ready s w (s.creditPlatform fee pending) := by
  unfold Store.creditPlatform
  split
  · rename_i hPaid
    exact ⟨⟨h.bounded.nonneg, h.bounded.le.trans (balance_le_incrementBalance hPaid.2)⟩,
      h.reserved, h.amounts⟩
  · exact h

/-- What a call knows of the store stays as long as the wallet and the withdrawals do. -/
theorem Knows.of_same (h : Knows s call) (hWallet : s'.wallet = s.wallet)
    (hRows : s'.withdrawals = s.withdrawals) : Knows s' call := by
  cases call with
  | checkLimits amount fee pending => exact fun createdAt => (h createdAt).of_same hRows
  | insert amount fee checkedAt pending => exact fun createdAt => (h createdAt).of_same hRows
  | claim success reference amount fee =>
    obtain ⟨row, hRow, hAmount⟩ := h
    exact ⟨row, by rw [hRows, hRow], hAmount⟩
  | settleWallet success reference amount fee =>
    obtain ⟨row, hRow, hRest⟩ := h
    exact ⟨row, by rw [hRows, hRow], hRest⟩
  | updateBuyer amount fee => exact ⟨h.1, by rw [hWallet]; exact h.2⟩
  | credit fees write pending => exact Ready.of_same h hRows
  | commit write pending => exact Ready.of_same h hRows
  | lockFunds amount fee => exact h
  | selectForUpdate amount fee => exact h
  | createWithdrawal _ | settle _ _ | createEscrow _ | invest _ | debit _ _ _ | done =>
    exact trivial

theorem sound_step (h : Sound s) (hKnows : Knows s call)
    (hTook : Took limits o s call s' call') : Sound s' ∧ Knows s' call' := by
  cases hTook with
  | ended => exact ⟨h.of_same (wallet_release call) (withdrawals_release call), trivial⟩
  | asked hAmount => exact ⟨h, hAmount⟩
  | locked _ hFunds =>
    exact ⟨h.of_same rfl rfl, fun _ => (ready_create h hKnows hFunds).of_same rfl⟩
  | allowed _ => exact ⟨h, hKnows⟩
  | dated => exact ⟨h, hKnows _⟩
  | @read _ _ row hRow => exact ⟨h, row, hRow, rfl⟩
  | @claimed _ _ _ _ row _ hRow hOpen =>
    obtain ⟨row', hRow', hAmount⟩ := hKnows
    obtain rfl : row = row' := Option.some.inj (hRow.symm.trans hRow')
    exact ⟨h.of_same rfl rfl, row, hRow, hAmount, hOpen⟩
  | @debited reference _ _ _ hFunds =>
    obtain ⟨row, hRow, rfl, hOpen⟩ := hKnows
    have hAmount := h.amounts row (List.mem_of_getElem? hRow)
    have hReady : Ready s (.settle .completed reference)
        ((unlock row.amount s.wallet).decrementBalance row.amount) :=
      ready_settle h hRow hOpen rfl ⟨unlock_nonneg, bounded_settle h.bounded.le hFunds⟩
        (sub_toUnits_le_unlock hAmount)
    exact ⟨h.of_same rfl rfl, hReady.of_same rfl⟩
  | @unlocked reference _ _ _ =>
    obtain ⟨row, hRow, rfl, hOpen⟩ := hKnows
    have hAmount := h.amounts row (List.mem_of_getElem? hRow)
    have hLe := (unlock_le h.bounded.nonneg hAmount).trans h.bounded.le
    have hReady : Ready s (.settle .failed reference) (unlock row.amount s.wallet) :=
      ready_settle h hRow hOpen rfl ⟨unlock_nonneg, hLe⟩ (sub_toUnits_le_unlock hAmount)
    exact ⟨h.of_same rfl rfl, hReady.of_same rfl⟩
  | priced hAmount hFee => exact ⟨h, hAmount, hFee⟩
  | selected _ hFunds => exact ⟨h.of_same rfl rfl, hKnows.1, hFunds⟩
  | @updated amount fee =>
    obtain ⟨hAmount, hFunds⟩ := hKnows
    have hUnits : 0 ≤ toUnits amount := column_nonneg hAmount.le
    have hLocked : ((s.wallet.decrementBalance fee).incrementLocked amount).lockedBalance =
        s.wallet.lockedBalance + toUnits amount :=
      locked_incrementLocked h.bounded.nonneg hAmount.le
    exact ⟨h, ready_keep h (by omega) (bounded_updateBuyer hFunds)⟩
  | invested => exact ⟨h, trivial⟩
  | @charged totalDebit _ _ _ hFunds =>
    have hLocked := Wallet.decrementBalance_locked totalDebit s.wallet
    have hReady : Ready s .keep (s.wallet.decrementBalance totalDebit) :=
      ready_keep h hLocked.ge (hLocked.trans_le (bounded_debit hFunds))
    exact ⟨h.of_same rfl rfl, hReady.of_same rfl⟩
  | paid => exact ⟨h, ready_creditPlatform hKnows⟩
  | credited => exact ⟨h, hKnows⟩
  | @committed write pending =>
    refine ⟨Sound.of_same hKnows rfl ?_, trivial⟩
    exact withdrawals_write (withdrawals_release _) write

/-- A write keeps every amount, and every row but the one it settles. -/
theorem row_write {reference : ℕ} {row : Withdrawal} (w : Write)
    (hRow : s.withdrawals[reference]? = some row) :
    ∃ row', (s.write w).withdrawals[reference]? = some row' ∧ row'.amount = row.amount ∧
      (w.reference ≠ some reference → row' = row) := by
  cases w with
  | create new => exact ⟨row, getElem?_append_of_some hRow, rfl, fun _ => rfl⟩
  | settle status settled =>
    by_cases hSame : settled = reference
    · subst hSame
      exact ⟨_, getElem?_modify_self _ hRow, rfl, fun hNe => absurd rfl hNe⟩
    · exact ⟨row, by rw [Store.write, getElem?_modify_ne _ hSame, hRow], rfl, fun _ => rfl⟩
  | keep => exact ⟨row, hRow, rfl, fun _ => rfl⟩

theorem knows_other {other : Call} (hKnows : Knows s other)
    (hWallet : call.holdsWallet = true → other.holdsWallet = false)
    (hRow : ∀ reference, call.claimed = some reference → other.claimed ≠ some reference)
    (hTook : Took limits o s call s' call') : Knows s' other := by
  cases hTook with
  | ended => exact hKnows.of_same (wallet_release call) (withdrawals_release call)
  | locked _ _ | claimed _ _ _ | debited _ _ | unlocked _ | selected _ _ | charged _ _ =>
    exact hKnows.of_same rfl rfl
  | asked _ | allowed _ | dated | read _ | priced _ _ | updated | invested | paid | credited =>
    exact hKnows
  | @committed write pending =>
    have hFree := hWallet rfl
    have hRows : (((s.release (.commit write pending)).write write).withdrawals) =
        (s.write write).withdrawals := withdrawals_write (withdrawals_release _) write
    cases other with
    | claim success reference amount fee =>
      obtain ⟨row, hAt, hAmount⟩ := hKnows
      obtain ⟨row', hAt', hSame, -⟩ := row_write write hAt
      exact ⟨row', by rw [hRows, hAt'], hSame.trans hAmount⟩
    | settleWallet success reference amount fee =>
      obtain ⟨row, hAt, hRest⟩ := hKnows
      obtain ⟨row', hAt', -, hKept⟩ := row_write write hAt
      have hNe : write.reference ≠ some reference := fun hSame => hRow reference hSame rfl
      rw [hKept hNe] at hAt'
      exact ⟨row, by rw [hRows, hAt'], hRest⟩
    | lockFunds amount fee => exact hKnows
    | selectForUpdate amount fee => exact hKnows
    | checkLimits _ _ _ | insert _ _ _ _ | updateBuyer _ _ | credit _ _ _ | commit _ _ => cases hFree
    | createWithdrawal _ | settle _ _ | createEscrow _ | invest _ | debit _ _ _ | done =>
      exact trivial

/-- In every run the locked balance stays between what the open withdrawals were locked with and the
balance. -/
theorem sound_of_reaches {ok : Guard Store Call Outcome} (hStart : Sound start)
    (h : (program limits).Reaches ok (Program.idle start) c) :
    Sound c.store ∧ ∀ call ∈ c.calls, Knows c.store call := by
  refine h.assertions_among Sound Knows ⟨hStart, nofun⟩ ?_ ?_ ?_
  · intro request s _
    cases request <;> exact trivial
  · intro o s s' call call' _ _ _ hSound hKnows _ hStep
    exact sound_step hSound hKnows (took_of_step hStep)
  · intro o s s' call call' before after other hReach hOther _ _ hKnows _ hStep
    refine knows_other hKnows (wallet_apart hReach hOther) ?_ (took_of_step hStep)
    intro reference hClaimed
    exact row_apart hReach hOther hClaimed

end Keeping

end FarmBackend.ReservedFunds
