import FarmBackend.ReservedLocks

/-!
# Reserved funds along a run

A withdrawal is checked against the limits while its transaction has the lock of the wallet, so no
other is created before it commits. If the column holds all of every amount, and no row is dated
before its check, the wallet always has locked what the open withdrawals will take and no day has more
than the limits allow.
-/

namespace FarmBackend.ReservedFunds
open Decimal Fees Wallets Rows Interleaving
open Withdrawals (DailyLimits WithdrawalStatus unlock)

set_option autoImplicit false

/-! What a day adds up to. -/

section Days
variable {s : Store} {f : Withdrawal → ℚ} {since checkedAt : Time} {m : ℚ}

def inWindow (since : Time) (w : Withdrawal) : Bool :=
  decide (since ≤ w.createdAt ∧ w.createdAt ≤ since + DAY) && w.status != .failed

theorem sum_window (f : Withdrawal → ℚ) (since : Time) (s : Store) :
    ((s.window since).map f).sum =
      (s.withdrawals.map fun w => if inWindow since w = true then f w else 0).sum :=
  sum_map_filter f (inWindow since) s.withdrawals

theorem sum_window_one (since : Time) (s : Store) :
    ((s.window since).map fun _ => (1 : ℚ)).sum = (s.window since).length := by
  simp

/-- What a check at a time counts is at least every day that has not ended by then. -/
theorem sum_window_le_recent (hf : ∀ w ∈ s.withdrawals, 0 ≤ f w) (hDay : checkedAt ≤ since + DAY) :
    ((s.window since).map f).sum ≤ ((s.recent checkedAt).map f).sum := by
  unfold Store.recent
  rw [sum_window, sum_map_filter]
  apply List.sum_le_sum
  intro w hMem
  have hNonneg := hf w hMem
  by_cases hIn : inWindow since w = true
  · have hCounted : (decide (checkedAt ≤ w.createdAt + DAY) && w.status != .failed) = true := by
      simp only [inWindow, Bool.and_eq_true, decide_eq_true_eq] at hIn ⊢
      exact ⟨hDay.trans (Nat.add_le_add_right hIn.1.1 DAY), hIn.2⟩
    rw [if_pos hIn, if_pos hCounted]
  · rw [if_neg hIn]
    split
    · exact hNonneg
    · exact le_refl 0

theorem sum_window_create {row : Withdrawal} (hf : ∀ w ∈ s.withdrawals, 0 ≤ f w)
    (hDays : ∀ since, ((s.window since).map f).sum ≤ m) (hDated : checkedAt ≤ row.createdAt)
    (hCheck : ((s.recent checkedAt).map f).sum + f row ≤ m) (since : Time) :
    (((s.write (.create row)).window since).map f).sum ≤ m := by
  have hBefore := hDays since
  rw [sum_window] at hBefore ⊢
  rw [Store.write, sum_map_insert]
  by_cases hIn : inWindow since row = true
  · have hDay : checkedAt ≤ since + DAY := by
      simp only [inWindow, Bool.and_eq_true, decide_eq_true_eq] at hIn
      exact hDated.trans hIn.1.2
    have hRecent := sum_window_le_recent hf hDay
    rw [sum_window] at hRecent
    rw [if_pos hIn]
    linarith
  · rw [if_neg hIn, add_zero]
    exact hBefore

theorem sum_window_settle {reference : ℕ} {row : Withdrawal} {status : WithdrawalStatus}
    (hf : 0 ≤ f row) (hSame : f { row with status := status } = f row)
    (hRow : s.withdrawals[reference]? = some row) (hOpen : row.status.isOpen = true)
    (hDays : ∀ since, ((s.window since).map f).sum ≤ m) (since : Time) :
    (((s.write (.settle status reference)).window since).map f).sum ≤ m := by
  have hBefore := hDays since
  rw [sum_window] at hBefore ⊢
  rw [Store.write, sum_map_modify _ _ hRow]
  have hChange : (if inWindow since { row with status := status } = true
      then f { row with status := status } else 0) ≤ if inWindow since row = true then f row else 0 := by
    have hAlive : row.status ≠ .failed := by
      intro hFailed
      rw [hFailed] at hOpen
      cases hOpen
    by_cases hIn : inWindow since { row with status := status } = true
    · have hWas : inWindow since row = true := by
        simp only [inWindow, Bool.and_eq_true, decide_eq_true_eq, bne_iff_ne] at hIn ⊢
        exact ⟨hIn.1, hAlive⟩
      rw [if_pos hIn, if_pos hWas, hSame]
    · rw [if_neg hIn]
      split
      · exact hf
      · exact le_refl 0
  linarith

end Days

section Limits
variable {limits : DailyLimits} {o : Outcome} {s s' start : Store} {call call' : Call}
  {c : Config Store Call}

theorem Limited.of_same (h : s.Limited limits) (hRows : s'.withdrawals = s.withdrawals) :
    s'.Limited limits := by
  obtain ⟨hCount, hAmount⟩ := h
  unfold Store.window at hCount hAmount
  refine ⟨?_, ?_⟩
  · unfold Store.window
    rwa [hRows]
  · unfold Store.window
    rwa [hRows]

theorem limited_create {row : Withdrawal} {checkedAt : Time} (h : s.Limited limits)
    (hAmounts : ∀ w ∈ s.withdrawals, 0 ≤ w.amount) (hDated : checkedAt ≤ row.createdAt)
    (hCheck : WithinLimits limits row.amount (s.recent checkedAt)) :
    (s.write (.create row)).Limited limits := by
  constructor
  · intro hPos since
    have hDays : ∀ since, ((s.window since).map fun _ => (1 : ℚ)).sum ≤ limits.maxCount := by
      intro since
      rw [sum_window_one]
      exact h.count hPos since
    rw [← sum_window_one]
    refine sum_window_create (fun _ _ => zero_le_one) hDays hDated ?_ since
    simpa using hCheck.1 hPos
  · intro hPos since
    exact sum_window_create hAmounts (h.amount hPos) hDated (hCheck.2 hPos) since

theorem limited_settle {reference : ℕ} {row : Withdrawal} {status : WithdrawalStatus}
    (h : s.Limited limits) (hAmounts : ∀ w ∈ s.withdrawals, 0 ≤ w.amount)
    (hRow : s.withdrawals[reference]? = some row) (hOpen : row.status.isOpen = true) :
    (s.write (.settle status reference)).Limited limits := by
  constructor
  · intro hPos since
    have hDays : ∀ since, ((s.window since).map fun _ => (1 : ℚ)).sum ≤ limits.maxCount := by
      intro since
      rw [sum_window_one]
      exact h.count hPos since
    rw [← sum_window_one]
    exact sum_window_settle zero_le_one rfl hRow hOpen hDays since
  · intro hPos since
    have hAmount := hAmounts row (List.mem_of_getElem? hRow)
    have hSame : ({ row with status := status } : Withdrawal).amount = row.amount := rfl
    exact sum_window_settle hAmount hSame hRow hOpen (h.amount hPos) since

/-- What a transaction knows of the limits under its lock. -/
def Checked (limits : DailyLimits) (s : Store) : Call → Prop
  | .insert amount _ checkedAt _ => WithinLimits limits amount (s.recent checkedAt)
  | .credit _ write _ | .commit write _ => (s.write write).Limited limits
  | _ => True

theorem Checked.of_same (h : Checked limits s call) (hRows : s'.withdrawals = s.withdrawals) :
    Checked limits s' call := by
  cases call with
  | insert amount fee checkedAt pending =>
    simp only [Checked, Store.recent] at h ⊢
    rwa [hRows]
  | credit fees write pending => exact Limited.of_same h (withdrawals_write hRows write)
  | commit write pending => exact Limited.of_same h (withdrawals_write hRows write)
  | _ => exact trivial

theorem checked_of_free (h : call.holdsWallet = false) : Checked limits s call := by
  cases call with
  | checkLimits _ _ _ | insert _ _ _ _ | updateBuyer _ _ | credit _ _ _ | commit _ _ => cases h
  | _ => exact trivial

theorem limited_step (h : s.Limited limits) (hSound : Sound s) (hKnows : Knows s call)
    (hChecked : Checked limits s call) (hHeeds : Heeds o s call)
    (hTook : Took limits o s call s' call') : s'.Limited limits ∧ Checked limits s' call' := by
  cases hTook with
  | ended => exact ⟨Limited.of_same h (withdrawals_release call), trivial⟩
  | asked _ | read _ | priced _ _ | invested => exact ⟨h, trivial⟩
  | locked _ _ | claimed _ _ _ | selected _ _ => exact ⟨Limited.of_same h rfl, trivial⟩
  | allowed hLimits => exact ⟨h, hLimits⟩
  | dated => exact ⟨h, limited_create h hSound.amounts (hHeeds.2 _ rfl) hChecked⟩
  | @debited reference _ _ _ _ =>
    obtain ⟨row, hRow, -, hOpen⟩ := hKnows
    have hLimited : (s.write (.settle .completed reference)).Limited limits :=
      limited_settle h hSound.amounts hRow hOpen
    exact ⟨Limited.of_same h rfl, Limited.of_same hLimited rfl⟩
  | @unlocked reference _ _ _ =>
    obtain ⟨row, hRow, -, hOpen⟩ := hKnows
    have hLimited : (s.write (.settle .failed reference)).Limited limits :=
      limited_settle h hSound.amounts hRow hOpen
    exact ⟨Limited.of_same h rfl, Limited.of_same hLimited rfl⟩
  | updated => exact ⟨h, h⟩
  | charged _ _ => exact ⟨Limited.of_same h rfl, Limited.of_same h rfl⟩
  | paid => exact ⟨h, hChecked⟩
  | credited => exact ⟨h, hChecked⟩
  | @committed write pending =>
    refine ⟨Limited.of_same hChecked ?_, trivial⟩
    exact withdrawals_write (withdrawals_release _) write

theorem checked_other {other : Call} (hChecked : Checked limits s other)
    (hWallet : call.holdsWallet = true → other.holdsWallet = false)
    (hTook : Took limits o s call s' call') : Checked limits s' other := by
  cases hTook with
  | ended => exact hChecked.of_same (withdrawals_release call)
  | committed => exact checked_of_free (hWallet rfl)
  | _ => exact hChecked.of_same rfl

theorem limited_of_reaches (hStart : Sound start) (hLimited : start.Limited limits)
    (h : (program limits).Reaches Heeds (Program.idle start) c) : c.store.Limited limits := by
  have hRun := h.assertions_among (Store.Limited limits) (Checked limits) ⟨hLimited, nofun⟩ ?_ ?_ ?_
  · exact hRun.1
  · intro request s _
    cases request <;> exact trivial
  · intro o s s' call call' before after hReach hBefore hChecked hHeeds hStep
    obtain ⟨hSound, hKnows⟩ := sound_of_reaches hStart hReach
    exact limited_step hBefore hSound (hKnows call (by simp)) hChecked hHeeds (took_of_step hStep)
  · intro o s s' call call' before after other hReach hOther _ _ hChecked _ hStep
    exact checked_other hChecked (wallet_apart hReach hOther) (took_of_step hStep)

/-! The amounts that the column holds. -/

/-- The amount that a call will put into a row. -/
def Call.amountFits : Call → Prop
  | .lockFunds amount _ | .checkLimits amount _ _ | .insert amount _ _ _ => Fits amount
  | .credit _ write _ | .commit write _ => ∀ row, write = .create row → Fits row.amount
  | _ => True

def Store.AmountsFit (s : Store) : Prop := ∀ row ∈ s.withdrawals, Fits row.amount

theorem AmountsFit.of_same (h : s.AmountsFit) (hRows : s'.withdrawals = s.withdrawals) :
    s'.AmountsFit := by
  unfold Store.AmountsFit at h ⊢
  rwa [hRows]

theorem amountsFit_write {w : Write} (h : s.AmountsFit)
    (hWrite : ∀ row, w = .create row → Fits row.amount) : (s.write w).AmountsFit := by
  intro row hMem
  cases w with
  | create new =>
    rcases List.mem_append.mp hMem with hOld | hNew
    · exact h row hOld
    · rw [List.mem_singleton.mp hNew]
      exact hWrite new rfl
  | settle status reference =>
    obtain ⟨id, hAt⟩ := List.mem_iff_getElem?.mp hMem
    rcases getElem?_modify_cases hAt with ⟨-, old, hOld, rfl⟩ | ⟨-, hOld⟩
    · exact h old (List.mem_of_getElem? hOld)
    · exact h row (List.mem_of_getElem? hOld)
  | keep => exact h row hMem

theorem amountsFit_step (h : s.AmountsFit) (hCall : call.amountFits) (hHeeds : Heeds o s call)
    (hTook : Took limits o s call s' call') : s'.AmountsFit ∧ call'.amountFits := by
  cases hTook with
  | ended => exact ⟨AmountsFit.of_same h (withdrawals_release call), trivial⟩
  | asked _ => exact ⟨h, hHeeds.1 _ rfl⟩
  | locked _ _ => exact ⟨AmountsFit.of_same h rfl, hCall⟩
  | allowed _ => exact ⟨h, hCall⟩
  | dated =>
    refine ⟨h, ?_⟩
    rintro row ⟨⟩
    exact hCall
  | read _ | priced _ _ | invested => exact ⟨h, trivial⟩
  | claimed _ _ _ | selected _ _ => exact ⟨AmountsFit.of_same h rfl, trivial⟩
  | debited _ _ | unlocked _ | charged _ _ => exact ⟨AmountsFit.of_same h rfl, nofun⟩
  | updated => exact ⟨h, nofun⟩
  | paid => exact ⟨h, hCall⟩
  | credited => exact ⟨h, hCall⟩
  | @committed write pending =>
    refine ⟨AmountsFit.of_same (amountsFit_write h hCall) ?_, trivial⟩
    exact withdrawals_write (withdrawals_release _) write

theorem amountsFit_of_reaches (hFits : start.AmountsFit)
    (h : (program limits).Reaches Heeds (Program.idle start) c) : c.store.AmountsFit := by
  have hRun := h.assertions Store.AmountsFit (fun _ call => call.amountFits) ⟨hFits, nofun⟩ ?_ ?_ ?_
  · exact hRun.1
  · intro request s _
    cases request <;> exact trivial
  · intro o s s' call call' hBefore hCall hHeeds hStep
    exact amountsFit_step hBefore hCall hHeeds (took_of_step hStep)
  · intro _ _ _ _ _ other _ _ hOther _ _
    exact hOther

/-- What fits the column is reserved in full. -/
theorem backed_of_fits (hSound : Sound s) (hFits : s.AmountsFit) : s.Backed := by
  have hUnits : ∀ rows : List Withdrawal, (∀ row ∈ rows, Fits row.amount) →
      (rows.map Withdrawal.openAmount).sum ≤
        toNumber (rows.map Withdrawal.reservedUnits).sum := by
    intro rows hRows
    induction rows with
    | nil => exact (value_zero 8).ge
    | cons row rows ih =>
      have hRest := ih fun other hMem => hRows other (List.mem_cons_of_mem row hMem)
      have hRow : row.openAmount ≤ toNumber row.reservedUnits := by
        unfold Withdrawal.openAmount Withdrawal.reservedUnits
        split
        · exact hRows row List.mem_cons_self
        · exact (value_zero 8).ge
      have hSum := value_add 8 row.reservedUnits (rows.map Withdrawal.reservedUnits).sum
      simp only [List.map_cons, List.sum_cons]
      linarith
  exact (hUnits _ hFits).trans (value_le_value.mpr hSound.reserved)

structure Kept (limits : DailyLimits) (s : Store) : Prop where
  bounded : s.Bounded
  backed : s.Backed
  limited : s.Limited limits

end Limits

/-- A wallet of 20 FARM without withdrawals. -/
def funded : Store where
  wallet := ⟨2000000000, 0, false⟩
  isPlatform := false
  withdrawals := []
  walletLocked := false
  rowLocked _ := false

def world : Outcome := ⟨0, 0, FEE_DEFAULTS, ⟨3, 0, 0, 0⟩, 0, false⟩

def DEFAULT_LIMITS : DailyLimits := ⟨5, 1000000⟩

def withdrawing (amount : ℚ) : List (Move Request Outcome) :=
  [.enter (.createWithdrawal amount), .run 0 world, .run 0 world, .run 0 world, .run 0 world,
    .run 0 world]

theorem sound_funded : Sound funded := ⟨⟨le_refl 0, by decide⟩, le_refl 0, nofun⟩

theorem limited_funded : funded.Limited DEFAULT_LIMITS := by
  constructor
  · intro _ since
    norm_num [funded, Store.window, DEFAULT_LIMITS]
  · intro _ since
    norm_num [funded, Store.window, DEFAULT_LIMITS]

end FarmBackend.ReservedFunds
