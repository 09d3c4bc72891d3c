import FarmBackend.RefundTotals

/-!
# A refund and what the business has locked

The debit of a refund compares the amount with the whole balance of the owner's wallet, where the
other debits compare it with what is not locked. So a refund can leave less in the wallet than its
escrows and withdrawals have locked.
-/

namespace FarmBackend.Refunds
open Decimal Wallets Interleaving AgentPayments

set_option autoImplicit false

/-- The amount asked for, or else all that is left of the payment, in cents. -/
def refundAmount (dto : RefundDto) (i : PaymentIntent) : ℚ :=
  r2 (dto.amount.getD (r2 (toNumber i.amount - toNumber i.amountRefunded)))

section Locks
variable {o : Outcome} {s s' : Store} {r : Request} {i : PaymentIntent} {p : Plan} {now : Time}
  {source target : WalletId}

theorem plan_amt (h : plan r.dto i = some p) : p.read = i ∧ p.amt = refundAmount r.dto i := by
  simp only [plan, Option.ite_none_right_eq_some, Option.some.injEq] at h
  obtain ⟨-, rfl⟩ := h
  exact ⟨rfl, rfl⟩

theorem lockedOf_moveRefund {bank : Bank} {id : ℕ} (h : s.moveRefund p now = some (bank, id)) :
    ∀ w, bank.lockedOf w = s.bank.lockedOf w := by
  simp only [Store.moveRefund, Option.bind_eq_bind, Option.bind_eq_some_iff,
    Option.ite_none_right_eq_some, Option.pure_def, Option.some.injEq, Prod.mk.injEq] at h
  obtain ⟨source, -, target, -, _, -, -, bank₁, hDebit, bank₂, hCredit, rfl, -⟩ := h
  obtain ⟨payer, hPayer, hLocked₁⟩ := Bank.lockedOf_walletsUpdate hDebit
  obtain ⟨payee, hPayee, hLocked₂⟩ := Bank.lockedOf_walletsUpdate hCredit
  intro w
  have hAfter : ∀ row first second,
      (((bank₂.transactionsCreate row).ledgerCreate first).ledgerCreate second).lockedOf w =
        bank₂.lockedOf w := fun _ _ _ => rfl
  rw [hAfter, hLocked₂]
  split
  · rename_i hTarget
    rw [hTarget, Wallet.incrementBalance_locked, ← Bank.lockedOf_eq hPayee, hLocked₁]
    split
    · rename_i hSame
      rw [hSame, Wallet.decrementBalance_locked, Bank.lockedOf_eq hPayer]
    · rfl
  · rw [hLocked₁]
    split
    · rename_i hSource
      rw [hSource, Wallet.decrementBalance_locked, Bank.lockedOf_eq hPayer]
    · rfl

/-- A live refund takes its amount out of the owner's wallet, unless it comes back to it, and leaves
what is locked. -/
theorem commit_spec (hLive : r.ctx.live = true) (hPlan : plan r.dto i = some p)
    (hStep : step o s (.commit r p) = some (s', .done))
    (hSource : s.activeWallet (some s.ownerUserId) = some source)
    (hTarget : s.activeWallet i.payerUserId = some target) :
    s'.bank.lockedOf source = s.bank.lockedOf source ∧
      s'.bank.balanceOf source =
        s.bank.balanceOf source - if target = source then 0 else Wallets.toUnits p.amt := by
  simp only [step, Option.bind_eq_bind, Option.bind_eq_some_iff, Option.pure_def, Option.some.injEq,
    Prod.mk.injEq, and_true] at hStep
  obtain ⟨_, hTx, rfl⟩ := hStep
  obtain ⟨-, -, bank, transactionId, rfl, hMoney, -⟩ := refundTx_eq_some hTx
  obtain ⟨id, -, hMove⟩ := hMoney hLive
  obtain ⟨rfl, hAmt⟩ := plan_amt hPlan
  have hUnits : p.amt = toNumber (Wallets.toUnits p.amt) := by
    rw [hAmt, refundAmount, r2_eq, toUnits_toNumber]
  obtain ⟨source', target', hFrom, hTo, -, -, -, hBalance⟩ := moveRefund_eq_some hUnits hMove
  obtain rfl : source = source' := Option.some.inj (hSource.symm.trans hFrom)
  obtain rfl : target = target' := Option.some.inj (hTarget.symm.trans hTo)
  refine ⟨lockedOf_moveRefund hMove source, ?_⟩
  dsimp only
  rw [hBalance]
  simp only [Option.some.injEq, if_true]
  split <;> ring

/-- The refund leaves what is locked covered exactly when the amount is not locked, or comes back to
the same wallet. -/
theorem refund_keeps_locked_iff (hLive : r.ctx.live = true) (hPlan : plan r.dto i = some p)
    (hStep : step o s (.commit r p) = some (s', .done))
    (hSource : s.activeWallet (some s.ownerUserId) = some source)
    (hTarget : s.activeWallet i.payerUserId = some target)
    (hLocked : s.bank.lockedOf source ≤ s.bank.balanceOf source) :
    s'.bank.lockedOf source ≤ s'.bank.balanceOf source ↔
      target = source ∨
        refundAmount r.dto i ≤ toNumber (s.bank.balanceOf source - s.bank.lockedOf source) := by
  obtain ⟨hSame, hBalance⟩ := commit_spec hLive hPlan hStep hSource hTarget
  have hAmount : refundAmount r.dto i = toNumber (Wallets.toUnits p.amt) := by
    rw [(plan_amt hPlan).2, refundAmount, r2_eq, toUnits_toNumber]
  rw [hSame, hBalance, hAmount, value_le_value]
  by_cases hBack : target = source
  · simp only [hBack, if_true, true_or, iff_true]
    omega
  · simp only [hBack, if_false, false_or]
    omega

end Locks

/-- The business has 25 FARM, of which `locked` are locked. -/
def locking (locked : ℤ) : Store :=
  { tenPaid with
    bank := { tenPaid.bank with
      wallets := fun id =>
        if id = 11 then some ⟨2500 * cent, locked * cent, false⟩
        else if id = 12 then some ⟨0, 0, false⟩ else none } }

/-- One call from its lookup to its end. -/
def oneRefund : List (Move Request Outcome) :=
  [.enter (asked (some 8) none), .run 0 ⟨20⟩, .run 0 ⟨20⟩, .run 0 ⟨20⟩, .run 0 ⟨20⟩]

/-- Eight FARM are refunded out of ten that are not locked. -/
theorem unlocked_refund_covered : ∃ p s',
    step ⟨20⟩ (locking 1500) (.commit (asked (some 8) none) p) = some (s', .done) ∧
      s'.bank.lockedOf 11 ≤ s'.bank.balanceOf 11 := by
  have hAll : ((plan (asked (some 8) none).dto (locking 1500).intent).bind fun p =>
      step ⟨20⟩ (locking 1500) (.commit (asked (some 8) none) p)).isSome = true := by
    decide +kernel
  obtain ⟨⟨s', call⟩, hBoth⟩ := Option.isSome_iff_exists.mp hAll
  obtain ⟨p, hPlan, hStep⟩ := Option.bind_eq_some_iff.mp hBoth
  have hDone : call = .done := by
    simp only [step, Option.bind_eq_bind, Option.bind_eq_some_iff, Option.pure_def,
      Option.some.injEq, Prod.mk.injEq] at hStep
    obtain ⟨-, -, -, rfl⟩ := hStep
    rfl
  subst hDone
  have hSource : (locking 1500).activeWallet (some (locking 1500).ownerUserId) = some 11 := rfl
  have hTarget : (locking 1500).activeWallet (locking 1500).intent.payerUserId = some 12 := rfl
  have hLocked : (locking 1500).bank.lockedOf 11 ≤ (locking 1500).bank.balanceOf 11 := by
    decide +kernel
  refine ⟨p, s', hStep, ?_⟩
  refine (refund_keeps_locked_iff rfl hPlan hStep hSource hTarget hLocked).mpr (.inr ?_)
  decide +kernel

/-- Twenty of the 25 FARM are locked, and the refund of eight goes through. -/
theorem refund_spends_locked :
    (locking 2000).bank.lockedOf 11 ≤ (locking 2000).bank.balanceOf 11 ∧
    ∃ c, program.schedule oneRefund (Program.idle (locking 2000)) = some c ∧
      c.store.refunds.length = 1 ∧ c.store.bank.balanceOf 11 < c.store.bank.lockedOf 11 := by
  have hRun : (program.schedule oneRefund (Program.idle (locking 2000))).any (fun c =>
      decide (c.store.refunds.length = 1 ∧
        c.store.bank.balanceOf 11 < c.store.bank.lockedOf 11)) = true := by
    decide +kernel
  obtain ⟨c, hSchedule, hEnd⟩ := (Option.any_eq_true _ _).mp hRun
  exact ⟨by decide +kernel, c, hSchedule, of_decide_eq_true hEnd⟩

end FarmBackend.Refunds
