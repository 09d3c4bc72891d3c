import FarmBackend.AgentPayments
import FarmBackend.Interleaving

/-!
# Refunds of a payment intent

Any number of `refund` calls on one intent. The claim compares the amount already refunded and the
status with what was read; the amounts are rounded to cents outside the transaction.
-/

namespace FarmBackend.Refunds
open Decimal Wallets Interleaving AgentPayments

set_option autoImplicit false

/-- One intent, the refunds of its business and the wallets. `activeWallet` is a user's first active
wallet, also for a payer that is not set. -/
structure Store where
  intentId : IntentId
  intent : PaymentIntent
  ownerUserId : UserId
  activeWallet : Option UserId → Option WalletId
  refunds : List PaymentRefund
  bank : Bank

structure RefundDto where
  amount : Option ℚ
  reason : Option String

structure Outcome where
  now : Time

structure Request where
  ctx : BizCtx
  dto : RefundDto
  idem : Option String

/-- What a refund has computed before its transaction. -/
structure Plan where
  read : PaymentIntent
  amt : ℚ
  newRefunded : ℚ
  status : IntentStatus

inductive Call where
  | lookup (r : Request)
  | expire (r : Request)
  | read (r : Request)
  | commit (r : Request) (plan : Plan)
  | done

def enter (r : Request) : Call := .lookup r

/-- The checks and amounts of a refund, from the intent it read. -/
def plan (dto : RefundDto) (i : PaymentIntent) : Option Plan :=
  let remaining := r2 (toNumber i.amount - toNumber i.amountRefunded)
  let amt := r2 (dto.amount.getD remaining)
  let newRefunded := r2 (toNumber i.amountRefunded + amt)
  let status : IntentStatus :=
    if toNumber i.amount - 1 / 10 ^ 9 ≤ newRefunded then .refunded else .partiallyRefunded
  if (i.status = .succeeded ∨ i.status = .partiallyRefunded) ∧ 0 < amt ∧
      amt ≤ remaining + 1 / 10 ^ 9 then
    some ⟨i, amt, newRefunded, status⟩
  else none

namespace Store

def keyed (businessId : BusinessId) (key : String) (s : Store) : Option PaymentRefund :=
  s.refunds.find? fun r => r.businessId == businessId && r.idempotencyKey == some key

/-- The unique index refuses a second row with the same key. -/
def keyTaken (businessId : BusinessId) (idem : Option String) (s : Store) : Bool :=
  idem.any fun key => (s.keyed businessId key).isSome

/-- The money of a live refund: a debit guarded by the balance, a credit, the transaction and its
two ledger entries. The answer is the id of the transaction. -/
def moveRefund (plan : Plan) (now : Time) (s : Store) : Option (Bank × ℕ) := do
  let source ← s.activeWallet (some s.ownerUserId)
  let target ← s.activeWallet plan.read.payerUserId
  let wallet ← s.bank.wallets source
  if wallet.isFrozen = false ∧ plan.amt ≤ toNumber wallet.balance then
    let bank ← s.bank.walletsUpdate source (Wallet.decrementBalance plan.amt)
    let bank ← bank.walletsUpdate target (Wallet.incrementBalance plan.amt)
    let id := bank.transactions.length
    let bank := bank.transactionsCreate
      { senderWalletId := some source
        receiverWalletId := some target
        transactionType := .transfer
        status := .completed
        amount := toUnits plan.amt
        fee := 0
        netAmount := toUnits plan.amt
        createdAt := now }
    let bank := bank.ledgerCreate ⟨some id, source, .debit, toUnits plan.amt⟩
    return (bank.ledgerCreate ⟨some id, target, .credit, toUnits plan.amt⟩, id)
  else none

def moveIfLive (live : Bool) (plan : Plan) (now : Time) (s : Store) : Option (Bank × Option ℕ) :=
  if live then (s.moveRefund plan now).map fun m => (m.1, some m.2) else some (s.bank, none)

def refundRow (r : Request) (plan : Plan) (transactionId : Option ℕ) (s : Store) :
    PaymentRefund where
  intentId := s.intentId
  businessId := r.ctx.businessId
  createdBy := r.ctx.actorUserId
  liveMode := r.ctx.live
  amount := toUnits plan.amt
  reason := r.dto.reason.map fun reason => (reason.take 255).toString
  transactionId := transactionId
  idempotencyKey := r.idem

/-- The refund's transaction. The optimistic lock on the refunded amount comes first. -/
def refundTx (r : Request) (plan : Plan) (now : Time) (s : Store) : Option Store :=
  if s.intent.amountRefunded = plan.read.amountRefunded ∧ s.intent.status = plan.read.status ∧
      s.keyTaken r.ctx.businessId r.idem = false then do
    let (bank, transactionId) ← s.moveIfLive r.ctx.live plan now
    return { s with
      intent := { s.intent with
        amountRefunded := toUnits plan.newRefunded
        status := plan.status }
      bank := bank
      refunds := s.refunds ++ [s.refundRow r plan transactionId] }
  else none

end Store

def step (o : Outcome) (s : Store) : Call → Option (Store × Call)
  | .lookup r =>
    match r.idem with
    | none => some (s, .expire r)
    | some key =>
      match s.keyed r.ctx.businessId key with
      | none => some (s, .expire r)
      | some _ => some (s, .done)
  | .expire r => some ({ s with intent := expireIntent o.now s.intent }, .read r)
  | .read r =>
    if s.intent.businessId = r.ctx.businessId ∧ s.intent.liveMode = r.ctx.live then do
      let plan ← plan r.dto s.intent
      return (s, .commit r plan)
    else none
  | .commit r plan => do
    let s ← s.refundTx r plan o.now
    return (s, .done)
  | .done => none

def program : Program Store Call Request Outcome := ⟨enter, step⟩

theorem plan_read {dto : RefundDto} {i : PaymentIntent} {p : Plan} (h : plan dto i = some p) :
    p.read = i := by
  simp only [plan, Option.ite_none_right_eq_some, Option.some.injEq] at h
  obtain ⟨_, rfl⟩ := h
  rfl

/-- On an intent of whole cents a refund is of whole cents, fits into what is left, and its status
says whether it is the last one. -/
theorem plan_cents {dto : RefundDto} {i : PaymentIntent} {p : Plan} {paid refunded : ℤ}
    (hPaid : i.amount = paid * cent) (hRefunded : i.amountRefunded = refunded * cent)
    (h : plan dto i = some p) :
    ∃ amt, 0 < amt ∧ refunded + amt ≤ paid ∧ p.amt = toNumber (amt * cent) ∧
      p.newRefunded = toNumber ((refunded + amt) * cent) ∧
      p.status = if refunded + amt = paid then .refunded else .partiallyRefunded := by
  have hRemaining : r2 (toNumber i.amount - toNumber i.amountRefunded) =
      toNumber ((paid - refunded) * cent) := by
    rw [hPaid, hRefunded, value_sub, ← sub_mul, r2_cents]
  simp only [plan, Option.ite_none_right_eq_some, Option.some.injEq] at h
  obtain ⟨⟨_, hPos, hLe⟩, rfl⟩ := h
  rw [hRemaining] at hPos hLe
  rw [hRemaining]
  have hAmt := r2_eq (dto.amount.getD (toNumber ((paid - refunded) * cent)))
  generalize mathRound (dto.amount.getD (toNumber ((paid - refunded) * cent)) * 100) = amt at hAmt
  rw [hAmt] at hPos hLe
  have hAmtPos : 0 < amt := by
    have hUnits : 0 < amt * cent := value_pos.mp hPos
    unfold cent at hUnits
    omega
  have hFits : refunded + amt ≤ paid := by
    have hCents : amt ≤ paid - refunded := cents_le_add hLe
    omega
  have hNew : r2 (toNumber i.amountRefunded +
      r2 (dto.amount.getD (toNumber ((paid - refunded) * cent)))) =
        toNumber ((refunded + amt) * cent) := by
    rw [hAmt, hRefunded, value_add, ← add_mul, r2_cents]
  refine ⟨amt, hAmtPos, hFits, hAmt, hNew, ?_⟩
  have hLast : toNumber i.amount - 1 / 10 ^ 9 ≤ toNumber ((refunded + amt) * cent) ↔
      refunded + amt = paid := by
    rw [hPaid]
    constructor
    · intro hReached
      have hCents : paid ≤ refunded + amt := cents_le_add (by linarith)
      omega
    · intro hEq
      rw [hEq]
      linarith
  simp only [hNew, hLast]

/-- The money of a live refund, in units of the columns. -/
theorem moveRefund_eq_some {p : Plan} {now : Time} {s : Store} {bank : Bank} {id : ℕ} {units : ℤ}
    (hUnits : p.amt = toNumber units) (h : s.moveRefund p now = some (bank, id)) :
    ∃ source target, s.activeWallet (some s.ownerUserId) = some source ∧
      s.activeWallet p.read.payerUserId = some target ∧
      id = s.bank.transactions.length ∧
      bank.transactions.length = s.bank.transactions.length + 1 ∧
      bank.ledger = s.bank.ledger ++
        [⟨some id, source, .debit, units⟩, ⟨some id, target, .credit, units⟩] ∧
      ∀ w, bank.balanceOf w = s.bank.balanceOf w +
        ((if some target = some w then units else 0) -
          (if some source = some w then units else 0)) := by
  simp only [Store.moveRefund, Option.bind_eq_bind, Option.bind_eq_some_iff,
    Option.ite_none_right_eq_some, Option.pure_def, Option.some.injEq, Prod.mk.injEq, hUnits] at h
  obtain ⟨source, hSource, target, hTarget, wallet, _, _, bank₁, hDebit, bank₂, hCredit, rfl,
    rfl⟩ := h
  obtain ⟨_, hTransactions₁, hLedger₁⟩ := Bank.rest_walletsUpdate hDebit
  obtain ⟨_, hTransactions₂, hLedger₂⟩ := Bank.rest_walletsUpdate hCredit
  obtain ⟨payer, hPayer, hBalance₁⟩ := Bank.balanceOf_walletsUpdate hDebit
  obtain ⟨payee, hPayee, hBalance₂⟩ := Bank.balanceOf_walletsUpdate hCredit
  refine ⟨source, target, hSource, hTarget, ?_, ?_, ?_, ?_⟩
  · rw [hTransactions₂, hTransactions₁]
  · simp [Bank.transactionsCreate, Bank.ledgerCreate, hTransactions₂, hTransactions₁]
  · simp [Bank.transactionsCreate, Bank.ledgerCreate, hLedger₂, hLedger₁]
  · intro w
    have hAfter : ∀ row first second,
        (((bank₂.transactionsCreate row).ledgerCreate first).ledgerCreate second).balanceOf w =
          bank₂.balanceOf w := fun _ _ _ => rfl
    rw [hAfter, hBalance₂, hBalance₁, Wallet.incrementBalance_toNumber,
      Wallet.decrementBalance_toNumber, ← Bank.balanceOf_eq hPayer, ← Bank.balanceOf_eq hPayee,
      hBalance₁, Wallet.decrementBalance_toNumber, ← Bank.balanceOf_eq hPayer]
    simp only [Option.some.injEq]
    grind

theorem refundTx_eq_some {r : Request} {p : Plan} {now : Time} {s s' : Store}
    (h : s.refundTx r p now = some s') :
    s.intent.amountRefunded = p.read.amountRefunded ∧ s.intent.status = p.read.status ∧
      ∃ bank transactionId,
        s' = { s with
          intent := { s.intent with
            amountRefunded := toUnits p.newRefunded
            status := p.status }
          bank := bank
          refunds := s.refunds ++ [s.refundRow r p transactionId] } ∧
        (r.ctx.live = true →
          ∃ id, transactionId = some id ∧ s.moveRefund p now = some (bank, id)) ∧
        (r.ctx.live = false → bank = s.bank) := by
  simp only [Store.refundTx, Option.ite_none_right_eq_some, Option.bind_eq_bind,
    Option.bind_eq_some_iff, Option.pure_def, Option.some.injEq] at h
  obtain ⟨⟨hRefunded, hStatus, _⟩, ⟨bank, transactionId⟩, hMoney, rfl⟩ := h
  refine ⟨hRefunded, hStatus, bank, transactionId, rfl, ?_, ?_⟩
  · intro hLive
    simp only [Store.moveIfLive, hLive, if_true, Option.map_eq_some_iff, Prod.mk.injEq] at hMoney
    obtain ⟨⟨moved, id⟩, hMove, rfl, rfl⟩ := hMoney
    exact ⟨id, rfl, hMove⟩
  · intro hSandbox
    simp only [Store.moveIfLive, hSandbox, Bool.false_eq_true, if_false, Option.some.injEq,
      Prod.mk.injEq] at hMoney
    exact hMoney.1.symm

end FarmBackend.Refunds
