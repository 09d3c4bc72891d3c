import FarmBackend.Refunds

/-!
# What the refunds of one intent add up to

Along every run the refunded amount is the sum of the refund rows and stays within what was paid.
Every live row has its own transaction, whose two entries are its debit and its credit.
-/

namespace FarmBackend.Refunds
open Decimal Wallets Interleaving AgentPayments

set_option autoImplicit false

namespace Store

def ownRefunds (s : Store) : List PaymentRefund := s.refunds.filter (·.intentId = s.intentId)

def liveRefunds (s : Store) : List PaymentRefund := s.ownRefunds.filter (·.liveMode)

/-- What a refund of the intent is to one wallet, which may be the payer's and the owner's. -/
def gain (s : Store) (w : WalletId) (r : PaymentRefund) : ℤ :=
  (if s.activeWallet s.intent.payerUserId = some w then r.amount else 0) -
    (if s.activeWallet (some s.ownerUserId) = some w then r.amount else 0)

def entriesOf (s : Store) (id : ℕ) : List LedgerEntry :=
  s.bank.ledger.filter (·.transactionId = some id)

end Store

/-- The refund's transaction is a debit of the owner's wallet and a credit of the payer's, of the
amount of the row, and nothing else. -/
def Paired (s : Store) (r : PaymentRefund) : Prop :=
  ∃ id source target, r.transactionId = some id ∧
    s.activeWallet (some s.ownerUserId) = some source ∧
    s.activeWallet s.intent.payerUserId = some target ∧
    s.entriesOf id = [⟨some id, source, .debit, r.amount⟩, ⟨some id, target, .credit, r.amount⟩]

structure Totals (s : Store) : Prop where
  refunded_eq : s.intent.amountRefunded = (s.ownRefunds.map (·.amount)).sum
  refunded_le : s.intent.amountRefunded ≤ s.intent.amount
  refunded_iff : s.intent.status = .refunded ↔ s.intent.amountRefunded = s.intent.amount

structure Moved (start s : Store) : Prop where
  paired : ∀ r ∈ s.liveRefunds, Paired s r
  distinct : (s.liveRefunds.map (·.transactionId)).Nodup
  balances : ∀ w, s.bank.balanceOf w =
    start.bank.balanceOf w + (s.liveRefunds.map (start.gain w)).sum

/-- An intent of whole cents that nobody has refunded yet, in a ledger whose entries belong to
transactions that exist. -/
structure Unrefunded (s : Store) : Prop where
  cents : ∃ paid, 0 < paid ∧ s.intent.amount = paid * cent
  refunded : s.intent.amountRefunded = 0
  status : s.intent.status ≠ .refunded
  rows : ∀ r ∈ s.refunds, r.intentId ≠ s.intentId
  entries : ∀ e ∈ s.bank.ledger, ∀ id, e.transactionId = some id →
    id < s.bank.transactions.length

/-- What no step changes. -/
structure Kept (start s : Store) : Prop where
  intentId : s.intentId = start.intentId
  ownerUserId : s.ownerUserId = start.ownerUserId
  activeWallet : s.activeWallet = start.activeWallet
  amount : s.intent.amount = start.intent.amount
  payerUserId : s.intent.payerUserId = start.intent.payerUserId

/-- The entries and the live rows name transactions that exist. -/
def Dated (s : Store) : Prop :=
  (∀ e ∈ s.bank.ledger, ∀ id, e.transactionId = some id → id < s.bank.transactions.length) ∧
    ∀ r ∈ s.liveRefunds, ∀ id, r.transactionId = some id → id < s.bank.transactions.length

structure Invariant (start s : Store) : Prop where
  kept : Kept start s
  totals : Totals s
  moved : Moved start s
  cents : ∃ paid refunded, s.intent.amount = paid * cent ∧
    s.intent.amountRefunded = refunded * cent
  dated : Dated s

/-- What a call knows: its plan was made for the intent, at some earlier time. -/
def Knows (s : Store) : Call → Prop
  | .commit r p => plan r.dto p.read = some p ∧ p.read.amount = s.intent.amount ∧
      p.read.payerUserId = s.intent.payerUserId
  | _ => True

theorem Unrefunded.ownRefunds_eq {s : Store} (h : Unrefunded s) : s.ownRefunds = [] := by
  rw [Store.ownRefunds, List.filter_eq_nil_iff]
  intro r hMem
  simpa using h.rows r hMem

theorem Unrefunded.invariant {s : Store} (h : Unrefunded s) : Invariant s s := by
  have hOwn := h.ownRefunds_eq
  have hLive : s.liveRefunds = [] := by rw [Store.liveRefunds, hOwn, List.filter_nil]
  obtain ⟨paid, hPaid, hAmount⟩ := h.cents
  have hPos : 0 < s.intent.amount := by
    rw [hAmount]
    unfold cent
    omega
  refine ⟨⟨rfl, rfl, rfl, rfl, rfl⟩, ?_, ?_, ?_, h.entries, ?_⟩
  · constructor
    · rw [h.refunded, hOwn]
      rfl
    · rw [h.refunded]
      exact hPos.le
    · constructor
      · intro hStatus
        exact absurd hStatus h.status
      · intro hEq
        rw [h.refunded] at hEq
        omega
  · constructor <;> simp [hLive]
  · exact ⟨paid, 0, hAmount, by rw [h.refunded, zero_mul]⟩
  · simp [hLive]

theorem ownRefunds_append {s s' : Store} {row : PaymentRefund} (hIntent : s'.intentId = s.intentId)
    (hRows : s'.refunds = s.refunds ++ [row]) (hOwn : row.intentId = s.intentId) :
    s'.ownRefunds = s.ownRefunds ++ [row] := by
  simp [Store.ownRefunds, hRows, hIntent, hOwn]

theorem liveRefunds_append {s s' : Store} {row : PaymentRefund}
    (h : s'.ownRefunds = s.ownRefunds ++ [row]) :
    s'.liveRefunds = s.liveRefunds ++ if row.liveMode then [row] else [] := by
  cases hLive : row.liveMode <;> simp [Store.liveRefunds, h, hLive]

theorem Kept.gain {start s : Store} (h : Kept start s) : s.gain = start.gain := by
  unfold Store.gain
  rw [h.activeWallet, h.payerUserId, h.ownerUserId]

/-- An old transaction keeps its entries: the ledger grows by entries of a new one. -/
theorem Paired.grow {s s' : Store} {r : PaymentRefund} {new : List LedgerEntry}
    (hKept : Kept s s') (hLedger : s'.bank.ledger = s.bank.ledger ++ new)
    (hNew : ∀ e ∈ new, e.transactionId ≠ r.transactionId) (h : Paired s r) : Paired s' r := by
  obtain ⟨id, source, target, hId, hSource, hTarget, hEntries⟩ := h
  refine ⟨id, source, target, hId, ?_, ?_, ?_⟩
  · rw [hKept.activeWallet, hKept.ownerUserId, hSource]
  · rw [hKept.activeWallet, hKept.payerUserId, hTarget]
  · have hNone : new.filter (·.transactionId = some id) = [] := by
      rw [List.filter_eq_nil_iff]
      intro e hMem
      have hOther := hNew e hMem
      rw [hId] at hOther
      simpa using hOther
    rw [← hEntries, Store.entriesOf, Store.entriesOf, hLedger, List.filter_append, hNone,
      List.append_nil]

theorem Moved.sandbox {start s s' : Store} (hKept : Kept s s') (h : Moved start s)
    (hRows : s'.liveRefunds = s.liveRefunds) (hBank : s'.bank = s.bank) : Moved start s' := by
  obtain ⟨hPaired, hDistinct, hBalances⟩ := h
  constructor
  · intro r hMem
    rw [hRows] at hMem
    exact (hPaired r hMem).grow hKept (by rw [hBank, List.append_nil]) (by simp)
  · rwa [hRows]
  · rwa [hRows, hBank]

theorem Moved.live {start s s' : Store} {row : PaymentRefund} {p : Plan} {now : Time} {id : ℕ}
    (hStart : Kept start s) (hKept : Kept s s') (h : Moved start s)
    (hDated : Dated s) (hRows : s'.liveRefunds = s.liveRefunds ++ [row]) (hAmount : p.amt = toNumber row.amount)
    (hId : row.transactionId = some id) (hPayer : p.read.payerUserId = s.intent.payerUserId)
    (hMove : s.moveRefund p now = some (s'.bank, id)) : Moved start s' := by
  obtain ⟨hPaired, hDistinct, hBalances⟩ := h
  obtain ⟨source, target, hSource, hTarget, hNext, _, hLedger, hMoved⟩ :=
    moveRefund_eq_some hAmount hMove
  rw [hPayer] at hTarget
  have hOld : ∀ r ∈ s.liveRefunds, r.transactionId ≠ some id := by
    intro r hMem hSame
    have hLt := hDated.2 r hMem id hSame
    omega
  constructor
  · intro r hMem
    rw [hRows] at hMem
    rcases List.mem_append.mp hMem with hMem | hMem
    · refine (hPaired r hMem).grow hKept hLedger ?_
      intro e hNew
      have hTransaction : e.transactionId = some id := by
        simp only [List.mem_cons, List.not_mem_nil, or_false] at hNew
        rcases hNew with rfl | rfl <;> rfl
      rw [hTransaction]
      exact (hOld r hMem).symm
    · rw [List.mem_singleton.mp hMem]
      refine ⟨id, source, target, hId, ?_, ?_, ?_⟩
      · rw [hKept.activeWallet, hKept.ownerUserId, hSource]
      · rw [hKept.activeWallet, hKept.payerUserId, hTarget]
      · have hNone : s.bank.ledger.filter (·.transactionId = some id) = [] := by
          rw [List.filter_eq_nil_iff]
          intro e hMem hSame
          have hLt := hDated.1 e hMem id (by simpa using hSame)
          omega
        rw [Store.entriesOf, hLedger, List.filter_append, hNone]
        simp
  · rw [hRows, List.map_append, List.nodup_append]
    refine ⟨hDistinct, by simp, ?_⟩
    intro old hOldMem new hNew hSame
    obtain ⟨r, hMem, rfl⟩ := List.mem_map.mp hOldMem
    have hNewId : new = some id := by simpa [hId] using hNew
    exact hOld r hMem (hSame.trans hNewId)
  · intro w
    have hGain : start.gain w row = (if some target = some w then row.amount else 0) -
        (if some source = some w then row.amount else 0) := by
      rw [← hStart.gain, Store.gain, hSource, hTarget]
    rw [hMoved, hBalances, hRows, List.map_append, List.sum_append, List.map_singleton,
      List.sum_singleton, hGain, add_assoc]

theorem Kept.trans {start s s' : Store} (h : Kept start s) (h' : Kept s s') : Kept start s' :=
  ⟨h'.intentId.trans h.intentId, h'.ownerUserId.trans h.ownerUserId,
    h'.activeWallet.trans h.activeWallet, h'.amount.trans h.amount,
    h'.payerUserId.trans h.payerUserId⟩

/-- The lock makes the amount already refunded the one the plan was made for, so that a committed
refund adds its row to the sum. -/
theorem Totals.refundTx {s s' : Store} {r : Request} {p : Plan} {now : Time}
    {paid refunded : ℤ} (h : Totals s) (hKnows : Knows s (.commit r p))
    (hPaid : s.intent.amount = paid * cent) (hRefunded : s.intent.amountRefunded = refunded * cent)
    (hTx : s.refundTx r p now = some s') :
    Totals s' ∧ ∃ refunded', s'.intent.amountRefunded = refunded' * cent := by
  obtain ⟨hPlan, hReadAmount, _⟩ := hKnows
  obtain ⟨hLock, _, bank, transactionId, hEq, _, _⟩ := refundTx_eq_some hTx
  obtain ⟨amt, hAmtPos, hFits, hAmt, hNew, hStatus⟩ :=
    plan_cents (hReadAmount.trans hPaid) (hLock.symm.trans hRefunded) hPlan
  have hRow : (s.refundRow r p transactionId).amount = amt * cent := by
    simp only [Store.refundRow, hAmt, toUnits_toNumber]
  have hOwn : s'.ownRefunds = s.ownRefunds ++ [s.refundRow r p transactionId] :=
    ownRefunds_append (by rw [hEq]) (by rw [hEq]) rfl
  have hAfter : s'.intent.amountRefunded = (refunded + amt) * cent := by
    rw [hEq, hNew, toUnits_toNumber]
  have hAmount : s'.intent.amount = paid * cent := by rw [hEq, ← hPaid]
  have hStatusAfter : s'.intent.status = p.status := by rw [hEq]
  refine ⟨?_, refunded + amt, hAfter⟩
  constructor
  · rw [hOwn, Rows.sum_map_insert, hRow, ← h.refunded_eq, hAfter, hRefunded, add_mul]
  · rw [hAfter, hAmount]
    unfold cent
    omega
  · rw [hStatusAfter, hStatus, hAfter, hAmount]
    unfold cent
    split <;> simp <;> omega

theorem kept_refundTx {s s' : Store} {r : Request} {p : Plan} {now : Time}
    (hTx : s.refundTx r p now = some s') : Kept s s' := by
  obtain ⟨_, _, bank, transactionId, rfl, _, _⟩ := refundTx_eq_some hTx
  exact ⟨rfl, rfl, rfl, rfl, rfl⟩

theorem Moved.refundTx {start s s' : Store} {r : Request} {p : Plan} {now : Time} {amt : ℤ}
    (hStart : Kept start s) (hMoved : Moved start s) (hDated : Dated s)
    (hAmt : p.amt = toNumber amt) (hPayer : p.read.payerUserId = s.intent.payerUserId)
    (hTx : s.refundTx r p now = some s') : Moved start s' ∧ Dated s' := by
  have hKept := kept_refundTx hTx
  obtain ⟨_, _, bank, transactionId, hEq, hLive, hSandbox⟩ := refundTx_eq_some hTx
  have hRows : s'.liveRefunds = s.liveRefunds ++
      if (s.refundRow r p transactionId).liveMode then [s.refundRow r p transactionId] else [] :=
    liveRefunds_append (ownRefunds_append (by rw [hEq]) (by rw [hEq]) rfl)
  have hBank : s'.bank = bank := by rw [hEq]
  cases hMode : r.ctx.live with
  | false =>
    have hSame : s'.liveRefunds = s.liveRefunds := by
      rw [hRows, if_neg (by simp [Store.refundRow, hMode]), List.append_nil]
    rw [hSandbox hMode] at hBank
    exact ⟨hMoved.sandbox hKept hSame hBank, by rwa [Dated, hSame, hBank]⟩
  | true =>
    obtain ⟨id, rfl, hMove⟩ := hLive hMode
    have hNew : s'.liveRefunds = s.liveRefunds ++ [s.refundRow r p (some id)] := by
      rw [hRows, if_pos (show (s.refundRow r p (some id)).liveMode = true from hMode)]
    rw [← hBank] at hMove
    have hRow : p.amt = toNumber (s.refundRow r p (some id)).amount := by
      rw [hAmt]
      simp only [Store.refundRow, hAmt, toUnits_toNumber]
    refine ⟨hMoved.live hStart hKept hDated hNew hRow rfl hPayer hMove, ?_, ?_⟩
    all_goals
      obtain ⟨source, target, _, _, hId, hLength, hLedger, _⟩ := moveRefund_eq_some hRow hMove
      rw [hLength]
    · intro e hMem other hOther
      rw [hLedger] at hMem
      rcases List.mem_append.mp hMem with hMem | hMem
      · have hLt := hDated.1 e hMem other hOther
        omega
      · simp only [List.mem_cons, List.not_mem_nil, or_false] at hMem
        rcases hMem with rfl | rfl <;> simp only [Option.some.injEq] at hOther <;> omega
    · intro row hMem other hOther
      rw [hNew] at hMem
      rcases List.mem_append.mp hMem with hMem | hMem
      · have hLt := hDated.2 row hMem other hOther
        omega
      · rw [List.mem_singleton.mp hMem] at hOther
        simp only [Store.refundRow, Option.some.injEq] at hOther
        omega

theorem Invariant.refundTx {start s s' : Store} {r : Request} {p : Plan} {now : Time}
    (hInv : Invariant start s) (hKnows : Knows s (.commit r p))
    (hTx : s.refundTx r p now = some s') : Invariant start s' := by
  obtain ⟨paid, refunded, hPaid, hRefunded⟩ := hInv.cents
  have hKept := kept_refundTx hTx
  obtain ⟨hTotals, refunded', hRefunded'⟩ := hInv.totals.refundTx hKnows hPaid hRefunded hTx
  obtain ⟨hPlan, hReadAmount, hReadPayer⟩ := hKnows
  obtain ⟨hLock, _⟩ := refundTx_eq_some hTx
  obtain ⟨amt, _, _, hAmt, _⟩ :=
    plan_cents (hReadAmount.trans hPaid) (hLock.symm.trans hRefunded) hPlan
  obtain ⟨hMoved, hDated⟩ :=
    Moved.refundTx hInv.kept hInv.moved hInv.dated hAmt hReadPayer hTx
  exact ⟨hInv.kept.trans hKept, hTotals, hMoved,
    ⟨paid, refunded', hKept.amount.trans hPaid, hRefunded'⟩, hDated⟩

theorem expireIntent_fields (now : Time) (i : PaymentIntent) :
    (expireIntent now i).amount = i.amount ∧ (expireIntent now i).payerUserId = i.payerUserId ∧
      (expireIntent now i).amountRefunded = i.amountRefunded ∧
      ((expireIntent now i).status = .refunded ↔ i.status = .refunded) := by
  unfold expireIntent
  split
  · rename_i hOpen
    simp [hOpen.1]
  · simp

theorem kept_expire (now : Time) (s : Store) :
    Kept s { s with intent := expireIntent now s.intent } := by
  obtain ⟨hAmount, hPayer, _, _⟩ := expireIntent_fields now s.intent
  exact ⟨rfl, rfl, rfl, hAmount, hPayer⟩

theorem Invariant.expire {start s : Store} (now : Time) (hInv : Invariant start s) :
    Invariant start { s with intent := expireIntent now s.intent } := by
  obtain ⟨hAmount, hPayer, hRefunded, hStatus⟩ := expireIntent_fields now s.intent
  have hKept := kept_expire now s
  obtain ⟨paid, refunded, hPaid, hCents⟩ := hInv.cents
  refine ⟨hInv.kept.trans hKept, ?_, hInv.moved.sandbox hKept rfl rfl, ?_, hInv.dated⟩
  · obtain ⟨hEq, hLe, hIff⟩ := hInv.totals
    exact ⟨hRefunded.trans hEq, by rwa [hRefunded, hAmount],
      by rw [hStatus, hRefunded, hAmount, hIff]⟩
  · exact ⟨paid, refunded, hAmount.trans hPaid, hRefunded.trans hCents⟩

theorem Knows.kept {s s' : Store} (hKept : Kept s s') {call : Call} (h : Knows s call) :
    Knows s' call := by
  cases call with
  | commit r p =>
    obtain ⟨hPlan, hAmount, hPayer⟩ := h
    exact ⟨hPlan, hAmount.trans hKept.amount.symm, hPayer.trans hKept.payerUserId.symm⟩
  | lookup r => exact trivial
  | expire r => exact trivial
  | read r => exact trivial
  | done => exact trivial

theorem Invariant.step {start s s' : Store} {o : Outcome} {call call' : Call}
    (hInv : Invariant start s) (hKnows : Knows s call) (h : step o s call = some (s', call')) :
    Kept s s' ∧ Invariant start s' ∧ Knows s' call' := by
  cases call with
  | lookup r =>
    simp only [Refunds.step] at h
    split at h
    · simp only [Option.some.injEq, Prod.mk.injEq] at h
      obtain ⟨rfl, rfl⟩ := h
      exact ⟨⟨rfl, rfl, rfl, rfl, rfl⟩, hInv, trivial⟩
    · split at h
      all_goals
        simp only [Option.some.injEq, Prod.mk.injEq] at h
        obtain ⟨rfl, rfl⟩ := h
        exact ⟨⟨rfl, rfl, rfl, rfl, rfl⟩, hInv, trivial⟩
  | expire r =>
    simp only [Refunds.step, Option.some.injEq, Prod.mk.injEq] at h
    obtain ⟨rfl, rfl⟩ := h
    exact ⟨kept_expire o.now s, hInv.expire o.now, trivial⟩
  | read r =>
    simp only [Refunds.step, Option.ite_none_right_eq_some, Option.bind_eq_bind,
      Option.bind_eq_some_iff, Option.pure_def, Option.some.injEq, Prod.mk.injEq] at h
    obtain ⟨_, p, hPlan, rfl, rfl⟩ := h
    have hRead := plan_read hPlan
    refine ⟨⟨rfl, rfl, rfl, rfl, rfl⟩, hInv, ?_, ?_, ?_⟩
    · rwa [hRead]
    · rw [hRead]
    · rw [hRead]
  | commit r p =>
    simp only [Refunds.step, Option.bind_eq_bind, Option.bind_eq_some_iff, Option.pure_def,
      Option.some.injEq, Prod.mk.injEq] at h
    obtain ⟨s₁, hTx, rfl, rfl⟩ := h
    exact ⟨kept_refundTx hTx, hInv.refundTx hKnows hTx, trivial⟩
  | done => cases h

/-- Any number of refunds of one intent, interleaved in any way, with any amounts and keys. -/
theorem refunds_consistent {start : Store} {c : Config Store Call} (hStart : Unrefunded start)
    (h : program.Reaches anyStep (Program.idle start) c) :
    Totals c.store ∧ Moved start c.store := by
  have hRun := h.assertions (Invariant start) Knows ⟨hStart.invariant, by simp [Program.idle]⟩
    (fun _ _ _ => trivial)
    (fun _ _ _ _ _ hInv hKnows _ hStep => (hInv.step hKnows hStep).2)
    (fun _ _ _ _ _ _ hInv hKnows hOther _ hStep =>
      hOther.kept (hInv.step hKnows hStep).1)
  exact ⟨hRun.1.totals, hRun.1.moved⟩

/-- Ten FARM paid by user 2 to the business of user 1, which holds 25 FARM. -/
def tenPaid : Store where
  intentId := 7
  intent :=
    { businessId := 3
      liveMode := true
      amount := 1000 * cent
      status := .succeeded
      payerUserId := some 2
      transactionReference := some 0
      amountRefunded := 0
      expiresAt := 50
      paidAt := some 10
      canceledAt := none }
  ownerUserId := 1
  activeWallet user := if user = some 1 then some 11 else if user = some 2 then some 12 else none
  refunds := []
  bank :=
    { wallets := fun id =>
        if id = 11 then some ⟨2500 * cent, 0, false⟩
        else if id = 12 then some ⟨0, 0, false⟩ else none
      platform := none
      transactions := []
      ledger := [] }

def asked (amount : Option ℚ) (idem : Option String) : Request :=
  ⟨⟨3, some 1, true⟩, ⟨amount, none⟩, idem⟩

/-- Three refunds at once: of four, of eight, and of the six that the first one leaves. -/
def threeRefunds : List (Move Request Outcome) :=
  [.enter (asked (some 4) (some "a")), .enter (asked (some 8) (some "b")),
    .run 0 ⟨20⟩, .run 1 ⟨20⟩, .run 0 ⟨20⟩, .run 1 ⟨20⟩, .run 0 ⟨20⟩, .run 1 ⟨20⟩, .run 0 ⟨20⟩,
    .enter (asked none none), .run 2 ⟨21⟩, .run 2 ⟨21⟩, .run 2 ⟨21⟩, .run 2 ⟨21⟩]

theorem tenPaid_unrefunded : Unrefunded tenPaid :=
  ⟨⟨1000, by decide, rfl⟩, rfl, by decide, by simp [tenPaid], by simp [tenPaid]⟩

/-- The refund of eight finds the payment changed; the other two give back all of it. -/
theorem ten_refunded_in_two : ∃ c, program.schedule threeRefunds (Program.idle tenPaid) = some c ∧
    c.store.intent.status = .refunded ∧ c.store.liveRefunds.map (·.amount) =
      [400 * cent, 600 * cent] ∧ Totals c.store ∧ Moved tenPaid c.store := by
  have hRuns : (program.schedule threeRefunds (Program.idle tenPaid)).any (fun c =>
      decide (c.store.intent.status = .refunded ∧ c.store.liveRefunds.map (·.amount) =
        [400 * cent, 600 * cent])) = true := by
    decide +kernel
  obtain ⟨c, hRun, hEnd⟩ := (Option.any_eq_true _ _).mp hRuns
  obtain ⟨hStatus, hRows⟩ := of_decide_eq_true hEnd
  have hAll := refunds_consistent tenPaid_unrefunded (Program.reaches_of_schedule hRun)
  exact ⟨c, hRun, hStatus, hRows, hAll.1, hAll.2⟩

end FarmBackend.Refunds
