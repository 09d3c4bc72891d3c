import FarmBackend.CommerceRuns
import FarmBackend.Quota

/-!
# An invoice is paid once, a link within its limit

In-app payers and web payers take an invoice by its status and a link by its counter. The `catch`
blocks of `payLink` and `payInvoice` give both back for whatever throws after the claim, so that
the limits hold along the runs in which nothing throws there once `sendFunds` has committed.
-/

namespace FarmBackend.Commerce
open Fees Wallets QrPayments Interleaving

set_option autoImplicit false

/-- Committed in-app transfers and applied web payments of a target. -/
def Store.moneyFor (t : Target) (s : Store) : ℕ :=
  s.transfers.count t + (s.applied.map Prod.snd).count t

/-- The money has moved, and `pay` or `payInvoice` has not returned yet. -/
def Call.recordsTransfer : Call → Bool
  | .recordPayment _ _ | .stampInvoice _ _ _ => true
  | _ => false

/-- No database call of `payLink` or `payInvoice` fails after its transfer has committed. -/
def transferRecorded (o : Outcome) (call : Call) : Bool := !(o.throws && call.recordsTransfer)

abbrev TransfersRecorded : Guard Store Call Outcome := fun o _ call => transferRecorded o call = true

section Steps
variable {o : Outcome} {s s' : Store} {call call' : Call} {t : Target}

theorem holds_onThrow (hOk : transferRecorded o call = true) (hThrows : o.throws = true) :
    (onThrow call).holds t ≤ call.holds t := by
  unfold onThrow
  split
  all_goals first
    | exact le_refl _
    | exact Nat.zero_le _
    | simp [transferRecorded, hThrows, Call.recordsTransfer] at hOk

/-! ## Invoices -/

/-- An invoice can be taken until it is paid. -/
def invoiceTicket (id : InvoiceId) : Ticket Store Call where
  isOpen s := ¬∃ i, s.invoices id = some i ∧ i.status = .paid
  fired := Store.moneyFor (.invoice id)
  holds := Call.holds (.invoice id)

theorem invoice_keeps {id : InvoiceId} (hInvoices : s'.invoices = s.invoices)
    (hMoney : s'.moneyFor (.invoice id) + call'.holds (.invoice id) ≤
      s.moneyFor (.invoice id) + call.holds (.invoice id)) :
    (invoiceTicket id).Keeps s call s' call' := by
  refine ⟨hMoney, ?_⟩
  simp only [invoiceTicket, hInvoices]
  exact .inl

theorem invoice_takes {id : InvoiceId} {i : Invoice} (hInvoice : s.invoices id = some i)
    (hPayable : i.status.isPayable = true) (hPaid : ∃ i', s'.invoices id = some i' ∧ i'.status = .paid)
    (hMoney : s'.moneyFor (.invoice id) + call'.holds (.invoice id) ≤
      s.moneyFor (.invoice id) + call.holds (.invoice id) + 1) :
    (invoiceTicket id).Takes s call s' call' := by
  refine ⟨?_, fun h => h hPaid, hMoney⟩
  rintro ⟨j, hSame, hStatus⟩
  cases hInvoice.symm.trans hSame
  rw [hStatus] at hPayable
  cases hPayable

theorem invoice_keeps_or_takes (id : InvoiceId) (hKnown : Known s call)
    (hOk : transferRecorded o call = true)
    (hUnpaid : ∀ r, call.recording r = 1 → ¬s.Paid r) (hTook : Took o s call s' call') :
    (invoiceTicket id).Keeps s call s' call' ∨ (invoiceTicket id).Takes s call s' call' := by
  have hLess : ∀ {a b : ℕ}, a ≤ b → s.moneyFor (.invoice id) + a ≤ s.moneyFor (.invoice id) + b :=
    fun h => Nat.add_le_add_left h _
  cases hTook with
  | quiet hQuiet | saleWritten _ _ _ hQuiet =>
    exact .inl (invoice_keeps rfl (hLess (hQuiet.holds _)))
  | threw hThrows => exact .inl (invoice_keeps rfl (hLess (holds_onThrow hOk hThrows)))
  | useTaken _ _ | useReturned _ _ | slotDrawn | checkoutCreated _ _ | reported _ | unsettled
  | webRefused _ | exceptionRecorded _ _ =>
    exact .inl (invoice_keeps rfl (hLess (by simp [Call.holds, InApp.target])))
  | useReserved hTarget _ _ =>
    exact .inl (invoice_keeps rfl (hLess (by simp [Call.holds, Target.isLink])))
  | invoicesWritten hPaid hQuiet =>
    refine .inl ⟨hLess (hQuiet.holds _), ?_⟩
    intro hOpen
    refine .inl ?_
    rintro ⟨i, hInvoice, hStatus⟩
    exact hOpen (hPaid id i hInvoice hStatus)
  | @invoiceClaimed id' status i hInvoice hPayable =>
    by_cases hId : id' = id
    · subst hId
      refine .inr (invoice_takes hInvoice hPayable ⟨_, Function.update_self _ _ _, rfl⟩ ?_)
      simp [Store.moneyFor, Call.holds, InApp.target]
    · refine .inl ⟨hLess (by simp [invoiceTicket, Call.holds, InApp.target, hId]), ?_⟩
      simp only [invoiceTicket, Function.update_of_ne (Ne.symm hId)]
      exact .inl
  | @invoiceReverted id' status i hInvoice =>
    by_cases hId : id' = id
    · subst hId
      refine .inl ⟨hLess (Nat.zero_le _), fun _ => .inr ?_⟩
      simp [invoiceTicket, Store.moneyFor, Call.holds, InApp.target]
    · refine .inl ⟨hLess (Nat.zero_le _), ?_⟩
      simp only [invoiceTicket, Function.update_of_ne (Ne.symm hId)]
      exact .inl
  | @transferred p r _ =>
    refine .inl (invoice_keeps rfl ?_)
    simp only [Store.moneyFor, Call.holds, List.count_append, List.count_singleton, beq_iff_eq]
    omega
  | @appRecorded p r _ =>
    refine .inl (invoice_keeps rfl (hLess ?_))
    cases p <;> exact Nat.zero_le _
  | @appRefused p r hPaid => exact absurd hPaid (hUnpaid r (by simp [Call.recording]))
  | saleCreated _ _ => exact .inl (invoice_keeps rfl (hLess (le_refl _)))
  | @saleSettled origin _ _ _ _ _ _ _ _ _ =>
    refine .inl (invoice_keeps rfl (hLess ?_))
    cases origin <;> exact Nat.zero_le _
  | checkoutClosed _ _ _ _ hHolds _ _ _ =>
    have hNone := hHolds hKnown (.invoice id)
    simp only [Checkout.holds, Target.isLink, Bool.false_eq_true, false_and, if_false] at hNone
    exact .inl (invoice_keeps rfl (hLess (hNone.trans (Nat.zero_le _))))
  | claimed _ _ => exact .inl (invoice_keeps rfl (hLess (by simp [Call.holds, Target.isLink])))
  | webRecorded => exact .inl (invoice_keeps rfl (hLess (le_refl _)))
  | @settledKept c _ _ hTarget _ =>
    refine .inl (invoice_keeps rfl ?_)
    simp [Store.moneyFor, Call.holds, hTarget, Target.isLink]
  | @settledUse c _ _ _ hTarget _ _ =>
    refine .inl (invoice_keeps rfl ?_)
    simp [Store.moneyFor, Call.holds, hTarget, Target.isLink]
  | @settledInvoice c _ id' i i' hTarget hInvoice hPayable hPaid =>
    by_cases hId : id' = id
    · subst hId
      refine .inr (invoice_takes hInvoice hPayable ⟨i', Function.update_self _ _ _, hPaid⟩ ?_)
      simp [Store.moneyFor, Call.holds, hTarget, Target.isLink]
      omega
    · refine .inl ⟨?_, ?_⟩
      · simp [invoiceTicket, Store.moneyFor, Call.holds, hTarget, Target.isLink, hId]
      · simp only [invoiceTicket, Function.update_of_ne (Ne.symm hId)]
        exact .inl

/-! ## Links -/

/-- The use that a row of the table holds. -/
def rowHolds (t : Target) (row : Option Checkout) : ℤ := (row.elim 0 (Checkout.holds t) : ℕ)

def Store.rowsHold (t : Target) (s : Store) : ℤ := (s.checkouts.map (rowHolds t)).sum

/-- The counter of a link against its payments, the checkouts that hold a use and the calls that
do. -/
def linkQuota (id : LinkId) : Quota Store Call where
  counter s := (s.links id).elim 0 Link.useCount
  owed s := s.moneyFor (.link id) + s.rowsHold (.link id)
  holds := Call.holds (.link id)

theorem rowsHold_nonneg (s : Store) : 0 ≤ s.rowsHold t := by
  apply List.sum_nonneg
  intro x hMem
  obtain ⟨row, _, rfl⟩ := List.mem_map.mp hMem
  exact Int.natCast_nonneg _

theorem rowsHold_setCheckout {id : CheckoutId} {row c : Checkout} (hRow : s.checkout id = some row) :
    (s.setCheckout id c).rowsHold t = s.rowsHold t + (c.holds t - row.holds t) := by
  simp only [Store.rowsHold, Store.setCheckout,
    Rows.sum_map_modify (rowHolds t) (fun _ => some c) (checkouts_get hRow)]
  rfl

theorem rowsHold_create {id : CheckoutId} {c : Checkout} (hEmpty : s.checkout id = none) :
    (s.setCheckout id c).rowsHold t ≤ s.rowsHold t + c.holds t := by
  simp only [Store.rowsHold, Store.setCheckout]
  cases hSlot : s.checkouts[id]? with
  | none =>
    rw [List.modify_eq_self (List.getElem?_eq_none_iff.mp hSlot)]
    omega
  | some row =>
    have hNone : row = none := by
      rw [Store.checkout, hSlot] at hEmpty
      exact hEmpty
    subst hNone
    rw [Rows.sum_map_modify (rowHolds t) (fun _ => some c) hSlot]
    exact le_of_eq (by simp [rowHolds])

theorem closed_holds {row : Checkout} {after : CheckoutStatus} (h : after ≠ .pending) :
    ({ row with status := after } : Checkout).holds t = 0 := by
  simp [Checkout.holds, h]

theorem link_pays {id : LinkId} (hLinks : s'.links = s.links)
    (hRows : s'.rowsHold (.link id) = s.rowsHold (.link id))
    (hMoney : s'.moneyFor (.link id) + call'.holds (.link id) ≤
      s.moneyFor (.link id) + call.holds (.link id)) :
    (linkQuota id).Pays s call s' call' := by
  simp only [Quota.Pays, linkQuota, hLinks, hRows]
  omega

/-- The counter of one link moves by what the call comes to hold of it. -/
theorem link_pays_update {id id' : LinkId} {l new : Link} (hLink : s.links id' = some l)
    (hLinks : s'.links = Function.update s.links id' (some new))
    (hRows : s'.rowsHold (.link id) = s.rowsHold (.link id))
    (hSame : id' = id → s'.moneyFor (.link id) + call'.holds (.link id) + l.useCount ≤
      s.moneyFor (.link id) + call.holds (.link id) + new.useCount)
    (hOther : id' ≠ id → s'.moneyFor (.link id) + call'.holds (.link id) ≤
      s.moneyFor (.link id) + call.holds (.link id)) :
    (linkQuota id).Pays s call s' call' := by
  simp only [Quota.Pays, linkQuota, hLinks, hRows]
  by_cases hId : id' = id
  · have hPays := hSame hId
    subst hId
    simp only [Function.update_self, hLink, Option.elim_some]
    omega
  · have hPays := hOther hId
    rw [Function.update_of_ne (Ne.symm hId)]
    omega

theorem link_pays_of_took (id : LinkId) (hKnown : Known s call)
    (hOk : transferRecorded o call = true)
    (hUnpaid : ∀ r, call.recording r = 1 → ¬s.Paid r) (hTook : Took o s call s' call') :
    (linkQuota id).Pays s call s' call' := by
  have hLess : ∀ {a b : ℕ}, a ≤ b → s.moneyFor (.link id) + a ≤ s.moneyFor (.link id) + b :=
    fun h => Nat.add_le_add_left h _
  cases hTook with
  | quiet hQuiet | saleWritten _ _ _ hQuiet | invoicesWritten _ hQuiet =>
    exact link_pays rfl rfl (hLess (hQuiet.holds _))
  | threw hThrows => exact link_pays rfl rfl (hLess (holds_onThrow hOk hThrows))
  | invoiceClaimed _ _ | invoiceReverted _ | reported _ | unsettled | webRefused _
  | exceptionRecorded _ _ =>
    exact link_pays rfl rfl (hLess (by simp [Call.holds, InApp.target]))
  | @useTaken id' _ l hLink _ =>
    refine link_pays_update hLink rfl rfl ?_ ?_
    · rintro rfl
      simp only [Store.moneyFor, Call.holds, InApp.target, if_pos]
      omega
    · intro hId
      simp [Store.moneyFor, Call.holds, InApp.target, hId]
  | @useReserved h _ id' l hTarget hLink _ =>
    refine link_pays_update hLink rfl rfl ?_ ?_
    · rintro rfl
      simp only [Store.moneyFor, Call.holds, hTarget, Target.isLink, if_pos, and_self]
      omega
    · intro hId
      simp [Store.moneyFor, Call.holds, hTarget, hId]
  | @useReturned _ answer id' l hCall hLink =>
    refine link_pays_update hLink rfl rfl ?_ fun _ => hLess (Nat.zero_le _)
    rintro rfl
    have hHolds : call.holds (.link id') = 1 := by
      rcases hCall with rfl | ⟨_, rfl⟩
      · simp [Call.holds, InApp.target]
      · simp [Call.holds, Target.isLink]
    rw [hHolds]
    simp only [Store.moneyFor, Call.holds]
    omega
  | @transferred p r _ =>
    refine link_pays rfl rfl ?_
    simp only [Store.moneyFor, Call.holds, List.count_append, List.count_singleton, beq_iff_eq]
    omega
  | @appRecorded p r _ =>
    refine link_pays rfl rfl (hLess ?_)
    cases p <;> exact Nat.zero_le _
  | @appRefused p r hPaid => exact absurd hPaid (hUnpaid r (by simp [Call.recording]))
  | slotDrawn =>
    refine link_pays rfl ?_ (hLess (Nat.zero_le _))
    simp [Store.rowsHold, rowHolds]
  | saleCreated _ _ => exact link_pays rfl rfl (hLess (le_refl _))
  | @saleSettled origin _ _ _ _ _ _ _ _ _ =>
    refine link_pays rfl rfl (hLess ?_)
    cases origin <;> exact Nat.zero_le _
  | @checkoutCreated h r hEmpty _ =>
    have hRows := rowsHold_create (t := .link id) (c := h.checkout r) hEmpty
    have hHolds : (h.checkout r).holds (.link id) = (Call.createCheckout h r).holds (.link id) := by
      simp [Checkout.holds, Call.holds, Hold.checkout]
    have hMoney : (s.setCheckout h.checkoutId (h.checkout r)).moneyFor (.link id) =
      s.moneyFor (.link id) := rfl
    have hDone : (Call.done .ok).holds (.link id) = 0 := rfl
    simp only [Quota.Pays, linkQuota, hDone, hMoney, ← hHolds]
    simp only [Store.setCheckout] at hRows ⊢
    omega
  | @checkoutClosed _ call' cid row after hRow hAfter _ _ hHolds _ _ _ =>
    have hRows := rowsHold_setCheckout (t := .link id) (c := { row with status := after }) hRow
    rw [closed_holds hAfter.2] at hRows
    have hLe := hHolds hKnown (.link id)
    have hMoney : (s.setCheckout cid { row with status := after }).moneyFor (.link id) =
      s.moneyFor (.link id) := rfl
    simp only [Quota.Pays, linkQuota, hMoney, hRows]
    simp only [Store.setCheckout]
    omega
  | @claimed c amount row hRow hStatus =>
    obtain ⟨⟨hOpen, row', hRow', hTarget, _, hReserved⟩, _⟩ := hKnown
    cases hRow.symm.trans hRow'
    have hRows := rowsHold_setCheckout (t := .link id) (c := { row with status := .completed }) hRow
    rw [closed_holds (by simp)] at hRows
    have hLe : (Call.recordWeb c amount).holds (.link id) ≤ row.holds (.link id) := by
      cases hNow : c.row.status <;>
        simp_all [Call.holds, Checkout.holds, Read.keepsUse, CheckoutStatus.isOpen]
    have hMoney : (s.setCheckout c.id { row with status := .completed }).moneyFor (.link id) =
      s.moneyFor (.link id) := rfl
    simp only [Quota.Pays, linkQuota, hMoney, hRows]
    simp only [Store.setCheckout]
    omega
  | webRecorded => exact link_pays rfl rfl (hLess (le_refl _))
  | @settledKept c _ id' hTarget hKeeps =>
    refine link_pays rfl rfl ?_
    by_cases hId : id' = id
    · subst hId
      simp [Store.moneyFor, Call.holds, hTarget, hKeeps, Target.isLink]
      omega
    · simp [Store.moneyFor, Call.holds, hTarget, hId]
  | @settledUse c _ id' l hTarget hLink _ =>
    refine link_pays_update hLink rfl rfl ?_ ?_
    · rintro rfl
      simp [Store.moneyFor, Call.holds, hTarget]
      omega
    · intro hId
      simp [Store.moneyFor, Call.holds, hTarget, hId]
  | @settledInvoice c _ id' i i' hTarget _ _ _ =>
    refine link_pays rfl rfl ?_
    simp [Store.moneyFor, Call.holds, hTarget]

def Store.WithinLimits (s : Store) : Prop :=
  ∀ id l m, s.links id = some l → l.maxUses = some m → l.useCount ≤ m

theorem withinLimits_update {id : LinkId} {l new : Link} (h : s.WithinLimits)
    (hLinks : s'.links = Function.update s.links id (some new)) (hLink : s.links id = some l)
    (hMax : new.maxUses = l.maxUses) (hNew : ∀ m, l.maxUses = some m → l.useCount ≤ m →
      new.useCount ≤ m) : s'.WithinLimits := by
  intro other l' m hOther hLimit
  rw [hLinks] at hOther
  by_cases hId : other = id
  · subst hId
    rw [Function.update_self] at hOther
    cases hOther
    rw [hMax] at hLimit
    exact hNew m hLimit (h other l m hLink hLimit)
  · rw [Function.update_of_ne hId] at hOther
    exact h other l' m hOther hLimit

theorem withinLimits_use {id : LinkId} {l : Link} (h : s.WithinLimits)
    (hLinks : s'.links = Function.update s.links id (some { l with useCount := l.useCount + 1 }))
    (hLink : s.links id = some l) (hLimit : ∀ m, l.maxUses = some m → l.useCount < m) :
    s'.WithinLimits := by
  refine withinLimits_update h hLinks hLink rfl ?_
  intro m hMax _
  exact hLimit m hMax

/-- A use is taken under the limit only. -/
theorem withinLimits_of_took (hKnown : Known s call) (h : s.WithinLimits)
    (hTook : Took o s call s' call') : s'.WithinLimits := by
  cases hTook with
  | @useTaken id maxUses l hLink hLimit =>
    obtain ⟨l₀, hLink₀, rfl⟩ := hKnown
    cases hLink.symm.trans hLink₀
    exact withinLimits_use h rfl hLink hLimit
  | useReserved _ hLink hLimit => exact withinLimits_use h rfl hLink hLimit
  | settledUse _ hLink hLimit => exact withinLimits_use h rfl hLink hLimit
  | @useReturned _ _ id l _ hLink =>
    refine withinLimits_update h rfl hLink rfl ?_
    intro m _ hLe
    show l.useCount - 1 ≤ m
    omega
  | _ => exact h

end Steps

/-! ## Runs -/

section Runs
variable {start : Store} {c : Config Store Call}

theorem holds_enter (t : Target) (request : Request) : (program.enter request).holds t = 0 := by
  cases request <;> rfl

theorem Fresh.moneyFor (h : Fresh start) (t : Target) : start.moneyFor t = 0 := by
  simp [Store.moneyFor, h.transfers, h.applied]

theorem Fresh.withinLimits (h : Fresh start) : start.WithinLimits :=
  fun id l m hLink => (h.limits id l hLink).2 m

/-- Whatever throws, a counter never passes the limit of its link. -/
theorem withinLimits_of_reaches {ok : Guard Store Call Outcome} (hFresh : Fresh start)
    (h : program.Reaches ok (Program.idle start) c) : c.store.WithinLimits := by
  refine (h.assertions_among Store.WithinLimits (fun _ _ => True)
    ⟨hFresh.withinLimits, fun _ _ => trivial⟩ (fun _ _ _ => trivial) ?_ ?_).1
  · intro o s s' call call' before after hReach hLimits _ _ hStep
    have hKnown := (known_of_reaches hFresh hReach).2 call (by simp)
    exact ⟨withinLimits_of_took hKnown hLimits (took_of_step hStep), trivial⟩
  · intros
    trivial

theorem invoice_sound (hFresh : Fresh start)
    (h : program.Reaches TransfersRecorded (Program.idle start) c) (id : InvoiceId) :
    (invoiceTicket id).Sound c := by
  have hStart : (invoiceTicket id).spent (Program.idle start) = 0 := by
    simp [Ticket.spent, invoiceTicket, Program.idle, hFresh.moneyFor]
  refine Ticket.Sound.reaches h ⟨by rw [hStart]; exact Nat.zero_le _, fun _ => hStart⟩
    (holds_enter _) ?_
  intro o s s' call call' before after hReach hOk hStep
  exact invoice_keeps_or_takes id ((known_of_reaches hFresh hReach).2 call (by simp)) hOk
    (fun r => unpaid_of_recording hFresh hReach) (took_of_step hStep)

theorem link_covered (hFresh : Fresh start)
    (h : program.Reaches TransfersRecorded (Program.idle start) c) (id : LinkId) :
    (linkQuota id).Covered c := by
  refine Quota.Covered.reaches h ?_ (holds_enter _) ?_
  · simp only [Quota.Covered, linkQuota, Program.idle, hFresh.moneyFor, Store.rowsHold,
      hFresh.checkouts, List.map_nil, List.sum_nil]
    cases hLink : start.links id with
    | none => simp
    | some l =>
      have hNonneg := (hFresh.limits id l hLink).1
      simpa using hNonneg
  · intro o s s' call call' before after hReach hOk hStep
    exact link_pays_of_took id ((known_of_reaches hFresh hReach).2 call (by simp)) hOk
      (fun r => unpaid_of_recording hFresh hReach) (took_of_step hStep)

/-- As long as nothing fails between a transfer and its record, an invoice is paid once at most, in
the app and on the web together, and a link is paid no more often than it may be. -/
theorem targets_paid_within_limits (hFresh : Fresh start)
    (h : program.Reaches TransfersRecorded (Program.idle start) c) :
    (∀ id, c.store.moneyFor (.invoice id) ≤ 1) ∧
      ∀ id l m, c.store.links id = some l → l.maxUses = some m →
        c.store.moneyFor (.link id) ≤ m ∧ l.useCount ≤ m := by
  refine ⟨fun id => (invoice_sound hFresh h id).fired_le, ?_⟩
  intro id l m hLink hMax
  have hLimit := withinLimits_of_reaches hFresh h id l m hLink hMax
  have hOwed := (link_covered hFresh h id).owed_le
  have hRows := rowsHold_nonneg c.store (t := .link id)
  simp only [linkQuota, hLink, Option.elim_some] at hOwed
  exact ⟨by omega, hLimit⟩

/-! An invoice and a link for one use. The business's owner is user 1, the payers are others; wallet
1 is the merchant's, wallet 0 the platform's. -/

def oneUseLink : Link := ⟨true, none, some 1, 0, 500⟩

def sentInvoice : Invoice := ⟨.sent, none, 900, none, none, none⟩

def shop : Store where
  links := fun id => if id = 0 then some oneUseLink else none
  invoices := fun id => if id = 0 then some sentInvoice else none
  checkouts := []
  sales := fun _ => none
  till := ⟨⟨fun w => if w < 2 then some ⟨0, 0, false⟩ else none, some 0, [], []⟩,
    fun w => if w = 1 then some 1 else none, fun m => if m = 7 then some 0 else none⟩
  references := []
  payments := []
  exceptions := []
  transfers := []
  applied := []
  reportedFailed := []

theorem shop_fresh : Fresh shop := by
  refine ⟨rfl, fun _ => rfl, rfl, rfl, rfl, rfl, ?_⟩
  intro id l hLink
  simp only [shop] at hLink
  split at hLink
  · cases hLink
    refine ⟨by decide, ?_⟩
    intro m hMax
    cases hMax
    decide
  · cases hLink

def answered (reference : Reference) : Outcome where
  throws := false
  now := 10
  today := 0
  business := some ⟨1, some 7⟩
  reference := reference
  transactionId := 0
  walletId := 1
  amountFarm := 900
  metadata := ⟨true, some .paystack, some 9, none, none, none, none⟩
  verified := ⟨none, some "abandoned", none, none, none, none, none, none, none, none, none, none,
    none, none⟩
  rule := FEE_DEFAULTS .merchant

/-- The same await, failing. -/
def failing : Outcome := { answered "" with throws := true }

/-- `payInvoice` of one user up to the record of its payment, which fails; then another user's. -/
def invoicePaidTwice : List (Move Request Outcome) :=
  [.enter (.payInvoice 2 0), .run 0 (answered ""), .run 0 (answered ""), .run 0 (answered ""),
    .run 0 (answered ""), .run 0 (answered "t1"), .run 0 failing, .run 0 (answered ""),
    .enter (.payInvoice 3 0), .run 1 (answered ""), .run 1 (answered ""), .run 1 (answered ""),
    .run 1 (answered ""), .run 1 (answered "t2"), .run 1 (answered ""), .run 1 (answered "")]

/-- Likewise `payLink`. -/
def linkPaidTwice : List (Move Request Outcome) :=
  [.enter (.payLink 2 0), .run 0 (answered ""), .run 0 (answered ""), .run 0 (answered ""),
    .run 0 (answered "t1"), .run 0 failing, .run 0 (answered ""),
    .enter (.payLink 3 0), .run 1 (answered ""), .run 1 (answered ""), .run 1 (answered ""),
    .run 1 (answered "t2"), .run 1 (answered "")]

theorem shop_paid_twice : Fresh shop ∧
    (∃ c, program.Reaches anyStep (Program.idle shop) c ∧ c.store.moneyFor (.invoice 0) = 2) ∧
    ∃ c l, program.Reaches anyStep (Program.idle shop) c ∧ c.store.links 0 = some l ∧
      l.maxUses = some 1 ∧ c.store.moneyFor (.link 0) = 2 := by
  have hInvoice : (program.schedule invoicePaidTwice (Program.idle shop)).any (fun c =>
      decide (c.store.moneyFor (.invoice 0) = 2)) = true := by
    decide +kernel
  have hLink : (program.schedule linkPaidTwice (Program.idle shop)).any (fun c =>
      decide ((c.store.links 0).any (fun l => decide (l.maxUses = some 1)) = true ∧
        c.store.moneyFor (.link 0) = 2)) = true := by
    decide +kernel
  obtain ⟨c, hRun, hTwice⟩ := Program.reaches_of_any hInvoice
  obtain ⟨c', hRun', hEnd⟩ := Program.reaches_of_any hLink
  obtain ⟨hMax, hTwice'⟩ := of_decide_eq_true hEnd
  obtain ⟨l, hRow, hMax⟩ := (Option.any_eq_true _ _).mp hMax
  exact ⟨shop_fresh, ⟨c, hRun, of_decide_eq_true hTwice⟩,
    c', l, hRun', hRow, of_decide_eq_true hMax, hTwice'⟩

/-- The link is paid in the app; the invoice is held by a web checkout that never pays, and paid in
the app once the hold is over. -/
def shopPaid : List (Move Request Outcome) :=
  let late : Outcome := { answered "t2" with now := HOLD + 11 }
  [.enter (.payLink 2 0), .run 0 (answered ""), .run 0 (answered ""), .run 0 (answered ""),
    .run 0 (answered "t1"), .run 0 (answered ""), .enter (.start (.invoice 0)),
    .run 1 (answered ""), .run 1 (answered ""), .run 1 (answered "qr"), .run 1 (answered ""),
    .run 1 (answered ""), .enter (.payInvoice 3 0), .run 2 (answered ""), .run 2 (answered ""),
    .run 2 late, .run 2 late, .run 2 late, .run 2 late, .run 2 late]

theorem shopPaid_within_limits :
    ∃ c, program.Reaches TransfersRecorded (Program.idle shop) c ∧
      c.store.transfers = [.link 0, .invoice 0] ∧ c.store.checkouts.length = 1 ∧
      c.store.moneyFor (.invoice 0) ≤ 1 := by
  have hRuns : ((program.guarded TransfersRecorded).schedule shopPaid
      (Program.idle shop)).any (fun c => decide (
        c.store.transfers = [.link 0, .invoice 0] ∧ c.store.checkouts.length = 1)) = true := by
    decide +kernel
  obtain ⟨c, hReach, hEnd⟩ := Program.reaches_of_guarded_any hRuns
  obtain ⟨hTransfers, hCheckouts⟩ := of_decide_eq_true hEnd
  exact ⟨c, hReach, hTransfers, hCheckouts, (targets_paid_within_limits shop_fresh hReach).1 0⟩

end Runs

end FarmBackend.Commerce
