import FarmBackend.CommerceCalls

/-!
# What a step on links, invoices and checkouts can do

`Took` is the inversion of a step: every invariant of the runs is a case analysis over it. A quiet
move changes no row and takes nothing that the call did not have.
-/

namespace FarmBackend.Commerce
open Fees Wallets QrPayments Interleaving

set_option autoImplicit false

def Target.isLink : Target → Bool
  | .link _ => true
  | .invoice _ => false

/-- The checkout took its use of the link when it was started, and has it still. -/
def Read.keepsUse (c : Read) : Bool := c.row.reserved && c.row.status != .expired

/-- What a call has claimed of a target for money that is not there yet. An invoice is claimed by
in-app payers only: the hold of a web checkout can expire. -/
def Call.holds (t : Target) : Call → ℕ
  | .walletFor p | .sendFunds p | .revert p => if p.target = t then 1 else 0
  | .initializeSale h _ | .openProvider h _ | .failInit h _ | .createCheckout h _ =>
    if t.isLink = true ∧ h.target = t then 1 else 0
  | .release target _ _ => if t.isLink = true ∧ target = t then 1 else 0
  | .recordWeb c _ | .settle c _ =>
    if t.isLink = true ∧ c.row.target = t ∧ c.keepsUse = true then 1 else 0
  | _ => 0

/-- The use of the link that a row holds. -/
def Checkout.holds (t : Target) (row : Checkout) : ℕ :=
  if t.isLink = true ∧ row.target = t ∧ row.status = .pending ∧ row.reserved = true then 1 else 0

/-- The call is about to record a payment under the reference. -/
def Call.recording (r : Reference) : Call → ℕ
  | .recordPayment _ reference => if reference = r then 1 else 0
  | .recordWeb c _ => if c.row.reference = r then 1 else 0
  | _ => 0

/-- The call has completed the checkout row and has not answered yet. -/
def Call.claims (id : CheckoutId) : Call → Prop
  | .recordWeb c _ | .settle c _ | .recordException c _ => c.id = id
  | _ => False

def CheckoutStatus.isOpen : CheckoutStatus → Bool
  | .pending | .expired => true
  | .completed | .failed => false

namespace Store

/-- The row of a read is there, with the columns that never change. -/
def Has (s : Store) (c : Read) : Prop :=
  c.row.status.isOpen = true ∧ ∃ row, s.checkout c.id = some row ∧ row.target = c.row.target ∧
    row.reference = c.row.reference ∧ row.reserved = c.row.reserved

def OnSale (s : Store) (r : Reference) : Prop :=
  ∃ sale, s.sales r = some sale ∧ sale.isPublicQrSale = true

/-- The merchant has been credited. -/
def Sold (s : Store) (r : Reference) : Prop :=
  ∃ sale, s.sales r = some sale ∧ sale.status = .completed

def Paid (s : Store) (r : Reference) : Prop := ∃ p ∈ s.payments, p.reference = r

/-- The payment was applied to its target, or set aside for review. -/
def Placed (s : Store) (r : Reference) : Prop :=
  (∃ a ∈ s.applied, a.1 = r) ∨ ∃ e ∈ s.exceptions, e.reference = r

end Store

/-- What a call has read or done and still holds. -/
def Known (s : Store) : Call → Prop
  | .takeUse id maxUses => ∃ l, s.links id = some l ∧ l.maxUses = maxUses
  | .openProvider _ r | .failInit _ r | .createCheckout _ r => s.OnSale r
  | .verify c | .poll c _ | .saleStatus c | .expire c => s.Has c
  | .complete (some c) _ _ _ | .settleSale (some c) _ _ _ | .markFailed (some c) _ => s.Has c
  | .closeFailed c => s.Has c ∧ c.row.reference ∈ s.reportedFailed
  | .readTransaction c | .claim c _ | .recordWeb c _ => s.Has c ∧ s.Sold c.row.reference
  | .settle c _ | .recordException c _ => s.Has c ∧ s.Paid c.row.reference
  | _ => True

/-- A move that takes nothing the call did not have. -/
structure Quiet (s : Store) (call call' : Call) : Prop where
  holds : ∀ t, call'.holds t ≤ call.holds t
  recording : ∀ r, call'.recording r ≤ call.recording r
  claims : ∀ id, ¬call.claims id
  known : Known s call → Known s call'

/-- What every writer of a sale keeps of it. -/
structure Keeps (old new : Sale) : Prop where
  isPublic : old.isPublicQrSale = true → new.isPublicQrSale = true
  completed : old.status = .completed → new.status = .completed

/-- A failure that has been reported stays one. -/
def KeepsFailure (old new : Sale) : Prop :=
  saleStatus (some old.status) = .failed → saleStatus (some new.status) = .failed

inductive Took (o : Outcome) (s : Store) : Call → Store → Call → Prop where
  | quiet {call call' : Call} (hQuiet : Quiet s call call') : Took o s call s call'
  | threw {call : Call} (hThrows : o.throws = true) : Took o s call s (onThrow call)
  | useTaken {id : LinkId} {maxUses : Option ℤ} {l : Link} (hLink : s.links id = some l)
      (hLimit : ∀ m, maxUses = some m → l.useCount < m) :
      Took o s (.takeUse id maxUses)
        { s with links := Function.update s.links id (some { l with useCount := l.useCount + 1 }) }
        (.walletFor (.link id))
  | useReserved {h : Hold} {merchantId : ℕ} {id : LinkId} {l : Link} (hTarget : h.target = .link id)
      (hLink : s.links id = some l) (hLimit : ∀ m, l.maxUses = some m → l.useCount < m) :
      Took o s (.reserve h merchantId)
        { s with links := Function.update s.links id (some { l with useCount := l.useCount + 1 }) }
        (.initializeSale h merchantId)
  | useReturned {call : Call} {answer : Answer} {id : LinkId} {l : Link}
      (hCall : call = .revert (.link id) ∨ ∃ cid, call = .release (.link id) cid answer)
      (hLink : s.links id = some l) :
      Took o s call
        { s with links := Function.update s.links id (some { l with useCount := l.useCount - 1 }) }
        (.done answer)
  | invoicesWritten {call call' : Call} {invoices : InvoiceId → Option Invoice}
      (hPaid : ∀ id i, s.invoices id = some i → i.status = .paid →
        ∃ i', invoices id = some i' ∧ i'.status = .paid)
      (hQuiet : Quiet s call call') : Took o s call { s with invoices := invoices } call'
  | invoiceClaimed {id : InvoiceId} {status : InvoiceStatus} {i : Invoice}
      (hInvoice : s.invoices id = some i) (hPayable : i.status.isPayable = true) :
      Took o s (.claimInvoice id status)
        { s with invoices := Function.update s.invoices id (some { i with status := .paid }) }
        (.walletFor (.invoice id status))
  | invoiceReverted {id : InvoiceId} {status : InvoiceStatus} {i : Invoice}
      (hInvoice : s.invoices id = some i) :
      Took o s (.revert (.invoice id status))
        { s with invoices := Function.update s.invoices id (some { i with status := status }) }
        (.done .thrown)
  | transferred {p : InApp} {r : Reference} (hFresh : r ∉ s.references) :
      Took o s (.sendFunds p)
        { s with references := s.references ++ [r], transfers := s.transfers ++ [p.target] }
        (.recordPayment p r)
  | appRecorded {p : InApp} {r : Reference} {amount : ℤ} :
      Took o s (.recordPayment p r)
        { s with payments := s.payments ++ [⟨p.target, r, amount, .app⟩] } (afterPay r p)
  | appRefused {p : InApp} {r : Reference} (hPaid : s.Paid r) :
      Took o s (.recordPayment p r) s (.revert p)
  | slotDrawn {target : Target} {h : Hold} {merchantId : ℕ} :
      Took o s (.start target) { s with checkouts := s.checkouts ++ [none] } (.reserve h merchantId)
  | saleCreated {h : Hold} {merchantId : ℕ} {r : Reference} {sale : Sale}
      (hFresh : r ∉ s.references) (hPublic : sale.isPublicQrSale = true) :
      Took o s (.initializeSale h merchantId)
        { s with
          sales := Function.update s.sales r (some sale)
          references := s.references ++ [r] }
        (.openProvider h r)
  | saleWritten {call call' : Call} {r : Reference} {sale sale' : Sale}
      (hSale : s.sales r = some sale) (hKeeps : Keeps sale sale')
      (hFailure : KeepsFailure sale sale') (hQuiet : Quiet s call call') :
      Took o s call (s.putSale r ⟨some sale', s.till⟩) call'
  | saleSettled {origin : Origin} {r : Reference} {rule : FeeRule} {p : Settlement}
      {sale sale' : Sale} {till : Till} (hSale : s.sales r = some sale)
      (hStatus : isSettleable sale.status = true) (hKeeps : Keeps sale sale') :
      Took o s (.settleSale origin r rule p) (s.putSale r ⟨some sale', till⟩) (afterSale origin)
  | checkoutCreated {h : Hold} {r : Reference} (hEmpty : s.checkout h.checkoutId = none)
      (hUnique : s.findCheckout r = none) :
      Took o s (.createCheckout h r) (s.setCheckout h.checkoutId (h.checkout r)) (.done .ok)
  | reported {c : Read} (hFailed : QrPayments.saleStatus
        ((s.sales c.row.reference).map Sale.status) = .failed) :
      Took o s (.saleStatus c)
        { s with reportedFailed := s.reportedFailed ++ [c.row.reference] } (.closeFailed c)
  | checkoutClosed {call call' : Call} {id : CheckoutId} {row : Checkout} {after : CheckoutStatus}
      (hRow : s.checkout id = some row) (hAfter : after ≠ .completed ∧ after ≠ .pending)
      (hOpen : Known s call → row.status.isOpen = true)
      (hFailed : Known s call → after = .failed → row.reference ∈ s.reportedFailed)
      (hHolds : Known s call → ∀ t, call'.holds t ≤ row.holds t)
      (hRecording : ∀ r, call'.recording r = 0) (hClaims : ∀ id, ¬call.claims id)
      (hKnown : Known s call') :
      Took o s call (s.setCheckout id { row with status := after }) call'
  | claimed {c : Read} {amount : ℤ} {row : Checkout} (hRow : s.checkout c.id = some row)
      (hStatus : row.status = c.row.status) :
      Took o s (.claim c amount) (s.setCheckout c.id { row with status := .completed })
        (.recordWeb c amount)
  | webRecorded {c : Read} {amount : ℤ} :
      Took o s (.recordWeb c amount)
        { s with payments := s.payments ++ [⟨c.row.target, c.row.reference, amount, .web⟩] }
        (.settle c amount)
  | webRefused {c : Read} {amount : ℤ} (hPaid : s.Paid c.row.reference) :
      Took o s (.recordWeb c amount) s (.done .thrown)
  | settledKept {c : Read} {amount : ℤ} {id : LinkId} (hTarget : c.row.target = .link id)
      (hKeeps : c.keepsUse = true) :
      Took o s (.settle c amount)
        { s with applied := s.applied ++ [(c.row.reference, c.row.target)] }
        (.done (.status .completed))
  | settledUse {c : Read} {amount : ℤ} {id : LinkId} {l : Link} (hTarget : c.row.target = .link id)
      (hLink : s.links id = some l) (hLimit : ∀ m, l.maxUses = some m → l.useCount < m) :
      Took o s (.settle c amount)
        { s with
          links := Function.update s.links id (some { l with useCount := l.useCount + 1 })
          applied := s.applied ++ [(c.row.reference, c.row.target)] }
        (.done (.status .completed))
  | settledInvoice {c : Read} {amount : ℤ} {id : InvoiceId} {i i' : Invoice}
      (hTarget : c.row.target = .invoice id) (hInvoice : s.invoices id = some i)
      (hPayable : i.status.isPayable = true) (hPaid : i'.status = .paid) :
      Took o s (.settle c amount)
        { s with
          invoices := Function.update s.invoices id (some i')
          applied := s.applied ++ [(c.row.reference, c.row.target)] }
        (.done (.status .completed))
  | unsettled {c : Read} {amount : ℤ} : Took o s (.settle c amount) s (.recordException c amount)
  | exceptionRecorded {c : Read} {amount : ℤ} {exceptions : List Payment}
      (hSub : ∀ e ∈ s.exceptions, e ∈ exceptions)
      (hException : ∃ e ∈ exceptions, e.reference = c.row.reference) :
      Took o s (.recordException c amount) { s with exceptions := exceptions }
        (.done (.status .completed))

/-! ## The statements -/

section Statements
variable {s s' : Store} {next none' call' : Call} {r : Option Store}

theorem counted_cases (h : counted s next none' r = (s', call')) :
    (r = some s' ∧ call' = next) ∨ (r = none ∧ s' = s ∧ call' = none') := by
  cases r with
  | none =>
    cases h
    exact .inr ⟨rfl, rfl, rfl⟩
  | some s₁ =>
    cases h
    exact .inl ⟨rfl, rfl⟩

theorem updateLink_eq_some {id : LinkId} {which : Link → Bool} {f : Link → Link}
    (h : s.updateLink id which f = some s') :
    ∃ l, s.links id = some l ∧ which l = true ∧
      s' = { s with links := Function.update s.links id (some (f l)) } := by
  unfold Store.updateLink at h
  split at h
  · cases h
  · rename_i l hLink
    simp only [Option.ite_none_right_eq_some, Option.some.injEq] at h
    exact ⟨l, hLink, h.1, h.2.symm⟩

theorem updateInvoice_eq_some {id : InvoiceId} {which : Invoice → Bool} {f : Invoice → Invoice}
    (h : s.updateInvoice id which f = some s') :
    ∃ i, s.invoices id = some i ∧ which i = true ∧
      s' = { s with invoices := Function.update s.invoices id (some (f i)) } := by
  unfold Store.updateInvoice at h
  split at h
  · cases h
  · rename_i i hInvoice
    simp only [Option.ite_none_right_eq_some, Option.some.injEq] at h
    exact ⟨i, hInvoice, h.1, h.2.symm⟩

theorem moveCheckout_eq_some {id : CheckoutId} {status after : CheckoutStatus}
    (h : s.moveCheckout id status after = some s') :
    ∃ row, s.checkout id = some row ∧ row.status = status ∧
      s' = s.setCheckout id { row with status := after } := by
  unfold Store.moveCheckout at h
  split at h
  · cases h
  · rename_i row hRow
    simp only [Option.ite_none_right_eq_some, Option.some.injEq] at h
    exact ⟨row, hRow, h.1, h.2.symm⟩

theorem recordPayment_eq_some {p : Payment} (h : s.recordPayment p = some s') :
    { s with payments := s.payments ++ [p] } = s' := by
  rw [Store.recordPayment, Option.ite_none_left_eq_some] at h
  exact Option.some.inj h.2

theorem recordPayment_eq_none {p : Payment} (h : s.recordPayment p = none) : s.Paid p.reference := by
  simpa [Store.recordPayment, Store.Paid] using h

theorem findCheckout_eq_some {reference : Reference} {id : CheckoutId} {row : Checkout}
    (h : s.findCheckout reference = some (id, row)) :
    s.checkout id = some row ∧ row.reference = reference := by
  obtain ⟨⟨entry, index⟩, hMem, hEntry⟩ := List.exists_of_findSome?_eq_some h
  obtain ⟨found, hFound, hPair⟩ := Option.map_eq_some_iff.mp hEntry
  cases hPair
  obtain ⟨rfl, hReference⟩ := Option.filter_eq_some_iff.mp hFound
  have hAt := List.mk_mem_zipIdx_iff_getElem?.mp hMem
  exact ⟨by rw [Store.checkout, hAt, Option.join_some], by simpa using hReference⟩

theorem findCheckout_ne_none {reference : Reference} {id : CheckoutId} {row : Checkout}
    (hRow : s.checkout id = some row) (hReference : row.reference = reference) :
    s.findCheckout reference ≠ none := by
  intro hNone
  have hAt : s.checkouts[id]? = some (some row) := by
    unfold Store.checkout at hRow
    exact Option.join_eq_some_iff.mp hRow
  have hEntry := List.findSome?_eq_none_iff.mp hNone (some row, id)
    (List.mk_mem_zipIdx_iff_getElem?.mpr hAt)
  simp [Option.filter, hReference] at hEntry

/-- The only checkout of a reference is the one that is found. -/
theorem findCheckout_of_unique {reference : Reference} {id : CheckoutId} {row : Checkout}
    (hRow : s.checkout id = some row) (hReference : row.reference = reference)
    (hUnique : ∀ other row', s.checkout other = some row' → row'.reference = reference →
      other = id) : s.findCheckout reference = some (id, row) := by
  cases hFind : s.findCheckout reference with
  | none => exact absurd hFind (findCheckout_ne_none hRow hReference)
  | some found =>
    obtain ⟨other, row'⟩ := found
    obtain ⟨hOther, hSame⟩ := findCheckout_eq_some hFind
    obtain rfl := hUnique other row' hOther hSame
    cases hRow.symm.trans hOther
    rfl

theorem checkout_congr (hSame : s'.checkouts = s.checkouts) (id : CheckoutId) :
    s'.checkout id = s.checkout id := by
  rw [Store.checkout, hSame, Store.checkout]

theorem putSale_atSale (reference : Reference) (s : Store) :
    s.putSale reference (s.atSale reference) = s := by
  simp [Store.putSale, Store.atSale]

end Statements

theorem paid_update {s : Store} {id : InvoiceId} {i i' : Invoice} (hInvoice : s.invoices id = some i)
    (hPaid : i.status = .paid → i'.status = .paid) (other : InvoiceId) (j : Invoice)
    (hOther : s.invoices other = some j) (hStatus : j.status = .paid) :
    ∃ j', Function.update s.invoices id (some i') other = some j' ∧ j'.status = .paid := by
  by_cases hId : other = id
  · subst hId
    cases hInvoice.symm.trans hOther
    exact ⟨i', by rw [Function.update_self], hPaid hStatus⟩
  · exact ⟨j, by rw [Function.update_of_ne hId, hOther], hStatus⟩

/-! ## The inversion -/

/-- A call that holds nothing and knows nothing. -/
def Call.isPlain : Call → Bool
  | .payInvoice _ _ | .claimInvoice _ _ | .reserve _ _ | .nowpaymentsFailure _ | .done _ => true
  | .complete none _ _ _ | .settleSale none _ _ _ => true
  | _ => false

section Moves
variable {s : Store} {call call' : Call}

theorem Quiet.of_isPlain (hClaims : ∀ id, ¬call.claims id) (hPlain : call'.isPlain = true) :
    Quiet s call call' := by
  have hAll : (∀ t, call'.holds t = 0) ∧ (∀ r, call'.recording r = 0) ∧ Known s call' := by
    unfold Call.isPlain at hPlain
    split at hPlain
    all_goals first | exact ⟨fun _ => rfl, fun _ => rfl, trivial⟩ | cases hPlain
  obtain ⟨hHolds, hRecording, hKnown⟩ := hAll
  refine ⟨?_, ?_, hClaims, fun _ => hKnown⟩
  · intro t
    rw [hHolds]
    exact Nat.zero_le _
  · intro r
    rw [hRecording]
    exact Nat.zero_le _

/-- A move of a call that holds nothing on either side. -/
theorem Quiet.of_known (hClaims : ∀ id, ¬call.claims id) (hHolds : ∀ t, call'.holds t = 0)
    (hRecording : ∀ r, call'.recording r = 0) (hKnown : Known s call → Known s call') :
    Quiet s call call' := by
  refine ⟨?_, ?_, hClaims, hKnown⟩
  · intro t
    rw [hHolds]
    exact Nat.zero_le _
  · intro r
    rw [hRecording]
    exact Nat.zero_le _

/-- Once a settlement has answered, `verify` goes on to read the status. -/
theorem Quiet.afterSale {origin : Origin} (hClaims : ∀ id, ¬call.claims id)
    (hKnown : Known s call → ∀ c, origin = some c → s.Has c) :
    Quiet s call (afterSale origin) := by
  cases origin with
  | none => exact .of_isPlain hClaims rfl
  | some c => exact .of_known hClaims (fun _ => rfl) (fun _ => rfl) fun h => hKnown h c rfl

theorem holds_eq_of_has {c : Read} {row : Checkout} {t : Target} (hHas : s.Has c)
    (hRow : s.checkout c.id = some row) (hPending : row.status = .pending)
    (hReserved : c.row.reserved = true) {answer : Answer} :
    (Call.release c.row.target c.id answer).holds t ≤ row.holds t := by
  obtain ⟨_, row', hRow', hTarget, _, hSame⟩ := hHas
  cases hRow.symm.trans hRow'
  simp only [Call.holds, Checkout.holds, hTarget, hPending, hSame, hReserved, and_true, le_refl]

end Moves

section Inversion
variable {o : Outcome} {s s' : Store} {call call' : Call}

theorem took_releasing {target : Target} {id : CheckoutId} {answer : Answer} :
    Took o s (.release target id answer) (s.release target id) (.done answer) := by
  have hQuiet : Quiet s (.release target id answer) (.done answer) :=
    .of_isPlain (fun _ h => h) rfl
  cases target with
  | link link =>
    simp only [Store.release]
    cases hUpdate : s.updateLink link (fun l => decide (0 < l.useCount)) fun l =>
        { l with useCount := l.useCount - 1 } with
    | none => exact .quiet hQuiet
    | some s' =>
      obtain ⟨l, hLink, _, rfl⟩ := updateLink_eq_some hUpdate
      exact .useReturned (.inr ⟨id, rfl⟩) hLink
  | invoice invoice =>
    simp only [Store.release]
    cases hUpdate : s.updateInvoice invoice (fun i => i.paymentHoldRef == some id) fun i =>
        { i with paymentHoldRef := none, paymentHoldUntil := none } with
    | none => exact .quiet hQuiet
    | some s' =>
      obtain ⟨i, hInvoice, _, rfl⟩ := updateInvoice_eq_some hUpdate
      exact .invoicesWritten (paid_update hInvoice fun h => h) hQuiet

theorem took_revert (p : InApp) : Took o s (.revert p) (s.revert p) (.done .thrown) := by
  have hQuiet : Quiet s (.revert p) (.done .thrown) := .of_isPlain (fun _ h => h) rfl
  cases p with
  | link id =>
    simp only [Store.revert]
    cases hUpdate : s.updateLink id (fun _ => true) fun l =>
        { l with useCount := l.useCount - 1 } with
    | none => exact .quiet hQuiet
    | some s' =>
      obtain ⟨l, hLink, _, rfl⟩ := updateLink_eq_some hUpdate
      exact .useReturned (.inl rfl) hLink
  | invoice id status =>
    simp only [Store.revert]
    cases hUpdate : s.updateInvoice id (fun _ => true) fun i => { i with status := status } with
    | none => exact .quiet hQuiet
    | some s' =>
      obtain ⟨i, hInvoice, _, rfl⟩ := updateInvoice_eq_some hUpdate
      exact .invoiceReverted hInvoice

theorem took_stampInvoice {id : InvoiceId} {status : InvoiceStatus} {reference : Reference} :
    Took o s (.stampInvoice id status reference) (s.stampInvoice id reference) (.done .ok) := by
  have hQuiet : Quiet s (.stampInvoice id status reference) (.done .ok) :=
    .of_isPlain (fun _ h => h) rfl
  simp only [Store.stampInvoice]
  cases hUpdate : s.updateInvoice id (fun _ => true) fun i =>
      { i with transactionReference := some reference } with
  | none => exact .quiet hQuiet
  | some s' =>
    obtain ⟨i, hInvoice, _, rfl⟩ := updateInvoice_eq_some hUpdate
    exact .invoicesWritten (paid_update hInvoice fun h => h) hQuiet

theorem took_markOverdue {payer : UserId} {id : InvoiceId} {today : Time} :
    Took o s (.markOverdue payer id) (s.markOverdue today) (.payInvoice payer id) := by
  refine .invoicesWritten ?_ (.of_isPlain (fun _ h => h) rfl)
  intro other i hInvoice hPaid
  refine ⟨i, ?_, hPaid⟩
  rw [hInvoice, Option.map_some, if_neg]
  rintro ⟨hSent | hPending, _⟩
  · rw [hPaid] at hSent
    cases hSent
  · rw [hPaid] at hPending
    cases hPending

theorem took_cancelInvoice {id : InvoiceId} (h : s.cancelInvoice id = some s') :
    Took o s (.cancelInvoice id) s' (.done .ok) := by
  obtain ⟨i, hInvoice, hStatus, rfl⟩ := updateInvoice_eq_some h
  refine .invoicesWritten (paid_update hInvoice ?_) (.of_isPlain (fun _ h => h) rfl)
  intro hPaid
  rw [hPaid] at hStatus
  cases hStatus

theorem took_reserve {h : Hold} {merchantId : ℕ} {now : Time}
    (hReserve : s.reserve h.target h.checkoutId now h.expiresAt = some s') :
    Took o s (.reserve h merchantId) s' (.initializeSale h merchantId) := by
  unfold Store.reserve at hReserve
  split at hReserve
  · rename_i id hTarget
    obtain ⟨l, hLink, hWhich, rfl⟩ := updateLink_eq_some hReserve
    refine .useReserved hTarget hLink ?_
    intro m hMax
    simp only [Bool.and_eq_true, hMax, Option.all_some, decide_eq_true_eq] at hWhich
    exact hWhich.2
  · rename_i id hTarget
    obtain ⟨i, hInvoice, _, rfl⟩ := updateInvoice_eq_some hReserve
    refine .invoicesWritten (paid_update hInvoice fun h => h) (.of_known (fun _ h => h) ?_ ?_ ?_)
    · intro t
      simp only [Call.holds, hTarget, ite_eq_right_iff, Nat.one_ne_zero, imp_false]
      rintro ⟨hLink, rfl⟩
      cases hLink
    · intro _
      rfl
    · intro _
      trivial

theorem keeps_fail {sale : Sale} {from' : TransactionStatus → Bool} (h : from' .completed = false) :
    Keeps sale (sale.fail from') ∧ KeepsFailure sale (sale.fail from') := by
  have hStatus : (sale.fail from').status = if from' sale.status then .failed else sale.status := by
    cases hFrom : from' sale.transaction.status <;> simp [Sale.fail, Sale.status, hFrom]
  refine ⟨⟨?_, ?_⟩, ?_⟩
  · have hSame : (sale.fail from').isPublicQrSale = sale.isPublicQrSale := by
      simp only [Sale.isPublicQrSale, Sale.fail]
      split <;> split <;> rfl
    rw [hSame]
    exact fun h => h
  · intro hDone
    rw [hStatus, hDone, h]
    rfl
  · intro hFailed
    rw [hStatus]
    split
    · rfl
    · exact hFailed

theorem took_failing {r : Reference} {sale : Sale} {from' : TransactionStatus → Bool}
    (hFrom : from' .completed = false) (hSale : s.sales r = some sale)
    (hQuiet : Quiet s call call') :
    Took o s call (s.putSale r ⟨some (sale.fail from'), s.till⟩) call' :=
  .saleWritten hSale (keeps_fail hFrom).1 (keeps_fail hFrom).2 hQuiet

theorem took_markFailedTx {r : Reference} (hQuiet : Quiet s call call') :
    Took o s call (s.putSale r (markFailedTx (s.atSale r)).1) call' := by
  unfold markFailedTx
  cases hSale : (s.atSale r).sale with
  | none =>
    simp only [putSale_atSale]
    exact .quiet hQuiet
  | some sale =>
    by_cases hPending : sale.status = .pending
    · simp only [if_pos hPending]
      exact took_failing rfl hSale hQuiet
    · simp only [if_neg hPending, putSale_atSale]
      exact .quiet hQuiet

theorem took_nowpaymentsFailureTx {r : Reference} (hQuiet : Quiet s call call') :
    Took o s call (s.putSale r (nowpaymentsFailureTx (s.atSale r))) call' := by
  unfold nowpaymentsFailureTx
  cases hSale : (s.atSale r).sale with
  | none =>
    have hSame : ({ s.atSale r with sale := none } : QrPayments.Store) = s.atSale r := by
      rw [← hSale]
    simp only [Option.map_none, hSame, putSale_atSale]
    exact .quiet hQuiet
  | some sale => exact took_failing rfl hSale hQuiet

theorem took_linkPayment {r : Reference} {paymentId : String} {sale : Sale}
    (hSale : s.sales r = some sale) (hQuiet : Quiet s call call') :
    Took o s call (s.linkPayment r paymentId sale) call' :=
  .saleWritten hSale ⟨fun h => h, fun h => h⟩ (fun h => h) hQuiet

theorem took_settleSale {origin : Origin} {r : Reference} {rule : FeeRule} {p : Settlement}
    {q : QrPayments.Store} {answer : Bool}
    (h : completeTx rule p (s.atSale r) = some (q, answer)) :
    Took o s (.settleSale origin r rule p) (s.putSale r q) (afterSale origin) := by
  rcases completeTx_eq_some h with ⟨_, rfl, _⟩ | ⟨sale, _, hSale, hStatus, _, hAfter, _⟩
  · rw [putSale_atSale]
    refine .quiet (.afterSale (fun _ h => h) ?_)
    rintro hKnown c rfl
    exact hKnown
  · obtain ⟨_, till⟩ := q
    cases hAfter
    refine .saleSettled hSale hStatus ⟨?_, fun _ => rfl⟩
    intro hPublic
    exact hPublic

theorem took_settle {c : Read} {amount : ℤ} {now : Time} (h : s.settle c.id c.row now = some s') :
    Took o s (.settle c amount) s' (.done (.status .completed)) := by
  obtain ⟨s₁, hTarget, rfl⟩ := Option.map_eq_some_iff.mp h
  unfold Store.settleTarget at hTarget
  split at hTarget
  · rename_i id hLink
    split at hTarget
    · rename_i hKeeps
      cases hTarget
      exact .settledKept hLink (by simpa [Read.keepsUse] using hKeeps)
    · obtain ⟨l, hRow, hWhich, rfl⟩ := updateLink_eq_some hTarget
      refine .settledUse hLink hRow ?_
      intro m hMax
      simpa [hMax] using hWhich
  · rename_i id hInvoice
    obtain ⟨i, hRow, hWhich, rfl⟩ := updateInvoice_eq_some hTarget
    simp only [Invoice.isSettleable, Bool.and_eq_true] at hWhich
    exact .settledInvoice hInvoice hRow hWhich.1 rfl

theorem took_closeFailed {c : Read} (h : s.moveCheckout c.id c.row.status .failed = some s') :
    Took o s (.closeFailed c) s'
      (if c.wasExpired = false ∧ c.row.reserved = true then
        .release c.row.target c.id (.status .failed) else .done (.status .failed)) := by
  obtain ⟨row, hRow, hStatus, rfl⟩ := moveCheckout_eq_some h
  refine .checkoutClosed hRow ⟨by simp, by simp⟩ ?_ ?_ ?_ ?_ (fun _ h => h) ?_
  · intro hKnown
    rw [hStatus]
    exact hKnown.1.1
  · rintro ⟨⟨_, row', hRow', _, hReference, _⟩, hReported⟩ _
    cases hRow.symm.trans hRow'
    rwa [hReference]
  · rintro ⟨hHas, _⟩ t
    split
    · rename_i hBoth
      refine holds_eq_of_has hHas hRow ?_ hBoth.2
      have hOpen := hHas.1
      have hLive := hBoth.1
      rw [hStatus]
      cases hNow : c.row.status <;> simp_all [Read.wasExpired, CheckoutStatus.isOpen]
    · exact Nat.zero_le _
  · intro r
    split <;> rfl
  · split <;> trivial

theorem took_expire {c : Read} (h : s.moveCheckout c.id .pending .expired = some s') :
    Took o s (.expire c) s'
      (if c.row.reserved = true then .release c.row.target c.id (.status .expired)
        else .done (.status .expired)) := by
  obtain ⟨row, hRow, hStatus, rfl⟩ := moveCheckout_eq_some h
  refine .checkoutClosed hRow ⟨by simp, by simp⟩ ?_ (by simp) ?_ ?_ (fun _ h => h) ?_
  · intro _
    rw [hStatus]
    rfl
  · intro hHas t
    split
    · exact holds_eq_of_has hHas hRow hStatus ‹_›
    · exact Nat.zero_le _
  · intro r
    split <;> rfl
  · split <;> trivial

/-- What `reconcile` goes on with once the status of the sale has been read. -/
theorem took_afterVerify {c : Read} (h : afterVerify o s c = (s', call')) :
    Took o s (.saleStatus c) s' call' := by
  unfold afterVerify at h
  split at h
  · cases h
    exact .reported ‹_›
  · rename_i hDone
    cases h
    refine .quiet (.of_known (fun _ h => h) (fun _ => rfl) (fun _ => rfl) ?_)
    intro hHas
    refine ⟨hHas, ?_⟩
    cases hSale : s.sales c.row.reference with
    | none => simp [hSale, saleStatus] at hDone
    | some sale =>
      refine ⟨sale, hSale, ?_⟩
      cases hStatus : sale.status <;> simp_all [saleStatus]
  · split at h
    · cases h
      exact .quiet (.of_known (fun _ h => h) (fun _ => rfl) (fun _ => rfl) fun h => h)
    · cases h
      exact .quiet (.of_isPlain (fun _ h => h) rfl)

theorem took_of_run (hRun : run o s call = (s', call')) (hNotDone : ∀ a, call ≠ .done a) :
    Took o s call s' call' := by
  cases call with
  | payLink payer id =>
    simp only [run] at hRun
    split at hRun
    · rename_i l _ hLink _
      split at hRun
      · cases hRun
        exact .quiet (.of_known (fun _ h => h) (fun _ => rfl) (fun _ => rfl)
          fun _ => ⟨l, hLink, rfl⟩)
      · cases hRun
        exact .quiet (.of_isPlain (fun _ h => h) rfl)
    · cases hRun
      exact .quiet (.of_isPlain (fun _ h => h) rfl)
  | takeUse id maxUses =>
    rcases counted_cases hRun with ⟨hUpdate, rfl⟩ | ⟨_, rfl, rfl⟩
    · obtain ⟨l, hLink, hWhich, rfl⟩ := updateLink_eq_some hUpdate
      refine .useTaken hLink ?_
      rintro m rfl
      simp only [Bool.and_eq_true, Option.all_some, decide_eq_true_eq] at hWhich
      exact hWhich.2
    · exact .quiet (.of_isPlain (fun _ h => h) rfl)
  | markOverdue payer id =>
    cases hRun
    exact took_markOverdue
  | payInvoice payer id =>
    simp only [run] at hRun
    split at hRun
    · split at hRun
      all_goals
        cases hRun
        exact .quiet (.of_isPlain (fun _ h => h) rfl)
    · cases hRun
      exact .quiet (.of_isPlain (fun _ h => h) rfl)
  | claimInvoice id status =>
    rcases counted_cases hRun with ⟨hUpdate, rfl⟩ | ⟨_, rfl, rfl⟩
    · obtain ⟨i, hInvoice, hWhich, rfl⟩ := updateInvoice_eq_some hUpdate
      simp only [Invoice.isClaimable, Bool.and_eq_true] at hWhich
      exact .invoiceClaimed hInvoice hWhich.1
    · exact .quiet (.of_isPlain (fun _ h => h) rfl)
  | walletFor p =>
    cases hRun
    exact .quiet ⟨fun _ => le_refl _, fun _ => le_refl _, fun _ h => h, fun h => h⟩
  | sendFunds p =>
    rcases counted_cases hRun with ⟨hTransfer, rfl⟩ | ⟨_, rfl, rfl⟩
    · unfold Store.transfer at hTransfer
      rw [Option.ite_none_left_eq_some] at hTransfer
      obtain ⟨hFresh, hTransfer⟩ := hTransfer
      cases hTransfer
      exact .transferred hFresh
    · exact .quiet ⟨fun _ => le_refl _, fun _ => le_refl _, fun _ h => h, fun h => h⟩
  | recordPayment p reference =>
    rcases counted_cases hRun with ⟨hRecord, rfl⟩ | ⟨hRecord, rfl, rfl⟩
    · cases recordPayment_eq_some hRecord
      exact .appRecorded
    · exact .appRefused (recordPayment_eq_none hRecord)
  | stampInvoice id status reference =>
    cases hRun
    exact took_stampInvoice
  | revert p =>
    cases hRun
    exact took_revert p
  | cancelInvoice id =>
    rcases counted_cases hRun with ⟨hUpdate, rfl⟩ | ⟨_, rfl, rfl⟩
    · exact took_cancelInvoice hUpdate
    · exact .quiet (.of_isPlain (fun _ h => h) rfl)
  | start target =>
    simp only [run] at hRun
    split at hRun
    · cases hRun
      exact .slotDrawn
    · cases hRun
      exact .quiet (.of_isPlain (fun _ h => h) rfl)
  | reserve h merchantId =>
    rcases counted_cases hRun with ⟨hReserve, rfl⟩ | ⟨_, rfl, rfl⟩
    · exact took_reserve hReserve
    · exact .quiet (.of_isPlain (fun _ h => h) rfl)
  | initializeSale h merchantId =>
    rcases counted_cases hRun with ⟨hCreate, rfl⟩ | ⟨_, rfl, rfl⟩
    · unfold Store.createSale at hCreate
      rw [Option.ite_none_left_eq_some] at hCreate
      obtain ⟨hFresh, hCreate⟩ := hCreate
      cases hCreate
      exact .saleCreated hFresh rfl
    · exact .quiet ⟨fun _ => le_refl _, fun _ => le_refl _, fun _ h => h, fun _ => trivial⟩
  | openProvider h reference =>
    cases hRun
    exact .quiet ⟨fun _ => le_refl _, fun _ => le_refl _, fun _ h => h, fun h => h⟩
  | failInit h reference =>
    cases hRun
    exact took_markFailedTx
      ⟨fun _ => le_refl _, fun _ => le_refl _, fun _ h => h, fun _ => trivial⟩
  | createCheckout h reference =>
    rcases counted_cases hRun with ⟨hCreate, rfl⟩ | ⟨_, rfl, rfl⟩
    · unfold Store.createCheckout at hCreate
      split at hCreate
      · rename_i hEmpty hUnique
        cases hCreate
        exact .checkoutCreated hEmpty hUnique
      · cases hCreate
    · exact .quiet ⟨fun _ => le_refl _, fun _ => le_refl _, fun _ h => h, fun _ => trivial⟩
  | release target id answer =>
    cases hRun
    exact took_releasing
  | reconcile reference =>
    simp only [run] at hRun
    split at hRun
    · cases hRun
      exact .quiet (.of_isPlain (fun _ h => h) rfl)
    · rename_i id row hFind
      obtain ⟨hRow, _⟩ := findCheckout_eq_some hFind
      split at hRun
      · rename_i hOpen
        cases hRun
        refine .quiet (.of_known (fun _ h => h) (fun _ => rfl) (fun _ => rfl) fun _ => ?_)
        refine ⟨?_, row, hRow, rfl, rfl, rfl⟩
        rcases hOpen with hPending | hExpired
        · simp [hPending, CheckoutStatus.isOpen]
        · simp [hExpired, CheckoutStatus.isOpen]
      · cases hRun
        exact .quiet (.of_isPlain (fun _ h => h) rfl)
  | verify c =>
    simp only [run] at hRun
    split at hRun
    · cases hRun
      exact .quiet (.of_isPlain (fun _ h => h) rfl)
    · split at hRun
      all_goals
        cases hRun
        exact .quiet (.of_known (fun _ h => h) (fun _ => rfl) (fun _ => rfl) fun h => h)
  | poll c provider =>
    cases hRun
    unfold afterPoll
    split
    all_goals exact .quiet (.of_known (fun _ h => h) (fun _ => rfl) (fun _ => rfl) fun h => h)
  | complete origin reference provider v =>
    simp only [run] at hRun
    split at hRun
    · cases hRun
      refine .quiet (.afterSale (fun _ h => h) ?_)
      rintro hKnown c rfl
      exact hKnown
    · cases hRun
      cases origin with
      | none => exact .quiet (.of_isPlain (fun _ h => h) rfl)
      | some c =>
        exact .quiet (.of_known (fun _ h => h) (fun _ => rfl) (fun _ => rfl) fun h => h)
  | settleSale origin reference rule p =>
    simp only [run] at hRun
    split at hRun
    · cases hRun
      cases origin with
      | none => exact .quiet (.of_isPlain (fun _ h => h) rfl)
      | some c => exact .quiet (.of_isPlain (fun _ h => h) rfl)
    · rename_i q answer hTx
      cases hRun
      exact took_settleSale hTx
  | markFailed origin reference =>
    cases hRun
    refine took_markFailedTx (.afterSale (fun _ h => h) ?_)
    rintro hKnown c rfl
    exact hKnown
  | saleStatus c => exact took_afterVerify hRun
  | closeFailed c =>
    rcases counted_cases hRun with ⟨hMove, rfl⟩ | ⟨_, rfl, rfl⟩
    · exact took_closeFailed hMove
    · exact .quiet (.of_isPlain (fun _ h => h) rfl)
  | expire c =>
    rcases counted_cases hRun with ⟨hMove, rfl⟩ | ⟨_, rfl, rfl⟩
    · exact took_expire hMove
    · exact .quiet (.of_isPlain (fun _ h => h) rfl)
  | readTransaction c =>
    cases hRun
    exact .quiet (.of_known (fun _ h => h) (fun _ => rfl) (fun _ => rfl) fun h => h)
  | claim c amount =>
    rcases counted_cases hRun with ⟨hMove, rfl⟩ | ⟨_, rfl, rfl⟩
    · obtain ⟨row, hRow, hStatus, rfl⟩ := moveCheckout_eq_some hMove
      exact .claimed hRow hStatus
    · exact .quiet (.of_isPlain (fun _ h => h) rfl)
  | recordWeb c amount =>
    rcases counted_cases hRun with ⟨hRecord, rfl⟩ | ⟨hRecord, rfl, rfl⟩
    · cases recordPayment_eq_some hRecord
      exact .webRecorded
    · exact .webRefused (recordPayment_eq_none hRecord)
  | settle c amount =>
    rcases counted_cases hRun with ⟨hSettle, rfl⟩ | ⟨_, rfl, rfl⟩
    · exact took_settle hSettle
    · exact .unsettled
  | recordException c amount =>
    rcases counted_cases hRun with ⟨hRecord, rfl⟩ | ⟨hRecord, hSame, rfl⟩
    · unfold Store.recordException at hRecord
      rw [Option.ite_none_left_eq_some] at hRecord
      obtain ⟨_, hRecord⟩ := hRecord
      cases hRecord
      exact .exceptionRecorded (fun _ h => List.mem_append_left _ h)
        ⟨_, List.mem_append_right _ (List.mem_singleton.mpr rfl), rfl⟩
    · rw [hSame]
      have hThere : ∃ e ∈ s.exceptions, e.reference = c.row.reference := by
        simpa [Store.recordException] using hRecord
      exact .exceptionRecorded (fun _ h => h) hThere
  | nowpaymentsWebhook reference paymentId v =>
    simp only [run] at hRun
    split at hRun
    · cases hRun
      exact .quiet (.of_isPlain (fun _ h => h) rfl)
    · rename_i sale hSale
      cases hRun
      refine took_linkPayment (Option.filter_eq_some_iff.mp hSale).1 (.of_isPlain (fun _ h => h) ?_)
      unfold afterWebhook
      split <;> rfl
  | nowpaymentsFailure reference =>
    cases hRun
    exact took_nowpaymentsFailureTx (.of_isPlain (fun _ h => h) rfl)
  | done answer => exact absurd rfl (hNotDone answer)

theorem took_of_step (hStep : step o s call = some (s', call')) : Took o s call s' call' := by
  cases hCall : call with
  | done answer =>
    rw [hCall] at hStep
    cases hStep
  | _ =>
    rw [← hCall]
    have hRun : (if o.throws then (s, onThrow call) else run o s call) = (s', call') := by
      subst hCall
      exact Option.some.inj hStep
    split at hRun
    · cases hRun
      exact .threw ‹_›
    · exact took_of_run hRun (by simp [hCall])

end Inversion

end FarmBackend.Commerce
