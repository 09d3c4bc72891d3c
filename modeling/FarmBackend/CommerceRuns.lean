import FarmBackend.CommerceSteps
import FarmBackend.Ticket

/-!
# What the calls on links, invoices and checkouts go by

Rows stay, and what a call has read of them stays true. Every checkout has a sale of its own, and
a reference is recorded as a business payment once at most.
-/

namespace FarmBackend.Commerce
open Fees Wallets QrPayments Interleaving

set_option autoImplicit false

/-- Nobody has paid yet, and no link is over its limit. -/
structure Fresh (s : Store) : Prop where
  checkouts : s.checkouts = []
  sales : ∀ r, s.sales r = none
  payments : s.payments = []
  transfers : s.transfers = []
  applied : s.applied = []
  reportedFailed : s.reportedFailed = []
  limits : ∀ id l, s.links id = some l → 0 ≤ l.useCount ∧ ∀ m, l.maxUses = some m → l.useCount ≤ m

/-! ## The table of checkouts -/

section Checkouts
variable {s : Store} {id other : CheckoutId} {row c : Checkout}

theorem checkouts_get (h : s.checkout id = some row) : s.checkouts[id]? = some (some row) :=
  Option.join_eq_some_iff.mp h

theorem checkout_setCheckout_self (h : s.checkout id = some row) :
    (s.setCheckout id c).checkout id = some c := by
  rw [Store.checkout, Store.setCheckout, Rows.getElem?_modify_self _ (checkouts_get h),
    Option.join_some]

theorem checkout_setCheckout_ne (h : other ≠ id) :
    (s.setCheckout id c).checkout other = s.checkout other := by
  rw [Store.checkout, Store.setCheckout, Rows.getElem?_modify_ne _ h.symm, Store.checkout]

theorem checkout_setCheckout_cases (h : (s.setCheckout id c).checkout other = some row) :
    (other = id ∧ row = c) ∨ (other ≠ id ∧ s.checkout other = some row) := by
  by_cases hId : other = id
  · subst hId
    rcases Rows.getElem?_modify_cases (checkouts_get h) with ⟨_, _, _, hRow⟩ | ⟨hNe, _⟩
    · exact .inl ⟨rfl, Option.some.inj hRow⟩
    · exact absurd rfl hNe
  · rw [checkout_setCheckout_ne hId] at h
    exact .inr ⟨hId, h⟩

theorem checkout_append_none :
    ({ s with checkouts := s.checkouts ++ [none] } : Store).checkout id = s.checkout id := by
  simp only [Store.checkout, List.getElem?_append, List.getElem?_singleton]
  split
  · rfl
  · rename_i hLe
    rw [List.getElem?_eq_none (by omega)]
    split <;> rfl

end Checkouts

/-! ## Rows stay -/

structure Store.Grows (s s' : Store) : Prop where
  links : ∀ id l, s.links id = some l → ∃ l', s'.links id = some l' ∧ l'.maxUses = l.maxUses
  checkouts : ∀ id row, s.checkout id = some row → ∃ row', s'.checkout id = some row' ∧
    row'.target = row.target ∧ row'.reference = row.reference ∧ row'.reserved = row.reserved
  sales : ∀ r sale, s.sales r = some sale → ∃ sale', s'.sales r = some sale' ∧ Keeps sale sale'
  payments : ∀ p ∈ s.payments, p ∈ s'.payments
  reportedFailed : ∀ r ∈ s.reportedFailed, r ∈ s'.reportedFailed

/-- The references of sales are taken; the references of checkouts are those of different sales. -/
structure Tidy (s : Store) : Prop where
  dated : ∀ r sale, s.sales r = some sale → r ∈ s.references
  onSale : ∀ id row, s.checkout id = some row → s.OnSale row.reference
  unique : ∀ id id' row row', s.checkout id = some row → s.checkout id' = some row' →
    row.reference = row'.reference → id = id'

section Growth
variable {o : Outcome} {s s' : Store} {call call' : Call} {r : Reference}

theorem Keeps.refl (sale : Sale) : Keeps sale sale := ⟨fun h => h, fun h => h⟩

theorem links_update {id : LinkId} {l new : Link} (hLink : s.links id = some l)
    (hMax : new.maxUses = l.maxUses) (other : LinkId) (old : Link) (hOld : s.links other = some old) :
    ∃ l', Function.update s.links id (some new) other = some l' ∧ l'.maxUses = old.maxUses := by
  by_cases hId : other = id
  · subst hId
    cases hLink.symm.trans hOld
    exact ⟨new, by rw [Function.update_self], hMax⟩
  · exact ⟨old, by rw [Function.update_of_ne hId, hOld], rfl⟩

theorem sales_update {sale new : Sale} (hSale : s.sales r = some sale) (hKeeps : Keeps sale new)
    (other : Reference) (old : Sale) (hOld : s.sales other = some old) :
    ∃ sale', Function.update s.sales r (some new) other = some sale' ∧ Keeps old sale' := by
  by_cases hRef : other = r
  · subst hRef
    cases hSale.symm.trans hOld
    exact ⟨new, by rw [Function.update_self], hKeeps⟩
  · exact ⟨old, by rw [Function.update_of_ne hRef, hOld], .refl old⟩

theorem Store.Grows.of_same (hLinks : ∀ id l, s.links id = some l →
      ∃ l', s'.links id = some l' ∧ l'.maxUses = l.maxUses)
    (hCheckouts : ∀ id, s'.checkout id = s.checkout id)
    (hSales : ∀ r sale, s.sales r = some sale → ∃ sale', s'.sales r = some sale' ∧ Keeps sale sale')
    (hPayments : ∀ p ∈ s.payments, p ∈ s'.payments)
    (hReported : ∀ r ∈ s.reportedFailed, r ∈ s'.reportedFailed) : s.Grows s' := by
  refine ⟨hLinks, ?_, hSales, hPayments, hReported⟩
  intro id row hRow
  exact ⟨row, by rw [hCheckouts, hRow], rfl, rfl, rfl⟩

theorem Store.Grows.refl (s : Store) : s.Grows s :=
  .of_same (fun _ l h => ⟨l, h, rfl⟩) (fun _ => rfl) (fun _ sale h => ⟨sale, h, .refl sale⟩)
    (fun _ h => h) (fun _ h => h)

theorem Store.Grows.of_link {id : LinkId} {l new : Link} (hLink : s.links id = some l)
    (hMax : new.maxUses = l.maxUses) :
    s.Grows { s with links := Function.update s.links id (some new) } :=
  .of_same (links_update hLink hMax) (fun _ => rfl) (fun _ sale h => ⟨sale, h, .refl sale⟩)
    (fun _ h => h) (fun _ h => h)

theorem Store.Grows.of_sale {sale new : Sale} {till : Till} (hSale : s.sales r = some sale)
    (hKeeps : Keeps sale new) : s.Grows (s.putSale r ⟨some new, till⟩) :=
  .of_same (fun _ l h => ⟨l, h, rfl⟩) (fun _ => rfl) (sales_update hSale hKeeps)
    (fun _ h => h) (fun _ h => h)

theorem Store.Grows.of_checkout {id : CheckoutId} {row : Checkout} {after : CheckoutStatus}
    (hRow : s.checkout id = some row) :
    s.Grows (s.setCheckout id { row with status := after }) := by
  refine ⟨fun _ l h => ⟨l, h, rfl⟩, ?_, fun _ sale h => ⟨sale, h, .refl sale⟩, fun _ h => h,
    fun _ h => h⟩
  intro other old hOld
  by_cases hId : other = id
  · subst hId
    cases hRow.symm.trans hOld
    exact ⟨_, checkout_setCheckout_self hRow, rfl, rfl, rfl⟩
  · exact ⟨old, by rw [checkout_setCheckout_ne hId, hOld], rfl, rfl, rfl⟩

theorem grows_of_took (hTidy : Tidy s) (hTook : Took o s call s' call') : s.Grows s' := by
  cases hTook with
  | quiet _ | threw _ | appRefused _ | webRefused _ | unsettled => exact .refl s
  | useTaken hLink _ | useReserved _ hLink _ | useReturned _ hLink => exact .of_link hLink rfl
  | invoicesWritten _ _ | invoiceClaimed _ _ | invoiceReverted _ | transferred _ | settledKept _ _
  | settledInvoice _ _ _ _ | exceptionRecorded _ _ =>
    exact .of_same (fun _ l h => ⟨l, h, rfl⟩) (fun _ => rfl) (fun _ sale h => ⟨sale, h, .refl sale⟩)
      (fun _ h => h) (fun _ h => h)
  | settledUse _ hLink _ =>
    exact .of_same (links_update hLink rfl) (fun _ => rfl) (fun _ sale h => ⟨sale, h, .refl sale⟩)
      (fun _ h => h) (fun _ h => h)
  | appRecorded | webRecorded =>
    exact .of_same (fun _ l h => ⟨l, h, rfl⟩) (fun _ => rfl) (fun _ sale h => ⟨sale, h, .refl sale⟩)
      (fun _ h => List.mem_append_left _ h) (fun _ h => h)
  | reported _ =>
    exact .of_same (fun _ l h => ⟨l, h, rfl⟩) (fun _ => rfl) (fun _ sale h => ⟨sale, h, .refl sale⟩)
      (fun _ h => h) (fun _ h => List.mem_append_left _ h)
  | slotDrawn =>
    exact .of_same (fun _ l h => ⟨l, h, rfl⟩) (fun _ => checkout_append_none)
      (fun _ sale h => ⟨sale, h, .refl sale⟩) (fun _ h => h) (fun _ h => h)
  | @saleCreated _ _ r _ hFresh _ =>
    refine .of_same (fun _ l h => ⟨l, h, rfl⟩) (fun _ => rfl) ?_ (fun _ h => h) (fun _ h => h)
    intro other sale hSale
    have hNe : other ≠ r := by
      rintro rfl
      exact hFresh (hTidy.dated other sale hSale)
    exact ⟨sale, by rw [← hSale]; exact Function.update_of_ne hNe _ _, .refl sale⟩
  | saleWritten hSale hKeeps _ _ | saleSettled hSale _ hKeeps => exact .of_sale hSale hKeeps
  | checkoutCreated hEmpty _ =>
    refine ⟨fun _ l h => ⟨l, h, rfl⟩, ?_, fun _ sale h => ⟨sale, h, .refl sale⟩, fun _ h => h,
      fun _ h => h⟩
    intro other row hRow
    refine ⟨row, ?_, rfl, rfl, rfl⟩
    rw [checkout_setCheckout_ne, hRow]
    rintro rfl
    rw [hEmpty] at hRow
    cases hRow
  | checkoutClosed hRow _ _ _ _ _ _ _ | claimed hRow _ => exact .of_checkout hRow

variable (hGrows : s.Grows s')
include hGrows

theorem Store.Grows.has {c : Read} (h : s.Has c) : s'.Has c := by
  obtain ⟨hOpen, row, hRow, hTarget, hReference, hReserved⟩ := h
  obtain ⟨row', hRow', hTarget', hReference', hReserved'⟩ := hGrows.checkouts _ row hRow
  exact ⟨hOpen, row', hRow', hTarget'.trans hTarget, hReference'.trans hReference,
    hReserved'.trans hReserved⟩

theorem Store.Grows.onSale (h : s.OnSale r) : s'.OnSale r := by
  obtain ⟨sale, hSale, hPublic⟩ := h
  obtain ⟨sale', hSale', hKeeps⟩ := hGrows.sales r sale hSale
  exact ⟨sale', hSale', hKeeps.isPublic hPublic⟩

theorem Store.Grows.sold (h : s.Sold r) : s'.Sold r := by
  obtain ⟨sale, hSale, hDone⟩ := h
  obtain ⟨sale', hSale', hKeeps⟩ := hGrows.sales r sale hSale
  exact ⟨sale', hSale', hKeeps.completed hDone⟩

theorem Store.Grows.paid (h : s.Paid r) : s'.Paid r := by
  obtain ⟨p, hMem, hReference⟩ := h
  exact ⟨p, hGrows.payments p hMem, hReference⟩

theorem Store.Grows.known (h : Known s call) : Known s' call := by
  unfold Known at h ⊢
  split at h
  · obtain ⟨l, hLink, hMax⟩ := h
    obtain ⟨l', hLink', hMax'⟩ := hGrows.links _ l hLink
    exact ⟨l', hLink', hMax'.trans hMax⟩
  · exact hGrows.onSale h
  · exact hGrows.onSale h
  · exact hGrows.onSale h
  · exact hGrows.has h
  · exact hGrows.has h
  · exact hGrows.has h
  · exact hGrows.has h
  · exact hGrows.has h
  · exact hGrows.has h
  · exact hGrows.has h
  · exact ⟨hGrows.has h.1, hGrows.reportedFailed _ h.2⟩
  · exact ⟨hGrows.has h.1, hGrows.sold h.2⟩
  · exact ⟨hGrows.has h.1, hGrows.sold h.2⟩
  · exact ⟨hGrows.has h.1, hGrows.sold h.2⟩
  · exact ⟨hGrows.has h.1, hGrows.paid h.2⟩
  · exact ⟨hGrows.has h.1, hGrows.paid h.2⟩
  · trivial

end Growth

/-! ## What a call knows -/

section Knowing
variable {o : Outcome} {s s' : Store} {call call' : Call}

theorem known_onThrow (h : Known s call) : Known s (onThrow call) := by
  unfold onThrow
  split
  all_goals first | exact h | trivial

theorem known_afterSale {origin : Origin} (h : ∀ c, origin = some c → s.Has c) :
    Known s (afterSale origin) := by
  cases origin with
  | none => trivial
  | some c => exact h c rfl

theorem known_of_took (hTidy : Tidy s) (hKnown : Known s call) (hTook : Took o s call s' call') :
    Known s' call' := by
  have hGrows := grows_of_took hTidy hTook
  cases hTook with
  | quiet hQuiet | invoicesWritten _ hQuiet | saleWritten _ _ _ hQuiet =>
    exact hGrows.known (hQuiet.known hKnown)
  | threw _ => exact known_onThrow hKnown
  | useTaken _ _ | useReserved _ _ _ | useReturned _ _ | invoiceClaimed _ _ | invoiceReverted _
  | transferred _ | appRefused _ | slotDrawn | checkoutCreated _ _ | webRefused _
  | settledKept _ _ | settledUse _ _ _ | settledInvoice _ _ _ _ | exceptionRecorded _ _ => trivial
  | @appRecorded p _ _ =>
    cases p with
    | link _ => trivial
    | invoice _ _ => trivial
  | saleCreated _ hPublic => exact ⟨_, Function.update_self _ _ _, hPublic⟩
  | @saleSettled origin _ _ _ _ _ _ _ _ _ =>
    refine known_afterSale ?_
    rintro c rfl
    exact hGrows.has hKnown
  | reported _ => exact ⟨hGrows.has hKnown, List.mem_append_right _ (List.mem_singleton.mpr rfl)⟩
  | checkoutClosed _ _ _ _ _ _ _ hKnown' => exact hGrows.known hKnown'
  | claimed _ _ => exact ⟨hGrows.has hKnown.1, hGrows.sold hKnown.2⟩
  | webRecorded =>
    exact ⟨hGrows.has hKnown.1, _, List.mem_append_right _ (List.mem_singleton.mpr rfl), rfl⟩
  | unsettled => exact hKnown

theorem tidy_setCheckout {id : CheckoutId} {c : Checkout} (hTidy : Tidy s)
    (hOnSale : s.OnSale c.reference)
    (hUnique : ∀ other row, other ≠ id → s.checkout other = some row → row.reference ≠ c.reference) :
    Tidy (s.setCheckout id c) := by
  refine ⟨hTidy.dated, ?_, ?_⟩
  · intro other row hRow
    rcases checkout_setCheckout_cases hRow with ⟨_, rfl⟩ | ⟨_, hOld⟩
    · exact hOnSale
    · exact hTidy.onSale other row hOld
  · intro a b rowA rowB hA hB hSame
    rcases checkout_setCheckout_cases hA with ⟨rfl, rfl⟩ | ⟨hNeA, hOldA⟩
    · rcases checkout_setCheckout_cases hB with ⟨rfl, _⟩ | ⟨hNeB, hOldB⟩
      · rfl
      · exact absurd hSame.symm (hUnique b rowB hNeB hOldB)
    · rcases checkout_setCheckout_cases hB with ⟨rfl, rfl⟩ | ⟨_, hOldB⟩
      · exact absurd hSame (hUnique a rowA hNeA hOldA)
      · exact hTidy.unique a b rowA rowB hOldA hOldB hSame

theorem tidy_moveCheckout {id : CheckoutId} {row : Checkout} {after : CheckoutStatus}
    (hTidy : Tidy s) (hRow : s.checkout id = some row) :
    Tidy (s.setCheckout id { row with status := after }) := by
  refine tidy_setCheckout hTidy (hTidy.onSale id row hRow) ?_
  intro other old hNe hOld hSame
  exact hNe (hTidy.unique other id old row hOld hRow hSame)

theorem Tidy.of_same (hTidy : Tidy s) (hGrows : s.Grows s')
    (hSales : ∀ r sale, s'.sales r = some sale → r ∈ s'.references)
    (hCheckouts : ∀ id, s'.checkout id = s.checkout id) : Tidy s' := by
  refine ⟨hSales, ?_, ?_⟩
  · intro id row hRow
    rw [hCheckouts] at hRow
    exact hGrows.onSale (hTidy.onSale id row hRow)
  · intro a b rowA rowB hA hB
    rw [hCheckouts] at hA hB
    exact hTidy.unique a b rowA rowB hA hB

theorem dated_update {r : Reference} {sale new : Sale} (hTidy : Tidy s)
    (hSale : s.sales r = some sale) (other : Reference) (old : Sale)
    (hOld : Function.update s.sales r (some new) other = some old) : other ∈ s.references := by
  by_cases hRef : other = r
  · subst hRef
    exact hTidy.dated other sale hSale
  · rw [Function.update_of_ne hRef] at hOld
    exact hTidy.dated other old hOld

theorem tidy_of_took (hTidy : Tidy s) (hKnown : Known s call) (hTook : Took o s call s' call') :
    Tidy s' := by
  have hGrows := grows_of_took hTidy hTook
  cases hTook with
  | quiet _ | threw _ | appRefused _ | webRefused _ | unsettled => exact hTidy
  | useTaken _ _ | useReserved _ _ _ | useReturned _ _ | invoicesWritten _ _ | invoiceClaimed _ _
  | invoiceReverted _ | appRecorded | webRecorded | reported _ | settledKept _ _
  | settledUse _ _ _ | settledInvoice _ _ _ _ | exceptionRecorded _ _ =>
    exact hTidy.of_same hGrows hTidy.dated fun _ => rfl
  | transferred _ =>
    refine hTidy.of_same hGrows ?_ fun _ => rfl
    intro r sale hSale
    exact List.mem_append_left _ (hTidy.dated r sale hSale)
  | slotDrawn => exact hTidy.of_same hGrows hTidy.dated fun _ => checkout_append_none
  | @saleCreated _ _ r _ _ _ =>
    refine hTidy.of_same hGrows ?_ fun _ => rfl
    intro other sale hSale
    by_cases hRef : other = r
    · subst hRef
      exact List.mem_append_right _ (List.mem_singleton.mpr rfl)
    · refine List.mem_append_left _ (hTidy.dated other sale ?_)
      rw [← hSale]
      exact (Function.update_of_ne hRef _ _).symm
  | saleWritten hSale _ _ _ | saleSettled hSale _ _ =>
    exact hTidy.of_same hGrows (dated_update hTidy hSale) fun _ => rfl
  | @checkoutCreated h r _ hUnique =>
    refine tidy_setCheckout hTidy hKnown ?_
    intro other row _ hRow hSame
    exact findCheckout_ne_none hRow hSame hUnique
  | checkoutClosed hRow _ _ _ _ _ _ _ | claimed hRow _ => exact tidy_moveCheckout hTidy hRow

variable {ok : Guard Store Call Outcome} {start : Store} {c : Config Store Call}

theorem Fresh.checkout (h : Fresh start) (id : CheckoutId) : start.checkout id = none := by
  rw [Store.checkout, h.checkouts]
  rfl

theorem Fresh.tidy (h : Fresh start) : Tidy start := by
  refine ⟨?_, ?_, ?_⟩
  · intro r sale hSale
    rw [h.sales] at hSale
    cases hSale
  · intro id row hRow
    rw [h.checkout] at hRow
    cases hRow
  · intro id _ row _ hRow
    rw [h.checkout] at hRow
    cases hRow

theorem known_enter (s : Store) (request : Request) : Known s (program.enter request) := by
  cases request <;> trivial

theorem known_of_reaches (hFresh : Fresh start) (h : program.Reaches ok (Program.idle start) c) :
    Tidy c.store ∧ ∀ call ∈ c.calls, Known c.store call := by
  refine h.assertions Tidy Known ⟨hFresh.tidy, by simp [Program.idle]⟩ ?_ ?_ ?_
  · intro request s _
    exact known_enter s request
  · intro o s s' call call' hTidy hKnown _ hStep
    have hTook := took_of_step hStep
    exact ⟨tidy_of_took hTidy hKnown hTook, known_of_took hTidy hKnown hTook⟩
  · intro o s s' call call' other hTidy _ hOther _ hStep
    exact (grows_of_took hTidy (took_of_step hStep)).known hOther

end Knowing

/-! ## A reference is recorded once -/

/-- What could still lead to a payment under the reference: it is unused, or the reference of a sale
none of whose checkouts is closed. -/
def Store.Recordable (r : Reference) (s : Store) : Prop :=
  r ∉ s.references ∨ ((s.sales r).isSome = true ∧
    ∀ id row, s.checkout id = some row → row.reference = r → row.status.isOpen = true)

def recordTicket (r : Reference) : Ticket Store Call where
  isOpen := Store.Recordable r
  fired s := (s.payments.map Payment.reference).count r
  holds := Call.recording r

section Recording
variable {o : Outcome} {s s' : Store} {call call' : Call} {r : Reference}

theorem recording_onThrow : (onThrow call).recording r = 0 := by
  unfold onThrow
  split <;> rfl

theorem record_keeps (hPayments : s'.payments = s.payments)
    (hOpen : s'.Recordable r → s.Recordable r)
    (hRecording : call'.recording r ≤ call.recording r) :
    (recordTicket r).Keeps s call s' call' := by
  refine ⟨?_, fun h => .inl (hOpen h)⟩
  simp only [recordTicket, hPayments]
  omega

theorem recordable_mono (hReferences : ∀ x ∈ s.references, x ∈ s'.references)
    (hSales : (s'.sales r).isSome = true → (s.sales r).isSome = true ∨ r ∉ s.references)
    (hCheckouts : ∀ id row, s.checkout id = some row → row.reference = r →
      row.status.isOpen = true ∨ s'.checkout id = some row) :
    s'.Recordable r → s.Recordable r := by
  rintro (hUnused | ⟨hOnSale, hRows⟩)
  · exact .inl fun h => hUnused (hReferences r h)
  · rcases hSales hOnSale with hSold | hNew
    · refine .inr ⟨hSold, ?_⟩
      intro id row hRow hReference
      rcases hCheckouts id row hRow hReference with hOpen | hRow'
      · exact hOpen
      · exact hRows id row hRow' hReference
    · exact .inl hNew

theorem recordable_of_same (hReferences : s'.references = s.references) (hSales : s'.sales = s.sales)
    (hCheckouts : s'.checkouts = s.checkouts) : s'.Recordable r → s.Recordable r := by
  refine recordable_mono (by simp [hReferences]) (fun h => .inl (by rwa [hSales] at h)) ?_
  intro id row hRow _
  exact .inr ((checkout_congr hCheckouts id).trans hRow)

theorem isSome_sales_update {r' : Reference} {sale new : Sale} (hSale : s.sales r' = some sale)
    (h : (Function.update s.sales r' (some new) r).isSome = true) : (s.sales r).isSome = true := by
  by_cases hRef : r = r'
  · subst hRef
    rw [hSale]
    rfl
  · rwa [Function.update_of_ne hRef] at h

/-- A reference is taken under lock of its own: the transfer that is given it, or the one checkout
that is completed under it. -/
theorem record_keeps_or_takes (hTidy : Tidy s) (hKnown : Known s call)
    (hTook : Took o s call s' call') :
    (recordTicket r).Keeps s call s' call' ∨ (recordTicket r).Takes s call s' call' := by
  cases hTook with
  | quiet hQuiet => exact .inl (record_keeps rfl (fun h => h) (hQuiet.recording r))
  | threw _ =>
    exact .inl (record_keeps rfl (fun h => h) (by rw [recording_onThrow]; exact Nat.zero_le _))
  | useTaken _ _ | useReserved _ _ _ | useReturned _ _ | invoiceClaimed _ _ | invoiceReverted _
  | reported _ | settledKept _ _ | settledUse _ _ _ | settledInvoice _ _ _ _
  | exceptionRecorded _ _ =>
    exact .inl (record_keeps rfl (recordable_of_same rfl rfl rfl) (Nat.zero_le _))
  | appRefused _ | webRefused _ | unsettled =>
    exact .inl (record_keeps rfl (fun h => h) (Nat.zero_le _))
  | invoicesWritten _ hQuiet =>
    exact .inl (record_keeps rfl (recordable_of_same rfl rfl rfl) (hQuiet.recording r))
  | @transferred p r' hFresh =>
    by_cases hRef : r' = r
    · subst hRef
      refine .inr ⟨.inl hFresh, ?_, ?_⟩
      · rintro (hUnused | ⟨hSold, _⟩)
        · exact hUnused (List.mem_append_right _ (List.mem_singleton.mpr rfl))
        · obtain ⟨sale, hSale⟩ := Option.isSome_iff_exists.mp hSold
          exact hFresh (hTidy.dated r' sale hSale)
      · simp [recordTicket, Call.recording]
    · refine .inl (record_keeps rfl ?_ ?_)
      · exact recordable_mono (fun _ h => List.mem_append_left _ h) .inl fun _ _ h _ => .inr h
      · simp [Call.recording, hRef]
  | @appRecorded p r' amount =>
    refine .inl ⟨?_, fun h => .inl (recordable_of_same rfl rfl rfl h)⟩
    have hAfter : (afterPay r' p).recording r = 0 := by cases p <;> rfl
    simp only [recordTicket, hAfter, List.map_append, List.map_singleton, List.count_append,
      List.count_singleton, beq_iff_eq]
    simp only [Call.recording]
    omega
  | slotDrawn =>
    refine .inl (record_keeps rfl ?_ (Nat.zero_le _))
    refine recordable_mono (fun _ h => h) .inl ?_
    intro id row hRow _
    exact .inr (by rw [checkout_append_none, hRow])
  | @saleCreated _ _ r' _ hFresh _ =>
    refine .inl (record_keeps rfl ?_ (Nat.zero_le _))
    refine recordable_mono (fun _ h => List.mem_append_left _ h) ?_ fun _ _ h _ => .inr h
    intro hSold
    by_cases hRef : r = r'
    · subst hRef
      exact .inr hFresh
    · simp only [Function.update_of_ne hRef] at hSold
      exact .inl hSold
  | saleWritten hSale _ _ hQuiet =>
    refine .inl (record_keeps rfl ?_ (hQuiet.recording r))
    exact recordable_mono (fun _ h => h) (fun h => .inl (isSome_sales_update hSale h))
      fun _ _ h _ => .inr h
  | @saleSettled origin _ _ _ _ _ _ hSale _ _ =>
    have hAfter : (afterSale origin).recording r = 0 := by cases origin <;> rfl
    refine .inl (record_keeps rfl ?_ (by rw [hAfter]; exact Nat.zero_le _))
    exact recordable_mono (fun _ h => h) (fun h => .inl (isSome_sales_update hSale h))
      fun _ _ h _ => .inr h
  | checkoutCreated hEmpty _ =>
    refine .inl (record_keeps rfl ?_ (Nat.zero_le _))
    refine recordable_mono (fun _ h => h) .inl ?_
    intro id row hRow _
    refine .inr ?_
    rw [checkout_setCheckout_ne, hRow]
    rintro rfl
    rw [hEmpty] at hRow
    cases hRow
  | @checkoutClosed _ call' id row after hRow _ hOpen _ _ hRecording _ _ =>
    refine .inl (record_keeps rfl ?_ (by rw [hRecording]; exact Nat.zero_le _))
    refine recordable_mono (fun _ h => h) .inl ?_
    intro other old hOld _
    by_cases hId : other = id
    · subst hId
      cases hRow.symm.trans hOld
      exact .inl (hOpen hKnown)
    · exact .inr (by rw [checkout_setCheckout_ne hId, hOld])
  | @claimed c amount row hRow hStatus =>
    obtain ⟨⟨hOpen, row', hRow', _, hReference, _⟩, _⟩ := hKnown
    cases hRow.symm.trans hRow'
    by_cases hRef : c.row.reference = r
    · subst hRef
      obtain ⟨sale, hSale, _⟩ := hTidy.onSale c.id row hRow
      rw [hReference] at hSale
      refine .inr ⟨.inr ⟨by rw [hSale]; rfl, ?_⟩, ?_, ?_⟩
      · intro id old hOld hSame
        have hId := hTidy.unique id c.id old row hOld hRow (hSame.trans hReference.symm)
        subst hId
        cases hRow.symm.trans hOld
        rwa [hStatus]
      · rintro (hUnused | ⟨_, hRows⟩)
        · exact hUnused (hTidy.dated _ sale hSale)
        · have hClosed := hRows c.id _ (checkout_setCheckout_self hRow) hReference
          cases hClosed
      · simp only [recordTicket, Call.recording, if_pos]
        exact Nat.le_refl _
    · refine .inl (record_keeps rfl ?_ ?_)
      · refine recordable_mono (fun _ h => h) .inl ?_
        intro other old hOld hOldRef
        refine .inr ?_
        rw [checkout_setCheckout_ne, hOld]
        rintro rfl
        cases hRow.symm.trans hOld
        exact hRef (hReference.symm.trans hOldRef)
      · simp [Call.recording, hRef]
  | @webRecorded c amount =>
    refine .inl ⟨?_, fun h => .inl (recordable_of_same rfl rfl rfl h)⟩
    simp only [recordTicket, Call.recording, List.map_append, List.map_singleton,
      List.count_append, List.count_singleton, beq_iff_eq]
    omega

variable {ok : Guard Store Call Outcome} {start : Store} {c : Config Store Call}

theorem record_sound (hFresh : Fresh start) (h : program.Reaches ok (Program.idle start) c)
    (r : Reference) : (recordTicket r).Sound c := by
  have hStart : (recordTicket r).spent (Program.idle start) = 0 := by
    simp [Ticket.spent, recordTicket, Program.idle, hFresh.payments]
  refine Ticket.Sound.reaches h ⟨by rw [hStart]; exact Nat.zero_le _, fun _ => hStart⟩ ?_ ?_
  · intro request
    cases request <;> rfl
  · intro o s s' call call' before after hReach _ hStep
    obtain ⟨hTidy, hKnown⟩ := known_of_reaches hFresh hReach
    exact record_keeps_or_takes hTidy (hKnown call (by simp)) (took_of_step hStep)

/-- Nobody has recorded a reference that a call is about to record. -/
theorem unpaid_of_recording (hFresh : Fresh start) {s : Store} {call : Call}
    {before after : List Call}
    (h : program.Reaches ok (Program.idle start) ⟨s, before ++ call :: after⟩) {r : Reference}
    (hRecording : call.recording r = 1) : ¬s.Paid r := by
  rintro ⟨p, hMem, rfl⟩
  have hLe := (record_sound hFresh h p.reference).fired_add_le
  have hCount : 0 < (s.payments.map Payment.reference).count p.reference :=
    List.count_pos_iff.mpr (List.mem_map_of_mem hMem)
  simp only [recordTicket, hRecording] at hLe
  omega

end Recording

end FarmBackend.Commerce
