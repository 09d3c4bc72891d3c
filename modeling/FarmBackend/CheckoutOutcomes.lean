import FarmBackend.PaymentSlots

/-!
# A credited sale is recorded

The sale of a checkout may complete after it has failed, the row of the checkout may not. Along the
runs in which no sale completes that `verify` has already reported failed, and in which nothing
throws between the claim on a checkout and its records, no failed checkout has a completed sale,
and a completed sale is recorded or can still be.
-/

namespace FarmBackend.Commerce
open Fees Wallets QrPayments Interleaving

set_option autoImplicit false

/-- The settlement would complete a sale that `verify` has reported failed. -/
def settlesLate (s : Store) : Call → Bool
  | .settleSale _ r _ _ =>
    s.reportedFailed.contains r && (s.sales r).any fun sale => sale.status == .failed
  | _ => false

def Call.isClaimant : Call → Bool
  | .recordWeb _ _ | .settle _ _ | .recordException _ _ => true
  | _ => false

def failureFinal (o : Outcome) (s : Store) (call : Call) : Bool :=
  !settlesLate s call && !(o.throws && call.isClaimant)

abbrev FailureFinal : Guard Store Call Outcome := fun o s call => failureFinal o s call = true

/-- What is reported failed has failed, and a checkout fails on a report. -/
structure Reported (s : Store) : Prop where
  sales : ∀ r ∈ s.reportedFailed,
    QrPayments.saleStatus ((s.sales r).map Sale.status) = .failed
  checkouts : ∀ id row, s.checkout id = some row → row.status = .failed →
    row.reference ∈ s.reportedFailed

def Store.Recorded (s : Store) (r : Reference) : Prop := s.Paid r ∧ s.Placed r

section Steps
variable {o : Outcome} {s s' : Store} {call call' : Call} {r : Reference}

theorem Reported.of_same (h : Reported s) (hSales : ∀ r, s'.sales r = s.sales r)
    (hCheckouts : ∀ id, s'.checkout id = s.checkout id)
    (hReported : s'.reportedFailed = s.reportedFailed) : Reported s' := by
  refine ⟨?_, ?_⟩
  · intro r hMem
    rw [hReported] at hMem
    rw [hSales]
    exact h.sales r hMem
  · intro id row hRow hStatus
    rw [hCheckouts] at hRow
    rw [hReported]
    exact h.checkouts id row hRow hStatus

theorem Reported.of_sale {r₀ : Reference} {sale new : Sale} {till : Till} (h : Reported s)
    (hSale : s.sales r₀ = some sale) (hFailure : r₀ ∈ s.reportedFailed → KeepsFailure sale new) :
    Reported (s.putSale r₀ ⟨some new, till⟩) := by
  refine ⟨?_, h.checkouts⟩
  intro r hMem
  have hBefore := h.sales r hMem
  by_cases hRef : r = r₀
  · subst hRef
    rw [hSale] at hBefore
    simp only [Store.putSale, Function.update_self]
    exact hFailure hMem hBefore
  · simpa only [Store.putSale, Function.update_of_ne hRef] using hBefore

theorem Reported.of_checkout {id : CheckoutId} {c : Checkout} (h : Reported s)
    (hFailed : c.status = .failed → c.reference ∈ s.reportedFailed) :
    Reported (s.setCheckout id c) := by
  refine ⟨h.sales, ?_⟩
  intro other row hRow hStatus
  rcases checkout_setCheckout_cases hRow with ⟨_, rfl⟩ | ⟨_, hOld⟩
  · exact hFailed hStatus
  · exact h.checkouts other row hOld hStatus

theorem reported_of_took (hTidy : Tidy s) (hKnown : Known s call)
    (hOk : failureFinal o s call = true) (h : Reported s) (hTook : Took o s call s' call') :
    Reported s' := by
  cases hTook with
  | quiet _ | threw _ | appRefused _ | webRefused _ | unsettled => exact h
  | useTaken _ _ | useReserved _ _ _ | useReturned _ _ | invoicesWritten _ _ | invoiceClaimed _ _
  | invoiceReverted _ | transferred _ | appRecorded | webRecorded | settledKept _ _
  | settledUse _ _ _ | settledInvoice _ _ _ _ | exceptionRecorded _ _ =>
    exact h.of_same (fun _ => rfl) (fun _ => rfl) rfl
  | slotDrawn => exact h.of_same (fun _ => rfl) (fun _ => checkout_append_none) rfl
  | @saleCreated _ _ r₀ _ hFresh _ =>
    refine ⟨?_, h.checkouts⟩
    intro r hMem
    have hBefore := h.sales r hMem
    have hRef : r ≠ r₀ := by
      rintro rfl
      cases hSale : s.sales r with
      | none => simp [hSale, saleStatus] at hBefore
      | some sale => exact hFresh (hTidy.dated r sale hSale)
    simpa only [Function.update_of_ne hRef] using hBefore
  | saleWritten hSale _ hFailure _ => exact h.of_sale hSale fun _ => hFailure
  | @saleSettled _ r₀ _ _ sale _ _ hSale hStatus _ =>
    refine h.of_sale hSale ?_
    intro hMem hFailed
    exfalso
    have hLate : sale.status = .failed := by
      cases hNow : sale.status <;> simp_all [isSettleable, saleStatus]
    simp [failureFinal, settlesLate, hMem, hSale, hLate] at hOk
  | checkoutCreated _ _ => exact h.of_checkout (by simp [Hold.checkout])
  | @reported c hFailed =>
    refine ⟨?_, ?_⟩
    · intro r hMem
      rcases List.mem_append.mp hMem with hOld | hNew
      · exact h.sales r hOld
      · rw [List.mem_singleton.mp hNew]
        exact hFailed
    · intro id row hRow hStatus
      exact List.mem_append_left _ (h.checkouts id row hRow hStatus)
  | checkoutClosed _ _ _ hFailed _ _ _ _ => exact h.of_checkout fun hAfter => hFailed hKnown hAfter
  | claimed _ _ => exact h.of_checkout (by simp)

theorem placed_of_took (hTook : Took o s call s' call') (h : s.Placed r) : s'.Placed r := by
  have hApplied : ∀ new, (∃ a ∈ s.applied, a.1 = r) → ∃ a ∈ s.applied ++ new, a.1 = r := by
    rintro new ⟨a, hMem, hRef⟩
    exact ⟨a, List.mem_append_left _ hMem, hRef⟩
  cases hTook with
  | settledKept _ _ | settledUse _ _ _ | settledInvoice _ _ _ _ => exact h.imp_left (hApplied _)
  | exceptionRecorded hSub _ =>
    refine h.imp_right ?_
    rintro ⟨e, hMem, hRef⟩
    exact ⟨e, hSub e hMem, hRef⟩
  | _ => exact h

theorem completed_of_took (hTook : Took o s call s' call') {id : CheckoutId} {row : Checkout}
    (hRow : s'.checkout id = some row) (hStatus : row.status = .completed) :
    s.checkout id = some row ∨ call'.claims id := by
  cases hTook with
  | slotDrawn =>
    rw [checkout_append_none] at hRow
    exact .inl hRow
  | checkoutCreated _ _ =>
    rcases checkout_setCheckout_cases hRow with ⟨_, rfl⟩ | ⟨_, hOld⟩
    · cases hStatus
    · exact .inl hOld
  | checkoutClosed _ hAfter _ _ _ _ _ _ =>
    rcases checkout_setCheckout_cases hRow with ⟨_, rfl⟩ | ⟨_, hOld⟩
    · exact absurd hStatus hAfter.1
    · exact .inl hOld
  | claimed _ _ =>
    rcases checkout_setCheckout_cases hRow with ⟨rfl, _⟩ | ⟨_, hOld⟩
    · exact .inr rfl
    · exact .inl hOld
  | _ => exact .inl hRow

/-- A call that has claimed a checkout goes on to record it. -/
theorem recorded_of_claims (hKnown : Known s call) (hOk : failureFinal o s call = true)
    (hUnpaid : ∀ r, call.recording r = 1 → ¬s.Paid r) (hTook : Took o s call s' call')
    {id : CheckoutId} {row : Checkout} (hRow : s.checkout id = some row)
    (hClaims : call.claims id) : call'.claims id ∨ s'.Recorded row.reference := by
  have hSame : ∀ c : Read, c.id = id → s.Has c → c.row.reference = row.reference := by
    rintro c rfl ⟨_, row', hRow', _, hReference, _⟩
    cases hRow.symm.trans hRow'
    exact hReference.symm
  cases hTook with
  | quiet hQuiet | invoicesWritten _ hQuiet | saleWritten _ _ _ hQuiet =>
    exact absurd hClaims (hQuiet.claims id)
  | threw hThrows =>
    exfalso
    unfold Call.claims at hClaims
    split at hClaims
    · simp [failureFinal, hThrows, Call.isClaimant] at hOk
    · simp [failureFinal, hThrows, Call.isClaimant] at hOk
    · simp [failureFinal, hThrows, Call.isClaimant] at hOk
    · exact hClaims
  | checkoutClosed _ _ _ _ _ _ hNot _ => exact absurd hClaims (hNot id)
  | useReturned hCall _ =>
    rcases hCall with rfl | ⟨_, rfl⟩
    · exact hClaims.elim
    · exact hClaims.elim
  | webRecorded => exact .inl hClaims
  | @webRefused c _ hPaid => exact absurd hPaid (hUnpaid c.row.reference (by simp [Call.recording]))
  | unsettled => exact .inl hClaims
  | settledKept _ _ | settledUse _ _ _ | settledInvoice _ _ _ _ =>
    refine .inr ?_
    rw [← hSame _ hClaims hKnown.1]
    exact ⟨hKnown.2, .inl ⟨_, List.mem_append_right _ (List.mem_singleton.mpr rfl), rfl⟩⟩
  | exceptionRecorded _ hException =>
    refine .inr ?_
    rw [← hSame _ hClaims hKnown.1]
    exact ⟨hKnown.2, .inr hException⟩
  | _ => exact hClaims.elim

end Steps

/-! ## Runs -/

section Runs
variable {start : Store} {c : Config Store Call}

theorem reported_of_reaches (hFresh : Fresh start)
    (h : program.Reaches FailureFinal (Program.idle start) c) : Reported c.store := by
  have hStart : Reported start := by
    refine ⟨by simp [hFresh.reportedFailed], ?_⟩
    intro id row hRow
    rw [hFresh.checkout] at hRow
    cases hRow
  refine (h.assertions_among Reported (fun _ _ => True) ⟨hStart, fun _ _ => trivial⟩
    (fun _ _ _ => trivial) ?_ ?_).1
  · intro o s s' call call' before after hReach hReported _ hOk hStep
    obtain ⟨hTidy, hKnown⟩ := known_of_reaches hFresh hReach
    exact ⟨reported_of_took hTidy (hKnown call (by simp)) hOk hReported (took_of_step hStep),
      trivial⟩
  · intros
    trivial

/-- A completed checkout is recorded, or in the hands of the call that completed it. -/
theorem completed_recorded (hFresh : Fresh start)
    (h : program.Reaches FailureFinal (Program.idle start) c) :
    ∀ id row, c.store.checkout id = some row → row.status = .completed →
      (∃ call ∈ c.calls, call.claims id) ∨ c.store.Recorded row.reference := by
  induction h with
  | refl =>
    intro id row hRow
    rw [Program.idle, hFresh.checkout] at hRow
    cases hRow
  | tail hRun hLast ih =>
    cases hLast with
    | enter request store calls =>
      intro id row hRow hStatus
      refine (ih id row hRow hStatus).imp_left ?_
      rintro ⟨call, hMem, hClaims⟩
      exact ⟨call, List.mem_append_left _ hMem, hClaims⟩
    | @call o s s' call call' before after hOk hStep =>
      intro id row hRow hStatus
      obtain ⟨hTidy, hKnown⟩ := known_of_reaches hFresh hRun
      have hCall := hKnown call (by simp)
      have hTook := took_of_step hStep
      rcases completed_of_took hTook hRow hStatus with hOld | hClaims
      · rcases ih id row hOld hStatus with ⟨claimant, hMem, hClaims⟩ | ⟨hPaid, hPlaced⟩
        · have hOthers : claimant = call ∨ claimant ∈ before ++ call' :: after := by
            simp only [List.mem_append, List.mem_cons] at hMem ⊢
            rcases hMem with hBefore | hSelf | hAfter
            · exact .inr (.inl hBefore)
            · exact .inl hSelf
            · exact .inr (.inr (.inr hAfter))
          rcases hOthers with rfl | hThere
          · refine (recorded_of_claims hCall hOk (fun r => unpaid_of_recording hFresh hRun) hTook
              hOld hClaims).imp_left ?_
            intro hNext
            exact ⟨call', by simp, hNext⟩
          · exact .inl ⟨claimant, hThere, hClaims⟩
        · exact .inr ⟨(grows_of_took hTidy hTook).paid hPaid, placed_of_took hTook hPlaced⟩
      · exact .inl ⟨call', by simp, hClaims⟩

end Runs

/-! ## A later `reconcile` -/

section Later
variable {o : Outcome} {s : Store} (calls : List Call) {id : CheckoutId} {row : Checkout}

theorem reaches_last {s' : Store} {call call' : Call} (hThrows : o.throws = false)
    (hLate : settlesLate s call = false) (hStep : step o s call = some (s', call')) :
    program.Reaches FailureFinal ⟨s, calls ++ [call]⟩ ⟨s', calls ++ [call']⟩ := by
  have hOk : failureFinal o s call = true := by simp [failureFinal, hThrows, hLate]
  exact Relation.ReflTransGen.single (.call calls [] hOk hStep)

theorem findCheckout_eq (hTidy : Tidy s) (hRow : s.checkout id = some row) :
    s.findCheckout row.reference = some (id, row) := by
  apply findCheckout_of_unique hRow rfl
  intro other row' hOther hReference
  exact hTidy.unique other id row' row hOther hRow hReference

theorem pollProvider_of_completed {sale : Sale} (h : sale.status = .completed) :
    sale.pollProvider = none := by
  unfold Sale.status at h
  simp [Sale.pollProvider, h]

/-- The first four awaits of a `reconcile` whose sale has completed. -/
theorem reaches_readTransaction (hTidy : Tidy s) (hRow : s.checkout id = some row)
    (hOpen : row.status.isOpen = true) (hSold : s.Sold row.reference) (hThrows : o.throws = false) :
    program.Reaches FailureFinal ⟨s, calls⟩ ⟨s, calls ++ [.readTransaction ⟨id, row⟩]⟩ := by
  obtain ⟨sale, hSale, hDone⟩ := hSold
  obtain ⟨sale', hSale', hPublic⟩ := hTidy.onSale id row hRow
  cases hSale.symm.trans hSale'
  have hEnter : program.Reaches FailureFinal ⟨s, calls⟩ ⟨s, calls ++ [.reconcile row.reference]⟩ :=
    Relation.ReflTransGen.single (Program.Step.enter (Request.reconcile row.reference) s calls)
  have hFind : step o s (.reconcile row.reference) = some (s, .verify ⟨id, row⟩) := by
    have hStatus : row.status = .pending ∨ row.status = .expired := by
      cases hNow : row.status <;> simp_all [CheckoutStatus.isOpen]
    simp [step, hThrows, run, findCheckout_eq hTidy hRow, hStatus]
  have hVerify : step o s (.verify ⟨id, row⟩) = some (s, .saleStatus ⟨id, row⟩) := by
    have hFound : (some sale).filter Sale.isPublicQrSale = some sale := by
      simp [Option.filter, hPublic]
    simp [step, hThrows, run, hSale, hFound, pollProvider_of_completed hDone]
  have hStatus : step o s (.saleStatus ⟨id, row⟩) = some (s, .readTransaction ⟨id, row⟩) := by
    simp [step, hThrows, run, afterVerify, hSale, hDone, saleStatus]
  exact ((hEnter.trans (reaches_last calls hThrows rfl hFind)).trans
    (reaches_last calls hThrows rfl hVerify)).trans (reaches_last calls hThrows rfl hStatus)

theorem payments_settleTarget {s' : Store} {c : Checkout} {now : Time}
    (h : s.settleTarget id c now = some s') : s'.payments = s.payments := by
  unfold Store.settleTarget at h
  split at h
  · split at h
    · cases h
      rfl
    · obtain ⟨_, _, _, rfl⟩ := updateLink_eq_some h
      rfl
  · obtain ⟨_, _, _, rfl⟩ := updateInvoice_eq_some h
    rfl

/-- `settle` and, where it refuses, the exception. -/
theorem reaches_placed (s : Store) (c : Read) (amount : ℤ) (hThrows : o.throws = false) :
    ∃ s', program.Reaches FailureFinal ⟨s, calls ++ [.settle c amount]⟩
        ⟨s', calls ++ [.done (.status .completed)]⟩ ∧
      s'.payments = s.payments ∧ s'.Placed c.row.reference := by
  cases hSettle : s.settle c.id c.row o.now with
  | some s' =>
    have hStep : step o s (.settle c amount) = some (s', .done (.status .completed)) := by
      simp [step, hThrows, run, hSettle, counted]
    obtain ⟨s₁, hTarget, rfl⟩ := Option.map_eq_some_iff.mp hSettle
    have hKept := payments_settleTarget hTarget
    exact ⟨_, reaches_last calls hThrows rfl hStep, hKept,
      .inl ⟨_, List.mem_append_right _ (List.mem_singleton.mpr rfl), rfl⟩⟩
  | none =>
    have hStep : step o s (.settle c amount) = some (s, .recordException c amount) := by
      simp [step, hThrows, run, hSettle, counted]
    have hFirst := reaches_last calls hThrows rfl hStep
    cases hRecord : s.recordException ⟨c.row.target, c.row.reference, amount, .web⟩ with
    | none =>
      have hNext : step o s (.recordException c amount) =
          some (s, .done (.status .completed)) := by
        simp [step, hThrows, run, hRecord, counted]
      refine ⟨s, hFirst.trans (reaches_last calls hThrows rfl hNext), rfl, .inr ?_⟩
      simpa [Store.recordException] using hRecord
    | some s' =>
      have hNext : step o s (.recordException c amount) =
          some (s', .done (.status .completed)) := by
        simp [step, hThrows, run, hRecord, counted]
      unfold Store.recordException at hRecord
      rw [Option.ite_none_left_eq_some] at hRecord
      obtain ⟨_, hRecord⟩ := hRecord
      cases hRecord
      exact ⟨_, hFirst.trans (reaches_last calls hThrows rfl hNext), rfl,
        .inr ⟨_, List.mem_append_right _ (List.mem_singleton.mpr rfl), rfl⟩⟩

/-- A `reconcile` of an open checkout whose sale has completed records it, whatever the link or the
invoice has come to. -/
theorem reconcile_records (hTidy : Tidy s) (hRow : s.checkout id = some row)
    (hOpen : row.status.isOpen = true) (hSold : s.Sold row.reference)
    (hUnpaid : ¬s.Paid row.reference) (hThrows : o.throws = false) :
    ∃ s', program.Reaches FailureFinal ⟨s, calls⟩
        ⟨s', calls ++ [.done (.status .completed)]⟩ ∧ s'.Recorded row.reference := by
  have hRead := reaches_readTransaction calls hTidy hRow hOpen hSold hThrows
  obtain ⟨amount, hAmount⟩ : ∃ amount, step o s (.readTransaction ⟨id, row⟩) =
      some (s, .claim ⟨id, row⟩ amount) := ⟨_, by simp [step, hThrows, run]; rfl⟩
  have hMove : s.moveCheckout id row.status .completed =
      some (s.setCheckout id { row with status := .completed }) := by
    simp [Store.moveCheckout, hRow]
  have hClaim : step o s (.claim ⟨id, row⟩ amount) =
      some (s.setCheckout id { row with status := .completed }, .recordWeb ⟨id, row⟩ amount) := by
    simp [step, hThrows, run, hMove, counted]
  generalize hClaimed : s.setCheckout id { row with status := .completed } = s₁ at hClaim
  have hPayments : s₁.payments = s.payments := by rw [← hClaimed]; rfl
  have hFree : row.reference ∉ s₁.payments.map Payment.reference := by
    rw [hPayments, List.mem_map]
    rintro ⟨p, hMem, hReference⟩
    exact hUnpaid ⟨p, hMem, hReference⟩
  have hRecord : step o s₁ (.recordWeb ⟨id, row⟩ amount) =
      some ({ s₁ with payments := s₁.payments ++ [⟨row.target, row.reference, amount, .web⟩] },
        .settle ⟨id, row⟩ amount) := by
    simp [step, hThrows, run, Store.recordPayment, hFree, counted]
  obtain ⟨s', hSettled, hKept, hPlaced⟩ := reaches_placed calls
    { s₁ with payments := s₁.payments ++ [⟨row.target, row.reference, amount, .web⟩] }
    ⟨id, row⟩ amount hThrows
  refine ⟨s', ?_, ?_, hPlaced⟩
  · exact (((hRead.trans (reaches_last calls hThrows rfl hAmount)).trans
      (reaches_last calls hThrows rfl hClaim)).trans (reaches_last calls hThrows rfl hRecord)).trans hSettled
  · refine ⟨⟨row.target, row.reference, amount, .web⟩, ?_, rfl⟩
    rw [hKept]
    exact List.mem_append_right _ (List.mem_singleton.mpr rfl)

end Later

section Outcomes
variable {start : Store} {c : Config Store Call}

/-- A checkout that can still be completed has no payment yet. -/
theorem unpaid_of_open (hFresh : Fresh start)
    (h : program.Reaches FailureFinal (Program.idle start) c) {id : CheckoutId} {row : Checkout}
    (hRow : c.store.checkout id = some row) (hOpen : row.status.isOpen = true) :
    ¬c.store.Paid row.reference := by
  have hTidy := (known_of_reaches hFresh h).1
  have hRecordable : c.store.Recordable row.reference := by
    obtain ⟨sale, hSale, _⟩ := hTidy.onSale id row hRow
    refine .inr ⟨by rw [hSale]; rfl, ?_⟩
    intro other old hOld hSame
    have hId := hTidy.unique other id old row hOld hRow hSame
    subst hId
    cases hRow.symm.trans hOld
    exact hOpen
  have hNone := (record_sound hFresh h row.reference).fired_of_open hRecordable
  rintro ⟨p, hMem, hReference⟩
  have hCount : 0 < (c.store.payments.map Payment.reference).count row.reference :=
    List.count_pos_iff.mpr (List.mem_map.mpr ⟨p, hMem, hReference⟩)
  simp only [recordTicket] at hNone
  omega

/-- Under the guard a failed checkout has no completed sale. Once the merchant has been credited for
a checkout, its payment is recorded and placed, or about to be by the call that has completed it, or
the next `reconcile` records it. -/
theorem credited_checkouts_recorded (hFresh : Fresh start)
    (h : program.Reaches FailureFinal (Program.idle start) c) {id : CheckoutId} {row : Checkout}
    (hRow : c.store.checkout id = some row) :
    (row.status = .failed → ¬c.store.Sold row.reference) ∧
      (c.store.Sold row.reference →
        (row.status.isOpen = true ∧ ∀ o : Outcome, o.throws = false →
          ∃ s', program.Reaches FailureFinal c ⟨s', c.calls ++ [.done (.status .completed)]⟩ ∧
            s'.Recorded row.reference) ∨
        (∃ call ∈ c.calls, call.claims id) ∨ c.store.Recorded row.reference) := by
  have hReported := reported_of_reaches hFresh h
  have hNotSold : row.status = .failed → ¬c.store.Sold row.reference := by
    rintro hFailed ⟨sale, hSale, hDone⟩
    have hStatus := hReported.sales _ (hReported.checkouts id row hRow hFailed)
    rw [hSale, Option.map_some, hDone] at hStatus
    cases hStatus
  refine ⟨hNotSold, ?_⟩
  intro hSold
  have hOpen : row.status.isOpen = true → (row.status.isOpen = true ∧
      ∀ o : Outcome, o.throws = false →
        ∃ s', program.Reaches FailureFinal c ⟨s', c.calls ++ [.done (.status .completed)]⟩ ∧
          s'.Recorded row.reference) := by
    intro hOpen
    refine ⟨hOpen, ?_⟩
    intro o hThrows
    exact reconcile_records c.calls (known_of_reaches hFresh h).1 hRow hOpen hSold
      (unpaid_of_open hFresh h hRow hOpen) hThrows
  cases hStatus : row.status with
  | pending => exact .inl (hStatus ▸ hOpen (by rw [hStatus]; rfl))
  | expired => exact .inl (hStatus ▸ hOpen (by rw [hStatus]; rfl))
  | completed => exact .inr (completed_recorded hFresh h id row hRow hStatus)
  | failed => exact absurd hSold (hNotSold hStatus)

/-- The payer has paid in full, after all. -/
def paidAfterAll : VerifiedPayment :=
  ⟨none, some "success", some "qr", some (some 900), none, none, none, none, none, none, none, none,
    none, none⟩

/-- A checkout of the link; a `reconcile` finds the sale abandoned; the payer pays all the same, and a
webhook settles the sale; a later `reconcile`. -/
def paidAfterFailure : List (Move Request Outcome) :=
  let o := answered "qr"
  [.enter (.start (.link 0)), .run 0 o, .run 0 o, .run 0 o, .run 0 o, .run 0 o,
    .enter (.reconcile "qr"), .run 1 o, .run 1 o, .run 1 o, .run 1 o, .run 1 o, .run 1 o, .run 1 o,
    .enter (.complete "qr" .paystack paidAfterAll), .run 2 o, .run 2 o,
    .enter (.reconcile "qr"), .run 3 o]

theorem paidAfterFailure_unrecorded : Fresh shop ∧
    ∃ c, program.Reaches anyStep (Program.idle shop) c ∧ (∃ row, c.store.checkout 0 = some row ∧
        row.status = .failed ∧ c.store.Sold row.reference) ∧
      c.calls.length = 4 ∧ c.store.payments = [] ∧ c.store.applied = [] ∧
      c.store.exceptions = [] := by
  have hRuns : (program.schedule paidAfterFailure (Program.idle shop)).any (fun c => decide (
      (c.store.checkout 0).any (fun row => decide (row.status = .failed ∧ row.reference = "qr")) ∧
      (c.store.sales "qr").any (fun sale => decide (sale.status = .completed)) ∧
      c.calls.length = 4 ∧ c.store.payments = [] ∧ c.store.applied = [] ∧
      c.store.exceptions = [])) = true := by
    decide +kernel
  obtain ⟨c, hRun, hEnd⟩ := Program.reaches_of_any hRuns
  obtain ⟨hFailed, hCompleted, hRest⟩ := of_decide_eq_true hEnd
  obtain ⟨row, hRow, hFailed⟩ := (Option.any_eq_true _ _).mp hFailed
  obtain ⟨sale, hSale, hDone⟩ := (Option.any_eq_true _ _).mp hCompleted
  obtain ⟨hStatus, hReference⟩ := of_decide_eq_true hFailed
  refine ⟨shop_fresh, c, hRun, ⟨row, hRow, hStatus, ?_⟩, hRest⟩
  rw [hReference]
  exact ⟨sale, hSale, of_decide_eq_true hDone⟩

/-- The hold of a checkout expires before its sale is settled. -/
def settledAfterExpiry : List (Move Request Outcome) :=
  let o := answered "qr"
  let late : Outcome := { answered "qr" with
    now := HOLD + 11
    verified := ⟨none, some "ongoing", none, none, none, none, none, none, none, none, none, none,
      none, none⟩ }
  [.enter (.start (.link 0)), .run 0 o, .run 0 o, .run 0 o, .run 0 o, .run 0 o,
    .enter (.reconcile "qr"), .run 1 late, .run 1 late, .run 1 late, .run 1 late, .run 1 late,
    .run 1 late, .enter (.complete "qr" .paystack paidAfterAll), .run 2 o, .run 2 o]

theorem settledAfterExpiry_recorded :
    ∃ c row, program.Reaches FailureFinal (Program.idle shop) c ∧
      c.store.checkout 0 = some row ∧ row.status = .expired ∧ c.store.Sold row.reference ∧
      ((row.status.isOpen = true ∧ ∀ o : Outcome, o.throws = false →
          ∃ s', program.Reaches FailureFinal c ⟨s', c.calls ++ [.done (.status .completed)]⟩ ∧
            s'.Recorded row.reference) ∨
        (∃ call ∈ c.calls, call.claims 0) ∨ c.store.Recorded row.reference) := by
  have hRuns : ((program.guarded FailureFinal).schedule settledAfterExpiry
      (Program.idle shop)).any (fun c => decide (
      (c.store.checkout 0).any (fun row => decide (row.status = .expired ∧ row.reference = "qr")) ∧
      (c.store.sales "qr").any (fun sale => decide (sale.status = .completed)))) = true := by
    decide +kernel
  obtain ⟨c, hReach, hEnd⟩ := Program.reaches_of_guarded_any hRuns
  obtain ⟨hExpired, hCompleted⟩ := of_decide_eq_true hEnd
  obtain ⟨row, hRow, hExpired⟩ := (Option.any_eq_true _ _).mp hExpired
  obtain ⟨sale, hSale, hDone⟩ := (Option.any_eq_true _ _).mp hCompleted
  obtain ⟨hStatus, hReference⟩ := of_decide_eq_true hExpired
  have hSold : c.store.Sold row.reference := by
    rw [hReference]
    exact ⟨sale, hSale, of_decide_eq_true hDone⟩
  exact ⟨c, row, hReach, hRow, hStatus, hSold,
    (credited_checkouts_recorded shop_fresh hReach hRow).2 hSold⟩

end Outcomes

end FarmBackend.Commerce
