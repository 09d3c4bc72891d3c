import FarmBackend.CheckoutOutcomes

/-!
# A `reconcile` of which one await fails (`business-ops/business-web-checkout.service.ts`)

A first `reconcile` of a checkout whose payment has completed, in which one await throws, with what
it wrote committed or not; then any later calls of it, one after the other.
-/

namespace FarmBackend.Commerce
open Fees Wallets QrPayments Interleaving

set_option autoImplicit false

/-- The awaits of a `reconcile` whose payment has completed; those from `verify` to `saleStatus` are
inside of `qr.verify`. -/
inductive Await where
  | reconcile
  | verify
  | poll
  | complete
  | settleSale
  | saleStatus
  | readTransaction
  | claim
  | recordWeb
  | settle
  | recordException
  deriving DecidableEq

structure Failure where
  await : Await
  committed : Bool
  deriving DecidableEq

/-- The use of the link that the checkout took when it was started is the one it is settled with. -/
def Checkout.keepsUse (row : Checkout) : Bool :=
  row.target.isLink && row.reserved && row.status != .expired

/-- `settle` awaits nothing where the use is kept. -/
def Call.await : Call → Option Await
  | .reconcile _ => some .reconcile
  | .verify _ => some .verify
  | .poll _ _ => some .poll
  | .complete (some _) _ _ _ => some .complete
  | .settleSale (some _) _ _ _ => some .settleSale
  | .saleStatus _ => some .saleStatus
  | .readTransaction _ => some .readTransaction
  | .claim _ _ => some .claim
  | .recordWeb _ _ => some .recordWeb
  | .settle c _ => if c.row.keepsUse then none else some .settle
  | .recordException _ _ => some .recordException
  | _ => none

/-- The failure that the await of the call has, if any. -/
def breaks (failure : Option Failure) (call : Call) : Option Failure :=
  failure.filter fun f => call.await == some f.await

section Calls
variable (o : Outcome) (failure : Option Failure)

def await : Store × Call → Store × Call
  | (s, .done answer) => (s, .done answer)
  | (s, call) =>
    match breaks failure call with
    | none => run o s call
    | some f => (if f.committed then (run o s call).1 else s, onThrow call)

def awaits : ℕ → Store × Call → Store × Call
  | 0, p => p
  | n + 1, p => awaits n (await o failure p)

/-- What a call leaves. It has eleven awaits at most. -/
def reconcileOnce (r : Reference) (s : Store) : Store := (awaits o failure 11 (s, .reconcile r)).1

end Calls

/-- Calls of which nothing fails. -/
def reconcileAll (later : List Outcome) (r : Reference) (s : Store) : Store :=
  later.foldl (fun s o => reconcileOnce o none r s) s

/-- The provider's payment has completed: the sale has, or `verify` completes it. -/
def Completes (o : Outcome) (s : Store) (r : Reference) : Prop :=
  s.Sold r ∨ ∃ sale provider p q, s.sales r = some sale ∧ sale.pollProvider = some provider ∧
    verdict provider o.verified = .complete ∧
    settlementOf r provider o.verified (some sale) = some p ∧
    completeTx o.rule p (s.atSale r) = some (q, true)

/-- An open checkout of which nothing is recorded yet. References of checkouts are unique. -/
structure Ready (id : CheckoutId) (row : Checkout) (s : Store) : Prop where
  checkout : s.checkout id = some row
  unique : ∀ other row', s.checkout other = some row' → row'.reference = row.reference → other = id
  isOpen : row.status.isOpen = true
  onSale : s.OnSale row.reference
  unpaid : ¬s.Paid row.reference
  unplaced : ¬s.Placed row.reference

/-- The payment is recorded exactly once; and the use of the link is the one taken at the start, or
the payment was applied to its target, or there is an exception for it. -/
def Store.RecordedOnce (s : Store) (row : Checkout) : Prop :=
  (s.payments.map Payment.reference).count row.reference = 1 ∧
    (row.keepsUse = true ∨ s.Placed row.reference)

def Store.Completed (s : Store) (id : CheckoutId) : Prop :=
  ∃ row, s.checkout id = some row ∧ row.status = .completed

/-- A completed checkout is recorded, and a later call leaves no other. -/
def Recovers (id : CheckoutId) (row : Checkout) (later : List Outcome) (s : Store) : Prop :=
  s.Completed id ∨ later ≠ [] → s.RecordedOnce row

/-- The failure leaves what a later call can make good, or nothing to make good. -/
def Harmless (o : Outcome) (id : CheckoutId) (row : Checkout) (s : Store) (f : Failure) : Prop :=
  match f.await with
  | .claim => f.committed = false
  | .recordWeb => f.committed = true ∧ row.keepsUse = true
  | .settle => row.keepsUse = true ∨
      f.committed = true ∧ (s.settleTarget id row o.now).isSome = true
  | .recordException => f.committed = true ∨ (s.settleTarget id row o.now).isSome = true
  | _ => True

/-! ### What is left untouched -/

/-- The same rows, but for the sale, which may have been completed. -/
structure Untouched (r : Reference) (s s' : Store) : Prop where
  links : s'.links = s.links
  invoices : s'.invoices = s.invoices
  checkouts : s'.checkouts = s.checkouts
  payments : s'.payments = s.payments
  exceptions : s'.exceptions = s.exceptions
  applied : s'.applied = s.applied
  onSale : s.OnSale r → s'.OnSale r
  completes : ∀ o, Completes o s r → Completes o s' r

section Rows
variable {r : Reference} {s s' s'' : Store} {id : CheckoutId} {row : Checkout} {now : Time}

theorem Untouched.refl (r : Reference) (s : Store) : Untouched r s s :=
  ⟨rfl, rfl, rfl, rfl, rfl, rfl, fun h => h, fun _ h => h⟩

theorem Untouched.trans (h : Untouched r s s') (h' : Untouched r s' s'') : Untouched r s s'' :=
  ⟨h'.links.trans h.links, h'.invoices.trans h.invoices, h'.checkouts.trans h.checkouts,
    h'.payments.trans h.payments, h'.exceptions.trans h.exceptions, h'.applied.trans h.applied,
    fun hSale => h'.onSale (h.onSale hSale), fun o hCompletes =>
      h'.completes o (h.completes o hCompletes)⟩

theorem Ready.untouched (h : Ready id row s) (hSame : Untouched row.reference s s') :
    Ready id row s' := by
  have hCheckout := checkout_congr hSame.checkouts
  refine ⟨?_, ?_, h.isOpen, hSame.onSale h.onSale, ?_, ?_⟩
  · rw [hCheckout, h.checkout]
  · intro other row' hRow
    exact h.unique other row' (hCheckout other ▸ hRow)
  · rw [Store.Paid, hSame.payments]
    exact h.unpaid
  · rw [Store.Placed, hSame.applied, hSame.exceptions]
    exact h.unplaced

/-- The settlement of the sale. -/
theorem untouched_putSale {sale : Sale} {q : QrPayments.Store} (hSale : s.sales r = some sale)
    (hPublic : sale.isPublicQrSale = true → (q.sale.any Sale.isPublicQrSale) = true)
    (hDone : q.sale.any (fun sale => sale.status == .completed) = true) :
    Untouched r s (s.putSale r q) ∧ (s.putSale r q).Sold r := by
  obtain ⟨sale', hSale', hStatus⟩ := (Option.any_eq_true _ _).mp hDone
  have hAt : (s.putSale r q).sales r = some sale' := by
    simp only [Store.putSale, Function.update_self, hSale']
  have hSold : (s.putSale r q).Sold r := ⟨sale', hAt, beq_iff_eq.mp hStatus⟩
  refine ⟨⟨rfl, rfl, rfl, rfl, rfl, rfl, ?_, fun _ _ => .inl hSold⟩, hSold⟩
  rintro ⟨old, hOld, hOldPublic⟩
  cases hSale.symm.trans hOld
  have hNew := hPublic hOldPublic
  rw [hSale', Option.any_some] at hNew
  exact ⟨sale', hAt, hNew⟩

theorem isSome_settleTarget (hLinks : s'.links = s.links) (hInvoices : s'.invoices = s.invoices) :
    (s'.settleTarget id row now).isSome = (s.settleTarget id row now).isSome := by
  unfold Store.settleTarget
  split
  · split
    · rfl
    · simp only [Store.updateLink, hLinks]
      split
      · rfl
      · split <;> rfl
  · simp only [Store.updateInvoice, hInvoices]
    split
    · rfl
    · split <;> rfl

theorem settleTarget_of_keepsUse (hKeeps : row.keepsUse = true) :
    s.settleTarget id row now = some s := by
  unfold Checkout.keepsUse at hKeeps
  unfold Store.settleTarget
  cases hTarget : row.target with
  | link link =>
    simp only [hTarget, Target.isLink, Bool.true_and, Bool.and_eq_true, bne_iff_ne, ne_eq] at hKeeps
    simp only [hKeeps.1, hKeeps.2, ne_eq, not_false_eq_true, and_self, if_true]
  | invoice invoice => simp [hTarget, Target.isLink] at hKeeps

/-- What a settlement leaves alone. -/
theorem rest_settleTarget (h : s.settleTarget id row now = some s') :
    s'.payments = s.payments ∧ s'.checkouts = s.checkouts := by
  unfold Store.settleTarget at h
  split at h
  · split at h
    · cases h
      exact ⟨rfl, rfl⟩
    · obtain ⟨_, _, _, rfl⟩ := updateLink_eq_some h
      exact ⟨rfl, rfl⟩
  · obtain ⟨_, _, _, rfl⟩ := updateInvoice_eq_some h
    exact ⟨rfl, rfl⟩

end Rows

/-! ### One call -/

section Once
variable {o : Outcome} {failure : Option Failure} {s s' : Store} {call next : Call} {n : ℕ}
  {id : CheckoutId} {row : Checkout} {amount : ℤ}

/-- From `n` awaits on nothing changes any more. -/
def Ends (o : Outcome) (failure : Option Failure) (p : Store × Call) (s' : Store) (n : ℕ) : Prop :=
  ∀ m, n ≤ m → (awaits o failure m p).1 = s'

theorem ends_done (s : Store) (answer : Answer) : Ends o failure (s, .done answer) s 0 := by
  intro m _
  induction m with
  | zero => rfl
  | succ m ih => exact ih (Nat.zero_le m)

theorem ends_await {p : Store × Call} (h : Ends o failure (await o failure p) s' n) :
    Ends o failure p s' (n + 1) := by
  intro m hLe
  obtain ⟨k, rfl⟩ : ∃ k, m = k + 1 := ⟨m - 1, by omega⟩
  exact h k (by omega)

theorem await_answered (hDone : ∀ answer, call ≠ .done answer) (hBreak : breaks failure call = none) :
    await o failure (s, call) = run o s call := by
  cases call with
  | done answer => exact absurd rfl (hDone answer)
  | _ => simp only [await, hBreak]

theorem await_broken {f : Failure} (hDone : ∀ answer, call ≠ .done answer)
    (hBreak : breaks failure call = some f) :
    await o failure (s, call) =
      (if f.committed = true then (run o s call).1 else s, onThrow call) := by
  cases call with
  | done answer => exact absurd rfl (hDone answer)
  | _ => simp only [await, hBreak]

theorem breaks_eq_some {f : Failure} (h : breaks failure call = some f) :
    failure = some f ∧ call.await = some f.await := by
  obtain ⟨hFailure, hAwait⟩ := Option.filter_eq_some_iff.mp h
  exact ⟨hFailure, beq_iff_eq.mp hAwait⟩

theorem breaks_eq_none {f : Failure} (h : breaks failure call = none) (hFailure : failure = some f) :
    call.await ≠ some f.await := by
  rw [hFailure, breaks, Option.filter_eq_none_iff] at h
  intro hAwait
  exact h f rfl (beq_iff_eq.mpr hAwait)

/-- A completed checkout, and whether it has been recorded is settled. -/
structure Closed (id : CheckoutId) (row : Checkout) (s : Store) : Prop where
  checkout : ∃ row', s.checkout id = some row' ∧ row'.status = .completed ∧
    row'.reference = row.reference
  unique : ∀ other row', s.checkout other = some row' → row'.reference = row.reference → other = id

theorem Closed.of_checkouts (h : Closed id row s) (hSame : s'.checkouts = s.checkouts) :
    Closed id row s' := by
  have hCheckout := checkout_congr hSame
  refine ⟨?_, ?_⟩
  · rw [hCheckout]
    exact h.checkout
  · intro other row' hRow
    exact h.unique other row' (hCheckout other ▸ hRow)

/-- What a call leaves from here on is a closed checkout, recorded exactly if `good`. -/
def Leaves (o : Outcome) (failure : Option Failure) (id : CheckoutId) (row : Checkout)
    (p : Store × Call) (n : ℕ) (good : Prop) : Prop :=
  ∃ s', Ends o failure p s' n ∧ Closed id row s' ∧ (s'.RecordedOnce row ↔ good)

theorem leaves_await {p : Store × Call} {good : Prop}
    (h : Leaves o failure id row (await o failure p) n good) :
    Leaves o failure id row p (n + 1) good := by
  obtain ⟨s', hEnds, hRest⟩ := h
  exact ⟨s', ends_await hEnds, hRest⟩

theorem leaves_done {good : Prop} {answer : Answer} (hClosed : Closed id row s)
    (hGood : s.RecordedOnce row ↔ good) :
    Leaves o failure id row (s, .done answer) n good :=
  ⟨s, fun m _ => ends_done s answer m (Nat.zero_le m), hClosed, hGood⟩

theorem recordedOnce_iff (hOnce : (s.payments.map Payment.reference).count row.reference = 1)
    (hKeeps : row.keepsUse = false) : s.RecordedOnce row ↔ s.Placed row.reference := by
  simp [Store.RecordedOnce, hOnce, hKeeps]

/-- The failure is not at one of the awaits that are behind. -/
def NotAt (failure : Option Failure) (behind : List Await) : Prop :=
  ∀ f, failure = some f → f.await ∉ behind

/-- The failure, if there is one, is harmless. -/
def AllHarmless (o : Outcome) (id : CheckoutId) (row : Checkout) (s : Store)
    (failure : Option Failure) : Prop := ∀ f, failure = some f → Harmless o id row s f

theorem leaves_recordException (hClosed : Closed id row s)
    (hOnce : (s.payments.map Payment.reference).count row.reference = 1)
    (hKeeps : row.keepsUse = false) (hUnplaced : ¬s.Placed row.reference)
    (hRefused : s.settleTarget id row o.now = none)
    (hAhead : NotAt failure [.claim, .recordWeb, .settle]) :
    Leaves o failure id row (s, .recordException ⟨id, row⟩ amount) 1
      (AllHarmless o id row s failure) := by
  have hFree : row.reference ∉ s.exceptions.map Payment.reference := by
    intro hMem
    obtain ⟨e, hIn, hReference⟩ := List.mem_map.mp hMem
    exact hUnplaced (.inr ⟨e, hIn, hReference⟩)
  let recorded : Store := { s with
    exceptions := s.exceptions ++ [⟨row.target, row.reference, amount, .web⟩] }
  have hRun : run o s (.recordException ⟨id, row⟩ amount) =
      (recorded, .done (.status .completed)) := by
    simp only [run, Store.recordException, if_neg hFree, counted, recorded]
  have hPlaced : recorded.RecordedOnce row :=
    ⟨hOnce, .inr (.inr ⟨_, List.mem_append_right _ (List.mem_singleton.mpr rfl), rfl⟩)⟩
  have hClosed' : Closed id row recorded := hClosed.of_checkouts rfl
  apply leaves_await
  cases hBreak : breaks failure (.recordException ⟨id, row⟩ amount) with
  | none =>
    rw [await_answered (fun _ => Call.noConfusion) hBreak, hRun]
    refine leaves_done hClosed' ⟨fun _ f hFailure => ?_, fun _ => hPlaced⟩
    have hNot := breaks_eq_none hBreak hFailure
    have hBehind := hAhead f hFailure
    unfold Harmless
    cases hAwait : f.await <;> simp_all [Call.await]
  | some f =>
    obtain ⟨rfl, hAwait⟩ := breaks_eq_some hBreak
    have hAt : f.await = .recordException := (Option.some.inj hAwait).symm
    rw [await_broken (fun _ => Call.noConfusion) hBreak, hRun]
    have hHarmless : AllHarmless o id row s (some f) ↔ f.committed = true := by
      simp [AllHarmless, Harmless, hAt, hRefused]
    cases hCommitted : f.committed with
    | true =>
      rw [if_pos rfl]
      exact leaves_done hClosed' ⟨fun _ => hHarmless.mpr hCommitted, fun _ => hPlaced⟩
    | false =>
      rw [if_neg Bool.false_ne_true]
      refine leaves_done hClosed ?_
      rw [hHarmless, recordedOnce_iff hOnce hKeeps, hCommitted]
      exact ⟨fun hBoth => absurd hBoth hUnplaced, fun hBoth => absurd hBoth Bool.false_ne_true⟩

theorem leaves_settle (hClosed : Closed id row s)
    (hOnce : (s.payments.map Payment.reference).count row.reference = 1)
    (hUnplaced : ¬s.Placed row.reference) (hAhead : NotAt failure [.claim, .recordWeb]) :
    Leaves o failure id row (s, .settle ⟨id, row⟩ amount) 2 (AllHarmless o id row s failure) := by
  have hSettled : ∀ s', s.settle id row o.now = some s' → Closed id row s' ∧ s'.RecordedOnce row := by
    intro s' hSettle
    obtain ⟨s₁, hTarget, rfl⟩ := Option.map_eq_some_iff.mp hSettle
    obtain ⟨hPayments, hCheckouts⟩ := rest_settleTarget hTarget
    have hOnce' : (s₁.payments.map Payment.reference).count row.reference = 1 := hPayments ▸ hOnce
    exact ⟨hClosed.of_checkouts hCheckouts, hOnce',
      .inr (.inl ⟨_, List.mem_append_right _ (List.mem_singleton.mpr rfl), rfl⟩)⟩
  have hIsSome : (s.settle id row o.now).isSome = (s.settleTarget id row o.now).isSome :=
    Option.isSome_map
  apply leaves_await
  cases hBreak : breaks failure (.settle ⟨id, row⟩ amount) with
  | none =>
    rw [await_answered (fun _ => Call.noConfusion) hBreak]
    cases hSettle : s.settle id row o.now with
    | some s' =>
      obtain ⟨hClosed', hRecorded⟩ := hSettled s' hSettle
      simp only [run, hSettle, counted]
      refine leaves_done hClosed' ⟨fun _ f hFailure => ?_, fun _ => hRecorded⟩
      have hNot := breaks_eq_none hBreak hFailure
      have hBehind := hAhead f hFailure
      rw [hSettle, Option.isSome_some] at hIsSome
      unfold Harmless
      cases hAwait : f.await <;> simp_all [Call.await]
    | none =>
      rw [hSettle, Option.isSome_none, eq_comm, Option.isSome_eq_false_iff,
        Option.isNone_iff_eq_none] at hIsSome
      have hKeeps : row.keepsUse = false := by
        by_contra hKept
        rw [settleTarget_of_keepsUse (Bool.eq_true_of_not_eq_false hKept)] at hIsSome
        cases hIsSome
      simp only [run, hSettle, counted]
      apply leaves_recordException hClosed hOnce hKeeps hUnplaced hIsSome
      intro f hFailure hMem
      have hNot := breaks_eq_none hBreak hFailure
      have hBehind := hAhead f hFailure
      simp only [List.mem_cons, List.not_mem_nil, or_false] at hMem hBehind
      rcases hMem with hAt | hAt | hAt
      · exact hBehind (.inl hAt)
      · exact hBehind (.inr hAt)
      · simp [Call.await, hKeeps, hAt] at hNot
  | some f =>
    obtain ⟨rfl, hAwait⟩ := breaks_eq_some hBreak
    rw [await_broken (fun _ => Call.noConfusion) hBreak]
    simp only [Call.await] at hAwait
    split at hAwait
    · cases hAwait
    · rename_i hKept
      have hKeeps : row.keepsUse = false := Bool.eq_false_of_not_eq_true hKept
      have hAt : f.await = .settle := (Option.some.inj hAwait).symm
      have hHarmless : AllHarmless o id row s (some f) ↔
          f.committed = true ∧ (s.settleTarget id row o.now).isSome = true := by
        simp [AllHarmless, Harmless, hAt, hKeeps]
      have hUnrecorded : ¬s.RecordedOnce row := by
        rw [recordedOnce_iff hOnce hKeeps]
        exact hUnplaced
      rw [hHarmless, ← hIsSome]
      cases hCommitted : f.committed with
      | false =>
        rw [if_neg Bool.false_ne_true]
        exact leaves_done hClosed ⟨fun hBoth => absurd hBoth hUnrecorded,
          fun hBoth => absurd hBoth.1 Bool.false_ne_true⟩
      | true =>
        rw [if_pos rfl]
        cases hSettle : s.settle id row o.now with
        | some s' =>
          obtain ⟨hClosed', hRecorded⟩ := hSettled s' hSettle
          have hRun : (run o s (.settle ⟨id, row⟩ amount)).1 = s' := by
            simp only [run, hSettle, counted]
          rw [hRun]
          exact leaves_done hClosed' ⟨fun _ => ⟨rfl, rfl⟩, fun _ => hRecorded⟩
        | none =>
          have hRun : (run o s (.settle ⟨id, row⟩ amount)).1 = s := by
            simp only [run, hSettle, counted]
          rw [hRun]
          exact leaves_done hClosed ⟨fun hBoth => absurd hBoth hUnrecorded,
            fun hBoth => absurd hBoth.2 Bool.false_ne_true⟩

theorem leaves_recordWeb (hClosed : Closed id row s) (hUnpaid : ¬s.Paid row.reference)
    (hUnplaced : ¬s.Placed row.reference) (hAhead : NotAt failure [.claim]) :
    Leaves o failure id row (s, .recordWeb ⟨id, row⟩ amount) 3
      (AllHarmless o id row s failure) := by
  have hFree : row.reference ∉ s.payments.map Payment.reference := by
    intro hMem
    obtain ⟨p, hIn, hReference⟩ := List.mem_map.mp hMem
    exact hUnpaid ⟨p, hIn, hReference⟩
  have hNone : (s.payments.map Payment.reference).count row.reference = 0 :=
    List.count_eq_zero_of_not_mem hFree
  let paid : Store := { s with
    payments := s.payments ++ [⟨row.target, row.reference, amount, .web⟩] }
  have hRun : run o s (.recordWeb ⟨id, row⟩ amount) = (paid, .settle ⟨id, row⟩ amount) := by
    simp only [run, Store.recordPayment, if_neg hFree, counted, paid]
  have hOnce : (paid.payments.map Payment.reference).count row.reference = 1 := by
    simp only [paid, List.map_append, List.count_append, hNone, List.map_singleton,
      List.count_singleton_self, Nat.zero_add]
  have hClosed' : Closed id row paid := hClosed.of_checkouts rfl
  apply leaves_await
  cases hBreak : breaks failure (.recordWeb ⟨id, row⟩ amount) with
  | none =>
    rw [await_answered (fun _ => Call.noConfusion) hBreak, hRun]
    have hHarmless : AllHarmless o id row paid failure ↔ AllHarmless o id row s failure := by
      have hSame := @isSome_settleTarget s paid id row o.now rfl rfl
      simp only [AllHarmless, Harmless, hSame]
    rw [← hHarmless]
    apply leaves_settle hClosed' hOnce hUnplaced
    intro f hFailure hMem
    have hNot := breaks_eq_none hBreak hFailure
    have hBehind := hAhead f hFailure
    simp only [List.mem_cons, List.not_mem_nil, or_false] at hMem hBehind
    rcases hMem with hAt | hAt
    · exact hBehind hAt
    · simp [Call.await, hAt] at hNot
  | some f =>
    obtain ⟨rfl, hAwait⟩ := breaks_eq_some hBreak
    have hAt : f.await = .recordWeb := (Option.some.inj hAwait).symm
    rw [await_broken (fun _ => Call.noConfusion) hBreak, hRun]
    have hHarmless : AllHarmless o id row s (some f) ↔
        f.committed = true ∧ row.keepsUse = true := by
      simp [AllHarmless, Harmless, hAt]
    rw [hHarmless]
    cases hCommitted : f.committed with
    | false =>
      rw [if_neg Bool.false_ne_true]
      refine leaves_done hClosed ⟨fun hRecorded => ?_, fun hBoth => absurd hBoth.1 Bool.false_ne_true⟩
      exact absurd (hNone.symm.trans hRecorded.1) Nat.zero_ne_one
    | true =>
      rw [if_pos rfl]
      refine leaves_done hClosed' ⟨fun hRecorded => ⟨rfl, ?_⟩, fun hBoth => ⟨hOnce, .inl hBoth.2⟩⟩
      exact hRecorded.2.resolve_right hUnplaced

/-- The call stops where a later one can begin again, or it goes on to close the checkout. -/
def Comes (o : Outcome) (failure : Option Failure) (id : CheckoutId) (row : Checkout) (start : Store)
    (p : Store × Call) (n : ℕ) : Prop :=
  (∃ s', Ends o failure p s' n ∧ Untouched row.reference start s' ∧
    ∃ f, failure = some f ∧ Harmless o id row start f) ∨
  Leaves o failure id row p n (AllHarmless o id row start failure)

theorem comes_mono {start : Store} {p : Store × Call} {m : ℕ} (hLe : n ≤ m)
    (h : Comes o failure id row start p n) : Comes o failure id row start p m := by
  rcases h with ⟨s', hEnds, hRest⟩ | ⟨s', hEnds, hRest⟩
  · exact .inl ⟨s', fun k hK => hEnds k (hLe.trans hK), hRest⟩
  · exact .inr ⟨s', fun k hK => hEnds k (hLe.trans hK), hRest⟩

theorem comes_await {start : Store} {p : Store × Call}
    (h : Comes o failure id row start (await o failure p) n) :
    Comes o failure id row start p (n + 1) := by
  rcases h with ⟨s', hEnds, hRest⟩ | hLeaves
  · exact .inl ⟨s', ends_await hEnds, hRest⟩
  · exact .inr (leaves_await hLeaves)

/-- The awaits before the claim. -/
def Await.isEarly : Await → Bool
  | .claim | .recordWeb | .settle | .recordException => false
  | _ => true

theorem harmless_of_isEarly {f : Failure} (h : f.await.isEarly = true) : Harmless o id row s f := by
  unfold Harmless
  cases hAwait : f.await <;> simp_all [Await.isEarly]

theorem comes_early {start s₁ s₂ : Store} {a : Await} {answer : Answer}
    (hAwait : call.await = some a) (hEarly : a.isEarly = true) (hThrow : onThrow call = .done answer)
    (hRun : run o s₁ call = (s₂, next)) (h₁ : Untouched row.reference start s₁)
    (h₂ : Untouched row.reference start s₂)
    (hNext : Comes o failure id row start (s₂, next) n) :
    Comes o failure id row start (s₁, call) (n + 1) := by
  have hDone : ∀ answer, call ≠ .done answer := by
    rintro answer rfl
    cases hAwait
  apply comes_await
  cases hBreak : breaks failure call with
  | none =>
    rw [await_answered hDone hBreak, hRun]
    exact hNext
  | some f =>
    obtain ⟨rfl, hAt⟩ := breaks_eq_some hBreak
    obtain rfl : a = f.await := Option.some.inj (hAwait.symm.trans hAt)
    rw [await_broken hDone hBreak, hRun, hThrow]
    refine .inl ⟨_, fun m _ => ends_done _ answer m (Nat.zero_le m), ?_, f, rfl,
      harmless_of_isEarly hEarly⟩
    split
    · exact h₂
    · exact h₁

theorem closed_setCheckout (h : Ready id row s) :
    Closed id row (s.setCheckout id { row with status := .completed }) := by
  refine ⟨⟨_, checkout_setCheckout_self h.checkout, rfl, rfl⟩, ?_⟩
  intro other row' hRow hReference
  rcases checkout_setCheckout_cases hRow with ⟨hSame, _⟩ | ⟨_, hOld⟩
  · exact hSame
  · exact h.unique other row' hOld hReference

theorem comes_claim {start : Store} (hReady : Ready id row start)
    (hSame : Untouched row.reference start s) :
    Comes o failure id row start (s, .claim ⟨id, row⟩ amount) 4 := by
  have hHere := hReady.untouched hSame
  let claimed := s.setCheckout id { row with status := .completed }
  have hRun : run o s (.claim ⟨id, row⟩ amount) = (claimed, .recordWeb ⟨id, row⟩ amount) := by
    simp only [run, Store.moveCheckout, hHere.checkout, if_true, counted, claimed]
  have hClosed : Closed id row claimed := closed_setCheckout hHere
  apply comes_await
  cases hBreak : breaks failure (.claim ⟨id, row⟩ amount) with
  | none =>
    rw [await_answered (fun _ => Call.noConfusion) hBreak, hRun]
    have hHarmless : AllHarmless o id row claimed failure ↔ AllHarmless o id row start failure := by
      have hSettle := @isSome_settleTarget start claimed id row o.now hSame.links hSame.invoices
      simp only [AllHarmless, Harmless, hSettle]
    rw [Comes, ← hHarmless]
    refine .inr (leaves_recordWeb hClosed hHere.unpaid hHere.unplaced ?_)
    intro f hFailure hMem
    have hNot := breaks_eq_none hBreak hFailure
    simp [Call.await, List.mem_singleton.mp hMem] at hNot
  | some f =>
    obtain ⟨rfl, hAwait⟩ := breaks_eq_some hBreak
    have hAt : f.await = .claim := (Option.some.inj hAwait).symm
    rw [await_broken (fun _ => Call.noConfusion) hBreak, hRun]
    cases hCommitted : f.committed with
    | false =>
      rw [if_neg Bool.false_ne_true]
      refine .inl ⟨s, fun m _ => ends_done s _ m (Nat.zero_le m), hSame, f, rfl, ?_⟩
      simp [Harmless, hAt, hCommitted]
    | true =>
      rw [if_pos rfl]
      refine .inr (leaves_done hClosed ?_)
      have hHarmful : ¬AllHarmless o id row start (some f) := by
        simp [AllHarmless, Harmless, hAt, hCommitted]
      have hUnrecorded : ¬claimed.RecordedOnce row := by
        rintro ⟨hOnce, -⟩
        have hPaid : 0 < (s.payments.map Payment.reference).count row.reference :=
          Nat.lt_of_lt_of_eq Nat.zero_lt_one hOnce.symm
        obtain ⟨p, hMem, hReference⟩ := List.mem_map.mp (List.count_pos_iff.mp hPaid)
        exact hHere.unpaid ⟨p, hMem, hReference⟩
      exact ⟨fun h => absurd h hUnrecorded, fun h => absurd h hHarmful⟩

/-- Once the sale has completed, `verify` says so. -/
theorem comes_saleStatus {start : Store} (hReady : Ready id row start)
    (hSame : Untouched row.reference start s) (hSold : s.Sold row.reference) :
    Comes o failure id row start (s, .saleStatus ⟨id, row⟩) 6 := by
  obtain ⟨sale, hSale, hStatus⟩ := hSold
  have hRun : run o s (.saleStatus ⟨id, row⟩) = (s, .readTransaction ⟨id, row⟩) := by
    simp [run, afterVerify, hSale, hStatus, saleStatus]
  exact comes_early rfl rfl rfl hRun hSame hSame
    (comes_early rfl rfl rfl rfl hSame hSame (comes_claim hReady hSame))

theorem comes_verify (hReady : Ready id row s) (hCompletes : Completes o s row.reference) :
    Comes o failure id row s (s, .verify ⟨id, row⟩) 10 := by
  have hSame := Untouched.refl row.reference s
  obtain ⟨sale, hSale, hPublic⟩ := hReady.onSale
  have hFound : (some sale).filter Sale.isPublicQrSale = some sale := by
    simp [Option.filter, hPublic]
  rcases hCompletes with ⟨sold, hSold, hStatus⟩ | ⟨sale', provider, p, q, hSale', hPoll, hVerdict,
    hSettlement, hTx⟩
  · cases hSale.symm.trans hSold
    have hRun : run o s (.verify ⟨id, row⟩) = (s, .saleStatus ⟨id, row⟩) := by
      simp only [run, hSale, hFound, pollProvider_of_completed hStatus]
    have hRest := @comes_saleStatus o failure s id row s hReady hSame ⟨sale, hSale, hStatus⟩
    exact comes_mono (by omega) (comes_early rfl rfl rfl hRun hSame hSame hRest)
  · cases hSale.symm.trans hSale'
    have hSettled : q.sale = some (sale.settled o.rule p) := by
      rcases completeTx_eq_some hTx with ⟨hNot, -⟩ | ⟨old, -, hOld, -, -, hAfter, -⟩
      · cases hNot
      · cases hSale.symm.trans hOld
        exact hAfter
    obtain ⟨hSame', hSold⟩ := @untouched_putSale row.reference s sale q hSale
      (fun hIs => by rw [hSettled]; exact hIs) (by rw [hSettled]; rfl)
    have hVerify : run o s (.verify ⟨id, row⟩) = (s, .poll ⟨id, row⟩ provider) := by
      simp only [run, hSale, hFound, hPoll]
    have hAnswer : run o s (.poll ⟨id, row⟩ provider) =
        (s, .complete (some ⟨id, row⟩) row.reference provider o.verified) := by
      simp only [run, afterPoll, hVerdict]
    have hComplete : run o s (.complete (some ⟨id, row⟩) row.reference provider o.verified) =
        (s, .settleSale (some ⟨id, row⟩) row.reference o.rule p) := by
      simp only [run, hSale, hSettlement]
    have hSettle : run o s (.settleSale (some ⟨id, row⟩) row.reference o.rule p) =
        (s.putSale row.reference q, .saleStatus ⟨id, row⟩) := by
      simp only [run, hTx, afterSale]
    have hRest := @comes_saleStatus o failure _ id row s hReady hSame' hSold
    exact comes_early rfl rfl rfl hVerify hSame hSame <|
      comes_early rfl rfl rfl hAnswer hSame hSame <|
      comes_early rfl rfl rfl hComplete hSame hSame <|
      comes_early rfl rfl rfl hSettle hSame hSame' hRest

theorem comes_reconcile (hReady : Ready id row s) (hCompletes : Completes o s row.reference) :
    Comes o failure id row s (s, .reconcile row.reference) 11 := by
  have hStatus : row.status = .pending ∨ row.status = .expired := by
    have hOpen := hReady.isOpen
    cases hNow : row.status <;> simp_all [CheckoutStatus.isOpen]
  have hFind := findCheckout_of_unique hReady.checkout rfl hReady.unique
  have hRun : run o s (.reconcile row.reference) = (s, .verify ⟨id, row⟩) := by
    simp only [run, hFind, if_pos hStatus]
  exact comes_early rfl rfl rfl hRun (.refl _ s) (.refl _ s) (comes_verify hReady hCompletes)

/-- What a call leaves, with a failure or without. -/
theorem reconcileOnce_cases (hReady : Ready id row s) (hCompletes : Completes o s row.reference) :
    (Untouched row.reference s (reconcileOnce o failure row.reference s) ∧
      ∃ f, failure = some f ∧ Harmless o id row s f) ∨
    (Closed id row (reconcileOnce o failure row.reference s) ∧
      ((reconcileOnce o failure row.reference s).RecordedOnce row ↔
        AllHarmless o id row s failure)) := by
  rcases @comes_reconcile o failure s id row hReady hCompletes with
    ⟨s', hEnds, hSame, hHarmless⟩ | ⟨s', hEnds, hClosed, hGood⟩
  · obtain rfl : reconcileOnce o failure row.reference s = s' := hEnds 11 (Nat.le_refl _)
    exact .inl ⟨hSame, hHarmless⟩
  · obtain rfl : reconcileOnce o failure row.reference s = s' := hEnds 11 (Nat.le_refl _)
    exact .inr ⟨hClosed, hGood⟩

/-- A closed checkout is left as it is. -/
theorem reconcileOnce_closed (h : Closed id row s) : reconcileOnce o none row.reference s = s := by
  obtain ⟨⟨row', hRow, hStatus, hReference⟩, hUnique⟩ := h
  have hFind := findCheckout_of_unique hRow hReference hUnique
  have hRun : await o none (s, .reconcile row.reference) = (s, .done (.status .completed)) := by
    simp [await, breaks, run, hFind, hStatus]
  have hEnds : Ends o none (s, .reconcile row.reference) s 1 := by
    apply ends_await
    rw [hRun]
    exact ends_done s _
  exact hEnds 11 (by omega)

end Once

/-! ### The later calls -/

section Later
variable {o : Outcome} {s : Store} {id : CheckoutId} {row : Checkout} {later : List Outcome}

theorem reconcileAll_closed (h : Closed id row s) : reconcileAll later row.reference s = s := by
  induction later with
  | nil => rfl
  | cons o later ih =>
    rw [reconcileAll, List.foldl_cons, reconcileOnce_closed h]
    exact ih

/-- The first of the later calls records the payment. -/
theorem recovers_of_ready (hReady : Ready id row s)
    (hLater : ∀ o ∈ later, Completes o s row.reference) :
    Recovers id row later (reconcileAll later row.reference s) := by
  cases later with
  | nil =>
    rintro (⟨row', hRow, hStatus⟩ | hSome)
    · have hOpen := hReady.isOpen
      cases hReady.checkout.symm.trans hRow
      simp [hStatus, CheckoutStatus.isOpen] at hOpen
    · exact absurd rfl hSome
  | cons o later =>
    intro _
    rcases @reconcileOnce_cases o none s id row hReady (hLater o (by simp)) with
      ⟨-, f, hNone, -⟩ | ⟨hClosed, hGood⟩
    · cases hNone
    · rw [reconcileAll, List.foldl_cons]
      rw [← reconcileAll, reconcileAll_closed hClosed]
      apply hGood.mpr
      intro f hNone
      cases hNone

/-- After one failed await and any later calls, a completed checkout is recorded exactly once and
settled or set aside, and any later call has brought that about, exactly if the failure is not one
of those that leave the checkout completed with a record missing. -/
theorem reconcile_recovers_iff (hReady : Ready id row s)
    (hCompletes : Completes o s row.reference)
    (hLater : ∀ o ∈ later, Completes o s row.reference) (f : Failure) :
    Recovers id row later
        (reconcileAll later row.reference (reconcileOnce o (some f) row.reference s)) ↔
      Harmless o id row s f := by
  rcases @reconcileOnce_cases o (some f) s id row hReady hCompletes with
    ⟨hSame, f', hFailure, hHarmless⟩ | ⟨hClosed, hGood⟩
  · obtain rfl := Option.some.inj hFailure
    have hRecovers := recovers_of_ready (hReady.untouched hSame)
      fun o hMem => hSame.completes o (hLater o hMem)
    exact ⟨fun _ => hHarmless, fun _ => hRecovers⟩
  · have hHarmless : AllHarmless o id row s (some f) ↔ Harmless o id row s f := by
      simp [AllHarmless]
    rw [reconcileAll_closed hClosed, Recovers, hGood, hHarmless]
    have hCompleted : (reconcileOnce o (some f) row.reference s).Completed id := by
      obtain ⟨row', hRow, hStatus, -⟩ := hClosed.checkout
      exact ⟨row', hRow, hStatus⟩
    exact ⟨fun hRecovers => hRecovers (.inl hCompleted), fun hIs _ => hIs⟩

end Later

/-- The checkout of the sent invoice, held since its start. -/
def invoiceCheckout : Checkout := ⟨.invoice 0, "qr", 900, .pending, true, some (HOLD + 10)⟩

/-- The shop once the sale of the checkout has completed. -/
def soldShop : Store :=
  let sale := newSale 0 7 1 900 (answered "qr").metadata
  { shop with
    invoices := fun id => if id = 0 then
      some { sentInvoice with paymentHoldRef := some 0, paymentHoldUntil := some (HOLD + 10) }
      else none
    checkouts := [some invoiceCheckout]
    sales := fun r => if r = "qr" then
      some { sale with transaction := { sale.transaction with status := .completed } } else none
    references := ["qr"] }

theorem soldShop_ready : Ready 0 invoiceCheckout soldShop := by
  refine ⟨rfl, ?_, rfl, ⟨_, rfl, rfl⟩, ?_, ?_⟩
  · intro other row' hRow _
    cases other with
    | zero => rfl
    | succ other => cases hRow
  · rintro ⟨p, hMem, -⟩
    cases hMem
  · rintro (⟨a, hMem, -⟩ | ⟨e, hMem, -⟩)
    · cases hMem
    · cases hMem

theorem soldShop_completes (o : Outcome) : Completes o soldShop "qr" := .inl ⟨_, rfl, rfl⟩

/-- `business_payments.create` throws, or the update of the invoice does; a later call finds the
checkout completed. -/
theorem reconcile_drops_payment :
    Ready 0 invoiceCheckout soldShop ∧ Completes (answered "qr") soldShop "qr" ∧
      ((reconcileAll [answered "qr"] "qr"
        (reconcileOnce (answered "qr") (some ⟨.recordWeb, false⟩) "qr" soldShop)).checkout 0).map
          Checkout.status = some .completed ∧
      (reconcileAll [answered "qr"] "qr"
        (reconcileOnce (answered "qr") (some ⟨.recordWeb, false⟩) "qr" soldShop)).payments = [] ∧
      ((reconcileAll [answered "qr"] "qr"
        (reconcileOnce (answered "qr") (some ⟨.settle, false⟩) "qr" soldShop)).invoices 0).map
          Invoice.status = some .sent ∧
      (reconcileAll [answered "qr"] "qr"
        (reconcileOnce (answered "qr") (some ⟨.settle, false⟩) "qr" soldShop)).exceptions = [] :=
  ⟨soldShop_ready, soldShop_completes _, by decide +kernel, by decide +kernel, by decide +kernel,
    by decide +kernel⟩

/-- The claim throws and is rolled back; the later call records the payment. -/
theorem reconcile_recovers_claim :
    (reconcileAll [answered "qr"] "qr" (reconcileOnce (answered "qr") (some ⟨.claim, false⟩) "qr"
      soldShop)).RecordedOnce invoiceCheckout := by
  have hLater : ∀ o ∈ [answered "qr"], Completes o soldShop "qr" := fun o _ => soldShop_completes o
  have hRecovers := (reconcile_recovers_iff soldShop_ready (soldShop_completes (answered "qr"))
    hLater ⟨.claim, false⟩).mpr rfl
  exact hRecovers (.inr (List.cons_ne_nil _ _))

end FarmBackend.Commerce
