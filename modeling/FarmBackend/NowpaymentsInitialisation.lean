import FarmBackend.DepositSettlement
import FarmBackend.NowpaymentsDeposits
import FarmBackend.Ticket

/-!
# The initialisation of a crypto deposit, once its payment exists

`createPayment` returns once, or throws and the catch runs: never both. While the catch has not run,
the two rows live the life of a deposit reference, and a credited one is final.
-/

namespace FarmBackend.Nowpayments
open Wallets Interleaving
open Deposits (Reference)

set_option autoImplicit false

/-! ### The finaliser alone -/

/-- The calls of `finalizeSuccessfulDeposit` and of the failure transaction. -/
def finalizing : Deposits.Call → Bool
  | .failDeposit _ | .failReadTransaction _ _ | .failDepositTx _ _ _ | .nowpaymentsFailure
  | .nowpaymentsMetadata _ | .staleTransactions | .stalePendingDeposit | .deletePending _
  | .staleFailedDeposits | .deleteFailed _ => false
  | _ => true

theorem spares_of_finalizing {s : Deposits.Store} {call : Deposits.Call}
    (h : finalizing call = true) : Deposits.spares true s call = true := by
  cases call with
  | failDepositTx reason deposit transaction => cases h
  | deletePending id => cases h
  | _ => rfl

theorem finalizing_routeMerchantQr (deposit : Option Deposits.Deposit)
    (t : Deposits.DepositTransaction) :
    finalizing (Deposits.routeMerchantQr deposit t) = true := by
  unfold Deposits.routeMerchantQr
  dsimp only
  split
  · rfl
  · split
    · rfl
    · split <;> rfl

theorem finalizing_route (service : Deposits.Service) (deposit : Option Deposits.Deposit)
    (t : Deposits.DepositTransaction) :
    finalizing (Deposits.route service deposit t) = true := by
  unfold Deposits.route
  split
  · rfl
  · split
    · exact finalizing_routeMerchantQr deposit t
    · split
      · split <;> rfl
      · split
        · split <;> rfl
        · split
          · rfl
          · split <;> rfl
        · split <;> rfl
        · split <;> rfl

theorem finalizing_routeOrRebuild (service : Deposits.Service) (deposit : Option Deposits.Deposit)
    (t : Deposits.DepositTransaction) :
    finalizing (Deposits.routeOrRebuild service deposit t) = true := by
  unfold Deposits.routeOrRebuild
  split
  · rfl
  · exact finalizing_route _ _ _

theorem finalizing_step {o : Deposits.Outcome} {s s' : Deposits.Store} {call call' : Deposits.Call}
    (h : finalizing call = true) (hStep : Deposits.step o s call = some (s', call')) :
    finalizing call' = true := by
  cases call with
  | finalize service =>
    cases hStep
    rfl
  | readTransaction service deposit =>
    simp only [Deposits.step, Option.bind_eq_bind, Option.bind_eq_some_iff] at hStep
    obtain ⟨t, -, hStep⟩ := hStep
    cases service with
    | webhook =>
      cases hStep
      exact finalizing_routeOrRebuild _ _ _
    | deposit =>
      cases hStep
      rfl
  | verify deposit t =>
    simp only [Deposits.step] at hStep
    split at hStep <;> cases hStep
    · rfl
    · exact finalizing_routeOrRebuild _ _ _
  | rebuild service userId t =>
    simp only [Deposits.step] at hStep
    split at hStep
    · cases hStep
    · cases hStep
      exact finalizing_route _ _ _
  | finalizePendingDeposit service d t =>
    simp only [Deposits.step, Option.bind_eq_bind, Option.bind_eq_some_iff, Option.pure_def,
      Option.some.injEq, Prod.mk.injEq] at hStep
    obtain ⟨_, -, -, rfl⟩ := hStep
    rfl
  | creditPendingDeposit service d t =>
    simp only [Deposits.step] at hStep
    split at hStep
    · simp only [Option.bind_eq_bind, Option.bind_eq_some_iff, Option.pure_def,
        Option.some.injEq, Prod.mk.injEq] at hStep
      obtain ⟨_, -, -, rfl⟩ := hStep
      rfl
    · cases hStep
      rfl
  | completePendingTransaction t =>
    simp only [Deposits.step] at hStep
    split at hStep <;> cases hStep <;> rfl
  | receiverWallet userId =>
    cases hStep
    rfl
  | completeUpdate receiver =>
    simp only [Deposits.step, Option.bind_eq_bind, Option.bind_eq_some_iff, Option.pure_def,
      Option.some.injEq, Prod.mk.injEq] at hStep
    obtain ⟨_, -, -, rfl⟩ := hStep
    rfl
  | creditPendingTransaction service =>
    simp only [Deposits.step] at hStep
    split at hStep
    · cases hStep
      rfl
    · split at hStep
      · cases hStep
        rfl
      · split at hStep
        · cases hStep
          rfl
        · split at hStep <;> cases hStep <;> rfl
  | creditPendingTransactionTx service t =>
    simp only [Deposits.step, Option.bind_eq_bind, Option.bind_eq_some_iff, Option.pure_def,
      Option.some.injEq, Prod.mk.injEq] at hStep
    obtain ⟨_, -, -, rfl⟩ := hStep
    rfl
  | finalizeMerchantQr d t =>
    simp only [Deposits.step, Option.bind_eq_bind, Option.bind_eq_some_iff, Option.pure_def,
      Option.some.injEq, Prod.mk.injEq] at hStep
    obtain ⟨_, -, _, -, -, rfl⟩ := hStep
    rfl
  | nowpaymentsFailureTx =>
    cases hStep
    rfl
  | done answer => cases hStep
  | _ => cases h

/-! ### What a step does -/

/-- One outcome of `createPayment`. -/
def ticket : Ticket Store Call where
  isOpen s := s.json = none
  fired s := if s.returned = true ∨ s.abandoned = true then 1 else 0
  holds
    | .createPayment _ | .markFailed _ => 1
    | _ => 0

/-- What a call knows: the status check has read a column that names the payment, and a finaliser
knows of the reference what it knows on its own, unless the catch has run. -/
def Knows (order : Order) (s : Store) : Call → Prop
  | .webhookPayment _ | .webhookMetadata _ _ => s.json ≠ none
  | .statusPayment json | .statusMetadata json _ =>
    s.json ≠ none ∧ json.nowpaymentsPaymentId = some order.paymentId
  | .settle call => s.json ≠ none ∧ finalizing call = true ∧
    (s.abandoned = false → Deposits.Knows (some order.userId) s.deposits.reference call ∧
      Deposits.Holds (some order.userId) call)
  | _ => True

inductive Effect (order : Order) : Store → Call → Store → Call → Prop where
  | reads {s : Store} {call call' : Call} (hHolds : ticket.holds call' ≤ ticket.holds call)
      (hKnows : Knows order s call → Knows order s call') : Effect order s call s call'
  | creates {s : Store} (i : Init) (now : Time) (hNew : s.json = none) :
      Effect order s (.createRows i) (s.createRows order i now) (.createPayment i)
  | returns {s : Store} (i : Init) (payment : Payment) :
      Effect order s (.createPayment i) { s with returned := true } (.updateRows i payment)
  | abandons {s : Store} (i : Init) (now : Time) :
      Effect order s (.markFailed i) (s.markFailed i now) .done
  | writes {s : Store} {call call' : Call} (json : PaymentJson) (hHolds : ticket.holds call' = 0)
      (hNamed : Knows order s call → json.nowpaymentsPaymentId = some order.paymentId)
      (hKnows : Knows order s call → Knows order (s.setJson json) call') :
      Effect order s call (s.setJson json) call'
  | settles {s : Store} {o : Deposits.Outcome} {deposits : Deposits.Store}
      {call call' : Deposits.Call} (hStep : Deposits.step o s.deposits call = some (deposits, call')) :
      Effect order s (.settle call) { s with deposits := deposits } (.settle call')

section Steps
variable {order : Order} {o : Outcome} {s s' : Store} {call call' : Call}

@[simp] theorem setJson_json_none (json : PaymentJson) (s : Store) :
    (s.setJson json).json = none ↔ s.json = none := by
  simp [Store.setJson]

theorem holds_settlement (status : Option String) : ticket.holds (settlement status) = 0 := by
  unfold settlement
  split
  · rfl
  · split <;> rfl

theorem knows_settlement (status : Option String) (h : s.json ≠ none) :
    Knows order s (settlement status) := by
  unfold settlement
  split
  · exact ⟨h, rfl, fun _ => ⟨trivial, trivial⟩⟩
  · split
    · exact ⟨h, rfl, fun _ => ⟨trivial, trivial⟩⟩
    · trivial

theorem effect_of_step (hOk : Unfailing o s call) (hStep : step order o s call = some (s', call')) :
    Effect order s call s' call' := by
  cases call with
  | checks dto =>
    simp only [step, Option.bind_eq_bind, Option.bind_eq_some_iff, Option.ite_none_right_eq_some,
      Option.pure_def, Option.some.injEq, Prod.mk.injEq] at hStep
    obtain ⟨quote, -, -, rfl, rfl⟩ := hStep
    exact .reads le_rfl fun _ => trivial
  | createRows i =>
    simp only [step, Option.ite_none_right_eq_some, Option.some.injEq, Prod.mk.injEq] at hStep
    obtain ⟨⟨-, hNew⟩, rfl, rfl⟩ := hStep
    exact .creates i o.now hNew
  | createPayment i =>
    simp only [step] at hStep
    split at hStep <;> cases hStep
    · exact .reads le_rfl fun _ => trivial
    · exact .returns i _
  | updateRows i payment =>
    have hFine : o.fails = false := by simpa [Unfailing, unfailing] using hOk
    simp only [step, hFine] at hStep
    cases hStep
    exact .writes _ rfl (fun _ => rfl) fun _ => trivial
  | auditLog i =>
    have hFine : o.fails = false := by simpa [Unfailing, unfailing] using hOk
    simp only [step, hFine] at hStep
    cases hStep
    exact .reads le_rfl fun _ => trivial
  | markFailed i =>
    simp only [step, Option.ite_none_left_eq_some, Option.some.injEq, Prod.mk.injEq] at hStep
    obtain ⟨-, rfl, rfl⟩ := hStep
    exact .abandons i o.now
  | webhook =>
    simp only [step] at hStep
    split at hStep
    · rename_i t json hRow hJson
      cases hStep
      have hThere : s.json ≠ none := by simp [hJson]
      split
      · exact .reads le_rfl fun _ => hThere
      · exact .reads le_rfl fun _ => trivial
    · cases hStep
      exact .reads le_rfl fun _ => trivial
  | webhookPayment json =>
    simp only [step, Option.bind_eq_bind, Option.bind_eq_some_iff, Option.pure_def,
      Option.some.injEq, Prod.mk.injEq] at hStep
    obtain ⟨v, -, rfl, rfl⟩ := hStep
    split
    · exact .reads le_rfl id
    · exact .reads le_rfl fun _ => trivial
  | webhookMetadata json v =>
    simp only [step, Option.ite_none_left_eq_some, Option.some.injEq, Prod.mk.injEq] at hStep
    obtain ⟨-, rfl, rfl⟩ := hStep
    refine .writes _ (holds_settlement _) (fun _ => rfl) ?_
    intro hThere
    exact knows_settlement _ ((setJson_json_none _ _).not.mpr hThere)
  | status userId =>
    simp only [step, Option.bind_eq_bind, Option.bind_eq_some_iff, Option.ite_none_right_eq_some,
      Option.pure_def, Option.some.injEq, Prod.mk.injEq] at hStep
    obtain ⟨t, -, json, hJson, ⟨hNamed, -⟩, rfl, rfl⟩ := hStep
    exact .reads le_rfl fun _ => ⟨by simp [hJson], hNamed⟩
  | statusPayment json =>
    simp only [step, Option.bind_eq_bind, Option.bind_eq_some_iff, Option.ite_none_right_eq_some,
      Option.pure_def, Option.some.injEq, Prod.mk.injEq] at hStep
    obtain ⟨v, -, -, rfl, rfl⟩ := hStep
    exact .reads le_rfl id
  | statusMetadata json v =>
    simp only [step, Option.ite_none_left_eq_some, Option.some.injEq, Prod.mk.injEq] at hStep
    obtain ⟨-, rfl, rfl⟩ := hStep
    refine .writes _ (holds_settlement _) And.right ?_
    intro hThere
    exact knows_settlement _ ((setJson_json_none _ _).not.mpr hThere.1)
  | settle inner =>
    simp only [step, Option.bind_eq_bind, Option.bind_eq_some_iff, Option.pure_def,
      Option.some.injEq, Prod.mk.injEq] at hStep
    obtain ⟨_, hInner, rfl, rfl⟩ := hStep
    exact .settles hInner
  | done => cases hStep

/-! ### One outcome of `createPayment` -/

theorem fired_le (s : Store) : ticket.fired s ≤ 1 := by
  unfold ticket
  dsimp only
  split <;> decide

theorem ticket_of_effect (h : Effect order s call s' call') :
    ticket.Keeps s call s' call' ∨ ticket.Takes s call s' call' := by
  cases h with
  | reads hHolds hKnows => exact .inl ⟨Nat.add_le_add_left hHolds _, .inl⟩
  | creates i now hNew => exact .inr ⟨hNew, Option.some_ne_none _, le_rfl⟩
  | returns i payment =>
    have hLe := fired_le { s with returned := true }
    refine .inl ⟨?_, .inl⟩
    simp only [ticket] at hLe ⊢
    omega
  | abandons i now =>
    have hLe := fired_le (s.markFailed i now)
    refine .inl ⟨?_, fun hOpen => .inl (Option.map_eq_none_iff.mp hOpen)⟩
    simp only [ticket] at hLe ⊢
    omega
  | writes json hHolds hNamed hKnows =>
    refine .inl ⟨?_, fun hOpen => .inl ((setJson_json_none _ _).mp hOpen)⟩
    have hSame : ticket.fired (s.setJson json) = ticket.fired s := rfl
    omega
  | settles hStep => exact .inl ⟨le_rfl, .inl⟩

/-- The two facts of history change when the call gives its ticket. -/
theorem apart_of_effect (h : Effect order s call s' call')
    (hApart : s.returned = true → s.abandoned = false)
    (hTicket : ticket.fired s + ticket.holds call ≤ 1) :
    s'.returned = true → s'.abandoned = false := by
  have hUnfired : ticket.holds call = 1 → s.returned = false ∧ s.abandoned = false := by
    intro hHolds
    have hZero : ticket.fired s = 0 := by omega
    simpa [ticket] using hZero
  cases h with
  | returns i payment => exact fun _ => (hUnfired rfl).2
  | abandons i now =>
    intro hReturned
    have hSame : s.returned = true := hReturned
    rw [(hUnfired rfl).1] at hSame
    cases hSame
  | _ => exact hApart

/-! ### While the catch has not run -/

structure Kept (order : Order) (s : Store) : Prop where
  untouched : s.json = none →
    s.deposits.deposit = none ∧ s.deposits.transaction = none ∧ s.deposits.credits = []
  sound : s.abandoned = false → s.deposits.reference.Sound true ∧
    s.deposits.Names (some order.userId)

/-- What a step may do to the store, once the rows exist. -/
structure Moves (order : Order) (s s' : Store) : Prop where
  json : s.json ≠ none → s'.json ≠ none
  unabandoned : s'.abandoned = false → s.abandoned = false
  lives : s.json ≠ none → s'.abandoned = false →
    Reference.Steps true true s.deposits.reference s'.deposits.reference
  names : s.Names order → s'.abandoned = false → s'.Names order

theorem Moves.refl (s : Store) : Moves order s s := ⟨id, id, fun _ _ => .refl, fun h _ => h⟩

theorem Moves.trans {s₁ : Store} (h : Moves order s s₁) (h' : Moves order s₁ s') :
    Moves order s s' := by
  refine ⟨fun hThere => h'.json (h.json hThere), fun hFine => h.unabandoned (h'.unabandoned hFine),
    ?_, ?_⟩
  · intro hThere hFine
    exact (h.lives hThere (h'.unabandoned hFine)).trans (h'.lives (h.json hThere) hFine)
  · intro hNames hFine
    exact h'.names (h.names hNames (h'.unabandoned hFine)) hFine

/-- The rows just created: one pending deposit, and a transaction that names the user. -/
theorem kept_createRows (i : Init) (now : Time)
    (hNew : s.deposits.deposit = none ∧ s.deposits.transaction = none ∧ s.deposits.credits = []) :
    Kept order (s.createRows order i now) := by
  obtain ⟨-, -, hCredits⟩ := hNew
  have hZero : (s.createRows order i now).deposits.reference.credits = 0 := by
    simp [Store.createRows, Deposits.Store.reference, hCredits]
  refine ⟨fun hNone => absurd hNone (Option.some_ne_none _), fun _ => ⟨?_, ?_⟩⟩
  · refine ⟨hZero.le.trans zero_le_one, fun hSome => absurd hZero hSome, ?_, ?_, ?_, ?_, ?_⟩
    · intro hRow
      cases hRow
    · intro id hRow
      cases hRow
    · intro id hRow
      cases hRow
    · intro id hRow
      cases hRow
    · intro id status hRow
      cases hRow
      exact Nat.lt_succ_self _
  · intro t hRow
    cases hRow
    rfl

theorem names_setJson {json : PaymentJson} (hThere : s.json ≠ none)
    (hNamed : json.nowpaymentsPaymentId = some order.paymentId) : (s.setJson json).Names order := by
  obtain ⟨old, hJson⟩ := Option.ne_none_iff_exists'.mp hThere
  exact ⟨json, by simp [Store.setJson, hJson], hNamed⟩

/-- While the catch has not run, a finaliser settles the reference as it does alone. -/
theorem leaves_of_settle {inner inner' : Deposits.Call} {outcome : Deposits.Outcome}
    {deposits : Deposits.Store} (hKept : Kept order s) (hKnows : Knows order s (.settle inner))
    (hStep : Deposits.step outcome s.deposits inner = some (deposits, inner'))
    (hFine : s.abandoned = false) :
    Deposits.Leaves (some order.userId) true s.deposits deposits inner' := by
  obtain ⟨-, hFinalizing, hRead⟩ := hKnows
  obtain ⟨hSound, hNames⟩ := hKept.sound hFine
  obtain ⟨hInner, hHolds⟩ := hRead hFine
  exact Deposits.leaves_of_step hSound hNames hInner hHolds (spares_of_finalizing hFinalizing) hStep

theorem step_of_effect (hEffect : Effect order s call s' call') (hKept : Kept order s)
    (hKnows : Knows order s call) :
    Kept order s' ∧ Knows order s' call' ∧ Moves order s s' := by
  cases hEffect with
  | reads hHolds hNext => exact ⟨hKept, hNext hKnows, .refl s⟩
  | creates i now hNew =>
    refine ⟨kept_createRows i now (hKept.untouched hNew), trivial, ?_⟩
    refine ⟨fun hThere => absurd hNew hThere, id, fun hThere => absurd hNew hThere, ?_⟩
    rintro ⟨json, hJson, -⟩
    rw [hNew] at hJson
    cases hJson
  | returns i payment =>
    exact ⟨⟨hKept.untouched, hKept.sound⟩, trivial, id, id, fun _ _ => .refl, fun h _ => h⟩
  | abandons i now =>
    have hGone : (s.markFailed i now).abandoned ≠ false := fun hFine => by cases hFine
    refine ⟨⟨?_, fun hFine => absurd hFine hGone⟩, trivial,
      fun hThere hNone => hThere (Option.map_eq_none_iff.mp hNone), fun hFine => absurd hFine hGone,
      fun _ hFine => absurd hFine hGone, fun _ hFine => absurd hFine hGone⟩
    intro hNone
    obtain ⟨hDeposit, hTransaction, hCredits⟩ :=
      hKept.untouched (Option.map_eq_none_iff.mp hNone)
    exact ⟨by simp [Store.markFailed, hDeposit], by simp [Store.markFailed, hTransaction], hCredits⟩
  | writes json hHolds hNamed hNext =>
    refine ⟨⟨?_, hKept.sound⟩, hNext hKnows, ?_⟩
    · intro hNone
      exact hKept.untouched ((setJson_json_none _ _).mp hNone)
    · refine ⟨(setJson_json_none _ _).not.mpr, id, fun _ _ => .refl, ?_⟩
      rintro ⟨old, hOld, -⟩ -
      exact names_setJson (by simp [hOld]) (hNamed hKnows)
  | settles hStep =>
    have hLeaves := leaves_of_settle hKept hKnows hStep
    obtain ⟨hThere, hFinalizing, -⟩ := hKnows
    refine ⟨⟨fun hNone => absurd hNone hThere, ?_⟩,
      ⟨hThere, finalizing_step hFinalizing hStep, ?_⟩, id, id, ?_, fun h _ => h⟩
    · intro hFine
      obtain ⟨hSound, hNames⟩ := hKept.sound hFine
      obtain ⟨⟨hSteps, hNamed⟩, -, -⟩ := hLeaves hFine
      exact ⟨hSound.steps hSteps, hNamed hNames⟩
    · intro hFine
      obtain ⟨-, hInner, hHolds⟩ := hLeaves hFine
      exact ⟨hInner, hHolds⟩
    · intro _ hFine
      exact (hLeaves hFine).lives.1

/-- No step of another call undoes what a call knows. -/
theorem Knows.moves {other : Call} (hKnows : Knows order s other) (h : Moves order s s') :
    Knows order s' other := by
  cases other with
  | webhookPayment json => exact h.json hKnows
  | webhookMetadata json v => exact h.json hKnows
  | statusPayment json => exact ⟨h.json hKnows.1, hKnows.2⟩
  | statusMetadata json v => exact ⟨h.json hKnows.1, hKnows.2⟩
  | settle inner =>
    obtain ⟨hThere, hFinalizing, hRead⟩ := hKnows
    refine ⟨h.json hThere, hFinalizing, ?_⟩
    intro hFine
    obtain ⟨hInner, hHolds⟩ := hRead (h.unabandoned hFine)
    exact ⟨hInner.steps (h.lives hThere hFine), hHolds⟩
  | _ => trivial

end Steps

section Runs
variable {order : Order} {start : Store} {c later : Config Store Call}

/-- The reference has not been used: no row, no credit, no history. -/
structure Fresh (s : Store) : Prop where
  json : s.json = none
  deposit : s.deposits.deposit = none
  transaction : s.deposits.transaction = none
  credits : s.deposits.credits = []
  returned : s.returned = false
  abandoned : s.abandoned = false

structure Invariant (order : Order) (c : Config Store Call) : Prop where
  kept : Kept order c.store
  knows : ∀ call ∈ c.calls, Knows order c.store call

theorem knows_enter (request : Request) (s : Store) : Knows order s (enter request) := by
  cases request <;> trivial

theorem moves_of_reaches (hInit : Invariant order c)
    (h : (program order).Reaches Unfailing c later) :
    Invariant order later ∧ Moves order c.store later.store := by
  have hAll := h.assertions (fun s => Kept order s ∧ Moves order c.store s) (Knows order)
    ⟨⟨hInit.kept, .refl _⟩, hInit.knows⟩ ?_ ?_ ?_
  · obtain ⟨⟨hKept, hMoves⟩, hKnows⟩ := hAll
    exact ⟨⟨hKept, hKnows⟩, hMoves⟩
  · exact fun request store _ => knows_enter request store
  · rintro outcome store store' call call' ⟨hKept, hMoves⟩ hKnows hOk hStep
    obtain ⟨hKept', hKnows', hMove⟩ := step_of_effect (effect_of_step hOk hStep) hKept hKnows
    exact ⟨⟨hKept', hMoves.trans hMove⟩, hKnows'⟩
  · rintro outcome store store' call call' other ⟨hKept, -⟩ hKnows hOther hOk hStep
    obtain ⟨-, -, hMove⟩ := step_of_effect (effect_of_step hOk hStep) hKept hKnows
    exact hOther.moves hMove

theorem invariant_of_fresh (h : Fresh start) : Invariant order (Program.idle start) := by
  refine ⟨⟨fun _ => ⟨h.deposit, h.transaction, h.credits⟩, fun _ => ⟨?_, ?_⟩⟩, ?_⟩
  · refine ⟨?_, ?_, ?_, ?_, ?_, ?_, ?_⟩ <;>
      simp [Program.idle, Deposits.Store.reference, h.deposit, h.transaction, h.credits]
  · intro t hRow
    exact absurd (hRow.symm.trans h.transaction) (Option.some_ne_none t)
  · intro call hMem
    cases hMem

/-- What has returned is not abandoned: one call at most holds the ticket. -/
theorem apart_of_reaches (hFresh : Fresh start)
    (h : (program order).Reaches Unfailing (Program.idle start) c) :
    c.store.returned = true → c.store.abandoned = false := by
  have hStart : ticket.Sound (Program.idle start) := by
    have hZero : ticket.spent (Program.idle start) = 0 := by
      simp [Ticket.spent, Program.idle, ticket, hFresh.returned, hFresh.abandoned]
    exact ⟨hZero.le.trans zero_le_one, fun _ => hZero⟩
  have hAll := h.invariant
    (fun c => ticket.Sound c ∧ (c.store.returned = true → c.store.abandoned = false))
    ⟨hStart, fun _ => hFresh.abandoned⟩ ?_ ?_
  · exact hAll.2
  · rintro request store calls ⟨hSound, hApart⟩
    refine ⟨hSound.enter ?_, hApart⟩
    cases request <;> rfl
  · rintro outcome store store' call call' before after ⟨hSound, hApart⟩ hOk hStep
    have hEffect := effect_of_step hOk hStep
    exact ⟨hSound.step (ticket_of_effect hEffect),
      apart_of_effect hEffect hApart hSound.fired_add_le⟩

theorem returned_of_reaches (hReturned : c.store.returned = true)
    (h : (program order).Reaches Unfailing c later) : later.store.returned = true := by
  refine h.store_invariant (fun s => s.returned = true) hReturned ?_
  intro outcome store store' call call' hWas hOk hStep
  cases effect_of_step hOk hStep with
  | returns i payment => rfl
  | _ => exact hWas

/-- Once `createPayment` has returned and neither await after it fails, the initialisation marks
nothing failed, a credited deposit stays credited, and the payment's id stays in the column. -/
theorem initialisation_survives (hFresh : Fresh start)
    (h : (program order).Reaches Unfailing (Program.idle start) c)
    (hReturned : c.store.returned = true) : Survives order Unfailing c := by
  obtain ⟨hInvariant, -⟩ := moves_of_reaches (invariant_of_fresh hFresh) h
  have hLater : ∀ later, (program order).Reaches Unfailing c later →
      later.store.abandoned = false ∧ Moves order c.store later.store := by
    intro later hOn
    obtain ⟨-, hMoves⟩ := moves_of_reaches hInvariant hOn
    exact ⟨apart_of_reaches hFresh (h.trans hOn) (returned_of_reaches hReturned hOn), hMoves⟩
  refine ⟨apart_of_reaches hFresh h hReturned, ?_, ?_⟩
  · intro hCredited later hOn
    obtain ⟨hFine, hMoves⟩ := hLater later hOn
    have hThere : c.store.json ≠ none := by
      intro hNone
      obtain ⟨-, hMissing, -⟩ := hInvariant.kept.untouched hNone
      have hCompleted := hCredited.1
      simp [Deposits.Store.reference, hMissing] at hCompleted
    have hSame := hCredited.steps (hMoves.lives hThere hFine)
    unfold Store.Credited
    rw [hSame]
    exact hCredited
  · intro hNames later hOn
    obtain ⟨hFine, hMoves⟩ := hLater later hOn
    exact hMoves.names hNames hFine

end Runs

/-! ### Two dollars in bitcoin, for 300 FARM -/

def order : Order := ⟨1, 7, 501⟩

/-- User 1 has an empty wallet, and the reference is new. -/
def unused : Store where
  deposits :=
    { deposit := none
      transaction := none
      transactionId := 0
      nextDepositId := 0
      bank :=
        { wallets := fun id => if id = 1 then some ⟨0, 0, false⟩ else none
          platform := none
          transactions := []
          ledger := [] }
      activeWallet := fun userId => if userId = 1 then some 1 else none
      userWallet := fun userId => if userId = 1 then some 1 else none
      nextWalletId := 2
      merchantUser := fun _ => none
      credits := [] }
  json := none
  returned := false
  abandoned := false

def answered : Outcome where
  now := 0
  fails := false
  quote := some ⟨1, 300, 1 / 150⟩
  payment := some ⟨some "waiting", "bc1q", 1 / 50000, "btc"⟩
  verified := some ⟨501, 7, "usd", "btc", 2, some "finished"⟩
  deposits := Deposits.quiet

def steps (index n : ℕ) (o : Outcome) : List (Move Request Outcome) :=
  List.replicate n (.run index o)

/-- The rows and the payment exist and are written down; then the webhook of the paid deposit. -/
def paidBeforeAudit : List (Move Request Outcome) :=
  .enter (.createNowpaymentsCryptoDeposit ⟨2, "usd", "btc"⟩) :: steps 0 4 answered ++
    .enter .handleNowpaymentsWebhook :: steps 1 7 answered

/-- The audit entry throws, and the catch commits. -/
def auditFails : List (Move Request Outcome) :=
  [.run 0 { answered with fails := true }, .run 0 answered]

/-- `SUCCESS` and `completed`, and a column with the payment's id. -/
def isPaid (c : Config Store Call) : Bool :=
  c.store.deposits.reference.transaction == some .completed &&
    c.store.deposits.reference.deposit == some (0, .success) &&
    c.store.json.any fun json => json.nowpaymentsPaymentId == some 501

/-- `FAILED` and `failed`, and a column without it. -/
def isAbandoned (c : Config Store Call) : Bool :=
  c.store.abandoned && c.store.deposits.reference.transaction == some .failed &&
    c.store.json.any fun json => json.nowpaymentsPaymentId == none

theorem fresh_unused : Fresh unused := ⟨rfl, rfl, rfl, rfl, rfl, rfl⟩

theorem credited_of_isPaid {c : Config Store Call} (h : isPaid c = true) :
    c.store.Credited ∧ c.store.Names order := by
  simp only [isPaid, Bool.and_eq_true, beq_iff_eq, Option.any_eq_true] at h
  obtain ⟨⟨hCompleted, hSuccess⟩, hNamed⟩ := h
  exact ⟨⟨hCompleted, .inl ⟨0, hSuccess⟩⟩, hNamed⟩

/-- The deposit is credited to the wallet; then the audit entry throws, and the catch marks both
rows failed and rewrites the column. -/
theorem credited_deposit_abandoned : Fresh unused ∧ ∃ c,
    (program order).Reaches anyStep (Program.idle unused) c ∧ c.store.returned = true ∧
      (c.store.Credited ∧ c.store.Names order) ∧ ∃ later, (program order).Reaches anyStep c later ∧
        later.store.abandoned = true ∧ ¬later.store.Credited ∧ ¬later.store.Names order ∧
        ¬Survives order anyStep c ∧ ¬Survives order anyStep later := by
  have hRuns : ((program order).schedule paidBeforeAudit (Program.idle unused)).any (fun c =>
      (c.store.returned && isPaid c) &&
        ((program order).schedule auditFails c).any isAbandoned) = true := by decide +kernel
  obtain ⟨c, hRun, hEnd⟩ := Program.reaches_of_any hRuns
  simp only [Bool.and_eq_true] at hEnd
  obtain ⟨⟨hReturned, hPaid⟩, hThen⟩ := hEnd
  obtain ⟨later, hOn, hLate⟩ := Program.reaches_of_any hThen
  simp only [isAbandoned, Bool.and_eq_true, beq_iff_eq, Option.any_eq_true] at hLate
  obtain ⟨⟨hAbandoned, hFailed⟩, json, hJson, hLost⟩ := hLate
  have hUncredited : ¬later.store.Credited := by
    rintro ⟨hCompleted, -⟩
    rw [hFailed] at hCompleted
    cases hCompleted
  refine ⟨fresh_unused, c, hRun, hReturned, credited_of_isPaid hPaid, later, hOn, hAbandoned,
    hUncredited, ?_, ?_, ?_⟩
  · rintro ⟨json', hJson', hNamed⟩
    rw [hJson, Option.some.injEq] at hJson'
    rw [← hJson', hLost] at hNamed
    cases hNamed
  · intro hSurvives
    exact hUncredited (hSurvives.credited (credited_of_isPaid hPaid).1 later hOn)
  · intro hSurvives
    rw [hSurvives.unfailed] at hAbandoned
    cases hAbandoned

theorem paid_deposit_survives : ∃ c,
    (program order).Reaches Unfailing (Program.idle unused) c ∧ c.store.returned = true ∧
      (c.store.Credited ∧ c.store.Names order) ∧ Survives order Unfailing c := by
  have hRuns : (((program order).guarded Unfailing).schedule (paidBeforeAudit ++ [.run 0 answered])
      (Program.idle unused)).any (fun c => c.store.returned && isPaid c) = true := by decide +kernel
  obtain ⟨c, hRun, hEnd⟩ := Program.reaches_of_guarded_any hRuns
  simp only [Bool.and_eq_true] at hEnd
  obtain ⟨hReturned, hPaid⟩ := hEnd
  exact ⟨c, hRun, hReturned, credited_of_isPaid hPaid,
    initialisation_survives fresh_unused hRun hReturned⟩

end FarmBackend.Nowpayments
