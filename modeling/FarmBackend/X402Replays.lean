import FarmBackend.X402Calls
import FarmBackend.Ticket

/-!
# One signed payment, many calls

The row of the payment is its ticket: a call takes it where the row is missing or failed, and gives
it back with a failure. The business's service is called before the ticket is taken, so replays
that were verified in time reach it; a success closes the way for the later ones.
-/

namespace FarmBackend.X402
open Interleaving

set_option autoImplicit false

/-- `settle` has answered this call with success. -/
def Call.succeeds (txId : TxId) : Call → Bool
  | .upstreamStatus _ result => result.success && result.transaction == txId
  | .done (.paid _ result _) => result.transaction == txId
  | .done (.settled result) => result.success && result.transaction == txId
  | _ => false

def Call.paidFor (txId : TxId) : Call → Bool
  | .done (.paid _ result _) => result.transaction == txId
  | _ => false

/-- The body of the business's service that the call has returned. -/
def Call.body : Call → Option Upstream
  | .done (.notCharged up _) => some up
  | .done (.paid up _ _) => some up
  | _ => none

def Call.fetches (txId : TxId) : Call → Bool
  | .safeFetch id _ => id == txId
  | _ => false

/-- Between its claim and the answer of `settle`. -/
def Call.settles (txId : TxId) : Call → Bool
  | .send job | .markSettled job | .recordFailure job _ => job.txId == txId
  | _ => false

def Call.holds (txId : TxId) (call : Call) : ℕ :=
  (call.settles txId).toNat + (call.succeeds txId).toNat

/-- What the row says while a call holds the payment. -/
def Call.stage : Call → PaymentStatus
  | .send _ | .markSettled _ | .recordFailure _ _ => .settling
  | _ => .settled

def Call.Knows (s : Store) (call : Call) : Prop :=
  ∀ txId, call.holds txId ≠ 0 → s.rows txId = some call.stage

def paymentTicket (txId : TxId) : Ticket Store Call where
  isOpen s := s.Claimable txId
  fired _ := 0
  holds := Call.holds txId

section Steps
attribute [local simp] Call.settles Call.succeeds
variable {sdk : Sdk} {c : X402Config} {o : Outcome} {s s' : Store} {call call' : Call} {txId : TxId}
  {status : PaymentStatus} {job : Job}

theorem holds_of_isPlain (h : call.isPlain = true) : call.holds txId = 0 := by
  cases call with
  | safeFetch | send | markSettled | recordFailure => cases h
  | upstreamStatus up result =>
    have hFailed : result.success = false := by simpa [Call.isPlain] using h
    simp [Call.holds, hFailed]
  | done answer =>
    cases answer with
    | paid => cases h
    | settled result =>
      have hFailed : result.success = false := by simpa [Call.isPlain] using h
      simp [Call.holds, hFailed]
    | _ => rfl
  | _ => rfl

theorem holds_respond {up : Upstream} {result : SettleResult} :
    (respond up result).holds txId = Call.holds txId (.upstreamStatus up result) := by
  unfold respond
  split
  · rename_i hSuccess
    simp [Call.holds, hSuccess]
  · rename_i hFailed
    simp [Call.holds, hFailed]

theorem holds_finish {result : SettleResult} (h : result.success = true) :
    (finish job result).holds txId = (result.transaction == txId).toNat := by
  unfold finish
  split
  · simp [Call.holds, h]
  · split
    · rw [holds_respond]
      simp [Call.holds, h]
    · simp [Call.holds, h]

theorem stage_respond {up : Upstream} {result : SettleResult} :
    (respond up result).stage = .settled := by
  unfold respond
  split <;> rfl

theorem stage_finish {result : SettleResult} : (finish job result).stage = .settled := by
  unfold finish
  split
  · rfl
  · split
    · exact stage_respond
    · rfl

theorem rows_setRow_ne (h : job.txId ≠ txId) : (s.setRow job.txId status).rows txId = s.rows txId :=
  Function.update_of_ne h.symm _ _

theorem claimable_setRow_ne (h : job.txId ≠ txId) :
    (s.setRow job.txId status).Claimable txId ↔ s.Claimable txId := by
  unfold Store.Claimable
  rw [rows_setRow_ne h]

theorem claimable_setRow_self : (s.setRow txId status).Claimable txId ↔ status = .failed := by
  simp [Store.Claimable]

/-- A step keeps the ticket of a payment, takes it, or gives it back. -/
theorem ticket_of_took (hTook : Took c o s call s' call') :
    (paymentTicket txId).Keeps s call s' call' ∨ (paymentTicket txId).Takes s call s' call' := by
  cases hTook with
  | quiet hCall hCall' =>
    left
    refine ⟨?_, fun hOpen => .inl hOpen⟩
    simp only [paymentTicket, holds_of_isPlain hCall, holds_of_isPlain hCall', le_refl]
  | verified hCall hClaimable =>
    left
    refine ⟨?_, fun hOpen => .inl hOpen⟩
    simp only [paymentTicket, holds_of_isPlain hCall]
    exact le_refl 0
  | fetched hCall' =>
    left
    refine ⟨?_, fun hOpen => .inl hOpen⟩
    simp only [paymentTicket, holds_of_isPlain hCall']
    omega
  | @claimed job prev hClaimable =>
    by_cases hSame : job.txId = txId
    · subst hSame
      right
      refine ⟨hClaimable, ?_, ?_⟩
      · intro hOpen
        cases claimable_setRow_self.mp hOpen
      · simp [paymentTicket, Call.holds]
    · left
      refine ⟨?_, fun hOpen => .inl ((claimable_setRow_ne hSame).mp hOpen)⟩
      simp [paymentTicket, Call.holds, Call.settles, Call.succeeds, hSame]
  | sent | sendThrown | markThrown =>
    left
    exact ⟨le_refl _, fun hOpen => .inl hOpen⟩
  | @marked job =>
    left
    refine ⟨?_, ?_⟩
    · have hFinish : (finish job (succeeded c job)).holds txId =
          ((succeeded c job).transaction == txId).toNat := holds_finish rfl
      simp only [paymentTicket, hFinish]
      exact le_refl _
    · intro hOpen
      by_cases hSame : job.txId = txId
      · subst hSame
        cases claimable_setRow_self.mp hOpen
      · exact .inl ((claimable_setRow_ne hSame).mp hOpen)
  | @recorded job msg =>
    left
    have hGiven : (finish job (notSettled c job msg)).holds txId = 0 :=
      holds_of_isPlain (isPlain_finish rfl)
    refine ⟨?_, ?_⟩
    · simp only [paymentTicket, hGiven]
      omega
    · intro hOpen
      by_cases hSame : job.txId = txId
      · right
        simp only [paymentTicket, hGiven]
        simp [Call.holds, hSame]
      · exact .inl ((claimable_setRow_ne hSame).mp hOpen)
  | responded =>
    left
    refine ⟨?_, fun hOpen => .inl hOpen⟩
    simp only [paymentTicket, holds_respond, le_refl]

theorem knows_of_took (hKnows : call.Knows s) (hTook : Took c o s call s' call') :
    call'.Knows s' := by
  have hPlain : ∀ {s : Store} {call : Call}, call.isPlain = true → call.Knows s :=
    fun h txId hHolds => absurd (holds_of_isPlain h) hHolds
  cases hTook with
  | quiet _ hCall' => exact hPlain hCall'
  | verified => exact fun txId hHolds => absurd rfl hHolds
  | fetched hCall' => exact hPlain hCall'
  | @claimed job prev =>
    intro txId hHolds
    have hSame : job.txId = txId := by simpa [Call.holds] using hHolds
    subst hSame
    simp [Call.stage]
  | sent | sendThrown | markThrown => exact hKnows
  | @marked job =>
    intro txId hHolds
    rw [stage_finish]
    rw [holds_finish rfl] at hHolds
    have hSame : job.txId = txId := by simpa [succeeded] using hHolds
    subst hSame
    simp
  | recorded => exact hPlain (isPlain_finish rfl)
  | responded =>
    intro txId hHolds
    rw [holds_respond] at hHolds
    rw [stage_respond]
    exact hKnows txId hHolds

/-- A step on the row of a payment is of a call that holds it, or claims it. -/
theorem rows_of_took (hTook : Took c o s call s' call') (hHolds : call.holds txId = 0)
    (hTaken : ¬s.Claimable txId) : s'.rows txId = s.rows txId := by
  have hOther : ∀ {job : Job} {status : PaymentStatus}, job.txId ≠ txId →
      (s.setRow job.txId status).rows txId = s.rows txId := fun h => rows_setRow_ne h
  cases hTook with
  | quiet | verified | fetched | sent | sendThrown | markThrown | responded => rfl
  | @claimed job prev hClaimable =>
    apply hOther
    intro hSame
    exact hTaken (hSame ▸ hClaimable)
  | marked | recorded =>
    apply hOther
    simpa [Call.holds] using hHolds

/-- Success is for good. -/
theorem succeeds_of_took (hTook : Took c o s call s' call') (h : call.succeeds txId = true) :
    call'.succeeds txId = true := by
  have hPlain : ∀ {call : Call}, call.isPlain = true → call.succeeds txId = false := by
    intro call hPlain
    have hHolds : call.holds txId = 0 := holds_of_isPlain hPlain
    simp only [Call.holds, Nat.add_eq_zero_iff, Bool.toNat_eq_zero] at hHolds
    exact hHolds.2
  cases hTook with
  | quiet hCall | verified hCall =>
    rw [hPlain hCall] at h
    cases h
  | fetched | claimed | sent | sendThrown | marked | markThrown | recorded => cases h
  | responded =>
    obtain ⟨hSuccess, hId⟩ := Bool.and_eq_true_iff.mp h
    unfold respond
    rw [dif_pos hSuccess]
    exact hId

/-- What has reached the service for a payment and what is on its way there. -/
def reaching (txId : TxId) (d : Config Store Call) : ℕ :=
  d.store.invoked.count txId + d.calls.countP (Call.fetches txId)

theorem reaching_of_took {before after : List Call} (hTook : Took c o s call s' call')
    (hTaken : ¬s.Claimable txId) :
    reaching txId ⟨s', before ++ call' :: after⟩ ≤ reaching txId ⟨s, before ++ call :: after⟩ := by
  have hSplit : ∀ (s : Store) (call : Call), reaching txId ⟨s, before ++ call :: after⟩ =
      s.invoked.count txId + (call.fetches txId).toNat +
        (before.countP (Call.fetches txId) + after.countP (Call.fetches txId)) := by
    intro s call
    simp only [reaching, List.countP_append, List.countP_cons]
    cases call.fetches txId with
    | false => simp
    | true =>
      simp only [if_true, Bool.toNat_true]
      omega
  have hPlain : ∀ {call : Call}, call.isPlain = true → call.fetches txId = false := by
    intro call h
    cases call <;> first | rfl | cases h
  have hFinish : ∀ (job : Job) (result : SettleResult), (finish job result).fetches txId = false := by
    intro job result
    unfold finish respond
    split
    · rfl
    · split
      · split <;> rfl
      · rfl
  rw [hSplit, hSplit]
  cases hTook with
  | quiet hCall hCall' => simp [hPlain hCall, hPlain hCall']
  | @verified call id payer hCall hClaimable =>
    have hNe : id ≠ txId := by
      intro hSame
      exact hTaken (hSame ▸ hClaimable)
    have hOther : (Call.safeFetch id payer).fetches txId = false := beq_eq_false_iff_ne.mpr hNe
    rw [hOther, hPlain hCall]
  | @fetched id payer call' hCall' =>
    have hBefore : (Call.safeFetch id payer).fetches txId = (id == txId) := rfl
    rw [hBefore, hPlain hCall', List.count_append, List.count_singleton]
    cases id == txId <;> simp
  | claimed | sent | sendThrown | markThrown => exact le_refl _
  | marked | recorded =>
    rw [hFinish]
    exact le_refl _
  | responded =>
    unfold respond
    split <;> exact le_refl _

end Steps

section Runs
variable {sdk : Sdk} {c : X402Config} {start : Store} {d d' : Config Store Call}

theorem paymentTicket_sound (txId : TxId)
    (h : (program sdk c).Reaches anyStep (Program.idle start) d) : (paymentTicket txId).Sound d := by
  refine Ticket.Sound.reaches h ⟨by simp [Ticket.spent, Program.idle, paymentTicket],
    fun _ => by simp [Ticket.spent, Program.idle, paymentTicket]⟩ ?_ ?_
  · intro request
    cases request <;> rfl
  · intro o s s' call call' before after _ _ hStep
    exact ticket_of_took (took_of_step hStep)

theorem knows_of_reaches (h : (program sdk c).Reaches anyStep (Program.idle start) d) :
    ∀ call ∈ d.calls, call.Knows d.store := by
  refine (h.assertions_among (fun _ => True) (fun s call => call.Knows s)
    ⟨trivial, by simp [Program.idle]⟩ ?_ ?_ ?_).2
  · intro request s _ txId hHolds
    cases request <;> exact absurd rfl hHolds
  · intro o s s' call call' before after _ _ hKnows _ hStep
    exact ⟨trivial, knows_of_took hKnows (took_of_step hStep)⟩
  · intro o s s' call call' before after other hRun hMem _ _ hOther _ hStep txId hHolds
    have hApart := (paymentTicket_sound txId hRun).apart hMem
    have hFree : call.holds txId = 0 := by
      simp only [paymentTicket] at hApart
      omega
    have hTaken : ¬s.Claimable txId := by
      intro hOpen
      have hStage := hOpen _ (hOther txId hHolds)
      cases other <;> cases hStage
    rw [rows_of_took (took_of_step hStep) hFree hTaken]
    exact hOther txId hHolds

theorem settled_of_succeeds {call : Call} {txId : TxId}
    (h : (program sdk c).Reaches anyStep (Program.idle start) d) (hMem : call ∈ d.calls)
    (hSucceeds : call.succeeds txId = true) : d.store.rows txId = some .settled := by
  have hHolds : call.holds txId ≠ 0 := by simp [Call.holds, hSucceeds]
  rw [knows_of_reaches h call hMem txId hHolds]
  cases call <;> first | rfl | cases hSucceeds

theorem countP_succeeds_le (txId : TxId)
    (h : (program sdk c).Reaches anyStep (Program.idle start) d) :
    d.calls.countP (Call.succeeds txId) ≤ 1 := by
  have hSpent := (paymentTicket_sound txId h).spent_le
  have hHolds : ∀ calls : List Call,
      calls.countP (Call.succeeds txId) ≤ (calls.map (Call.holds txId)).sum := by
    intro calls
    induction calls with
    | nil => exact le_refl 0
    | cons call calls ih =>
      rw [List.countP_cons, List.map_cons, List.sum_cons]
      cases hSucceeds : call.succeeds txId with
      | false => simpa using ih.trans (Nat.le_add_left _ _)
      | true =>
        simp only [if_pos, Call.holds, hSucceeds, Bool.toNat_true]
        omega
  have hAll := hHolds d.calls
  simp only [Ticket.spent, paymentTicket] at hSpent
  omega

/-- After a success nothing more sets out for the service with this payment. -/
theorem reaching_of_reaches {txId : TxId}
    (h : (program sdk c).Reaches anyStep (Program.idle start) d)
    (hSucceeds : ∃ call ∈ d.calls, call.succeeds txId = true)
    (hRun : (program sdk c).Reaches anyStep d d') : reaching txId d' ≤ reaching txId d := by
  suffices hInv : (program sdk c).Reaches anyStep (Program.idle start) d' ∧
      (∃ call ∈ d'.calls, call.succeeds txId = true) ∧ reaching txId d' ≤ reaching txId d from
    hInv.2.2
  induction hRun with
  | refl => exact ⟨h, hSucceeds, le_refl _⟩
  | tail _ hStep ih =>
    obtain ⟨hReach, ⟨winner, hMem, hWins⟩, hLe⟩ := ih
    refine ⟨Relation.ReflTransGen.tail hReach hStep, ?_⟩
    have hTaken := settled_of_succeeds hReach hMem hWins
    cases hStep with
    | enter request store calls =>
      refine ⟨⟨winner, List.mem_append_left _ hMem, hWins⟩, ?_⟩
      refine le_trans (le_of_eq ?_) hLe
      cases request <;> simp [reaching, List.countP_append, program, Call.fetches]
    | @call o s s' call call' before after hOk hStep =>
      have hTook := took_of_step hStep
      refine ⟨?_, (reaching_of_took hTook ?_).trans hLe⟩
      · rcases List.mem_append.mp hMem with hBefore | hAfter
        · exact ⟨winner, List.mem_append_left _ hBefore, hWins⟩
        · rcases List.mem_cons.mp hAfter with rfl | hAfter
          · exact ⟨call', by simp, succeeds_of_took hTook hWins⟩
          · exact ⟨winner, by simp [hAfter], hWins⟩
      · intro hOpen
        cases hOpen _ hTaken

/-- One payment gets at most one success, whose row is then settled for good; at most one call
returns the body of a service that took the payment, and after the success no call that was not
verified by then reaches the service. -/
theorem payment_succeeds_once (txId : TxId)
    (h : (program sdk c).Reaches anyStep (Program.idle start) d) :
    d.calls.countP (Call.succeeds txId) ≤ 1 ∧ d.calls.countP (Call.paidFor txId) ≤ 1 ∧
      (∀ call ∈ d.calls, call.succeeds txId = true → d.store.rows txId = some .settled) ∧
      (∀ call ∈ d.calls, ∀ up, call.body = some up → up.status < 400 →
        ∃ id, call.paidFor id = true ∧ call.succeeds id = true) ∧
      ((∃ call ∈ d.calls, call.succeeds txId = true) →
        ∀ d', (program sdk c).Reaches anyStep d d' → reaching txId d' ≤ reaching txId d) := by
  refine ⟨countP_succeeds_le txId h, ?_, ?_, ?_, ?_⟩
  · refine le_trans (List.countP_mono_left ?_) (countP_succeeds_le txId h)
    intro call _ hPaid
    cases call with
    | done answer => cases answer <;> first | exact hPaid | cases hPaid
    | _ => cases hPaid
  · exact fun call hMem hSucceeds => settled_of_succeeds h hMem hSucceeds
  · intro call _ up hBody hStatus
    cases call with
    | done answer =>
      cases answer with
      | notCharged up' hRefused =>
        cases hBody
        omega
      | paid up' result hSuccess => exact ⟨result.transaction, by simp [Call.paidFor],
          by simp [Call.succeeds]⟩
      | _ => cases hBody
    | _ => cases hBody
  · exact fun hSucceeds d' hRun => reaching_of_reaches h hSucceeds hRun

end Runs

/-! Calls of the gateway with the payment of 5.00 FARM. -/

namespace Replay

def resource : Resource := ⟨true, "GET", "FARM", 500, "BUSINESS"⟩

def store : Store := ⟨fun _ => none, fun _ => true, []⟩

def outcome : Outcome :=
  ⟨some resource, none, Sample.answers, some ⟨200, [7]⟩, .ok (), .ok 1501⟩

def failing : Outcome := { outcome with upstream := some ⟨500, [8]⟩ }

def arrive : Move Request Outcome := .enter (.gateway "GET" (some (some Sample.payload)))

end Replay

/-- Two calls with one payment are verified before either settles: the service is called for both,
and the second returns its body although it settles nothing. -/
theorem service_called_twice_for_one_payment : ∃ d,
    (program Sample.sdk Sample.config).Reaches anyStep (Program.idle Replay.store) d ∧
      d.store.invoked.count "PAYER" = 2 ∧
      ∃ call ∈ d.calls, call.body.isSome = true ∧ call.succeeds "PAYER" = false := by
  have hRun : ((program Sample.sdk Sample.config).schedule
      [Replay.arrive, Replay.arrive, .run 0 Replay.outcome, .run 0 Replay.outcome,
        .run 1 Replay.outcome, .run 1 Replay.outcome, .run 0 Replay.outcome, .run 1 Replay.failing]
      (Program.idle Replay.store)).any (fun d => decide (d.store.invoked.count "PAYER" = 2 ∧
        ∃ call ∈ d.calls, call.body.isSome = true ∧ call.succeeds "PAYER" = false)) = true := by
    decide +kernel
  obtain ⟨d, hReach, hTwice⟩ := Program.reaches_of_any hRun
  exact ⟨d, hReach, of_decide_eq_true hTwice⟩

/-- A call of the gateway whose payment is settled. -/
theorem gateway_payment_succeeds_once : ∃ d : Config Store Call,
    d.calls.countP (Call.paidFor "PAYER") = 1 ∧ d.calls.countP (Call.succeeds "PAYER") ≤ 1 ∧
      reaching "PAYER" d = 1 ∧ ∀ d', (program Sample.sdk Sample.config).Reaches anyStep d d' →
        reaching "PAYER" d' ≤ reaching "PAYER" d := by
  have hRun : ((program Sample.sdk Sample.config).schedule
      (Replay.arrive :: List.replicate 8 (.run 0 Replay.outcome))
      (Program.idle Replay.store)).any (fun d => decide (
        d.calls.countP (Call.paidFor "PAYER") = 1 ∧ reaching "PAYER" d = 1 ∧
          ∃ call ∈ d.calls, call.succeeds "PAYER" = true)) = true := by
    decide +kernel
  obtain ⟨d, hReach, hEnd⟩ := Program.reaches_of_any hRun
  obtain ⟨hPaid, hReaching, hSucceeds⟩ := of_decide_eq_true hEnd
  obtain ⟨hOnce, -, -, -, hAfter⟩ :=
    payment_succeeds_once "PAYER" hReach
  exact ⟨d, hPaid, hOnce, hReaching, hAfter hSucceeds⟩

end FarmBackend.X402
