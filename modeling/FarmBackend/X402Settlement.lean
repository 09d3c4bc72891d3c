import FarmBackend.X402Calls

/-!
# What a failed payment row says about the chain

A row becomes `failed` where the message of an error does not sound like an unknown outcome. The
error may be one of the broadcast or the wait, or of the bookkeeping after the confirmation.
-/

namespace FarmBackend.X402
open Interleaving

set_option autoImplicit false

/-- An error of the `try` block tells that the payment failed only where it is never confirmed. -/
def toldTruly (s : Store) (txId : TxId) (e : Thrown) : Bool :=
  outcomeUnknown (messageOf e) || !s.confirmed txId

/-- Whether the step tells truly: what the broadcast, the wait or the update to `settled` throws. -/
def tellsTruly (o : Outcome) (s : Store) : Call → Bool
  | .send job =>
    match o.send with
    | .ok _ => true
    | .error e => toldTruly s job.txId e
  | .markSettled job =>
    match o.statement with
    | .ok _ => true
    | .error e => toldTruly s job.txId e
  | _ => true

abbrev TellsTruly : Guard Store Call Outcome := fun o s call => tellsTruly o s call = true

/-- A failed row is of a transaction that the chain never confirms. -/
def FailedUnconfirmed (s : Store) : Prop :=
  ∀ txId, s.rows txId = some .failed → s.confirmed txId = false

/-- A call about to record a failure knows what it will record. -/
def Call.Justified (s : Store) : Call → Prop
  | .recordFailure job msg => outcomeUnknown msg = true ∨ s.confirmed job.txId = false
  | _ => True

section Steps
variable {sdk : Sdk} {c : X402Config} {o : Outcome} {s s' : Store} {call call' : Call}

theorem justified_finish (job : Job) (result : SettleResult) :
    Call.Justified s (finish job result) := by
  unfold finish
  split
  · trivial
  · split
    · unfold respond
      split <;> trivial
    · trivial

theorem FailedUnconfirmed.setRow {txId : TxId} {status : PaymentStatus}
    (h : FailedUnconfirmed s) (hStatus : status = .failed → s.confirmed txId = false) :
    FailedUnconfirmed (s.setRow txId status) := by
  intro other hRow
  rw [Store.rows_setRow] at hRow
  by_cases hSame : other = txId
  · subst hSame
    rw [Function.update_self, Option.some.injEq] at hRow
    exact hStatus hRow
  · rw [Function.update_of_ne hSame] at hRow
    exact h other hRow

/-- One step keeps that failed rows are of unconfirmed transactions, and what it is about to
record is justified. -/
theorem keeps_of_took (hRows : FailedUnconfirmed s) (hCall : call.Justified s)
    (hOk : TellsTruly o s call) (hTook : Took c o s call s' call') :
    FailedUnconfirmed s' ∧ call'.Justified s' := by
  have hPlain : ∀ {s : Store} {call : Call}, call.isPlain = true → call.Justified s := by
    intro s call h
    cases call <;> trivial
  cases hTook with
  | quiet _ hCall' => exact ⟨hRows, hPlain hCall'⟩
  | verified => exact ⟨hRows, trivial⟩
  | fetched hCall' => exact ⟨hRows, hPlain hCall'⟩
  | claimed => exact ⟨hRows.setRow (by simp), trivial⟩
  | sent => exact ⟨hRows, trivial⟩
  | sendThrown hSend =>
    refine ⟨hRows, ?_⟩
    simpa [TellsTruly, tellsTruly, hSend, toldTruly, Call.Justified] using hOk
  | marked => exact ⟨hRows.setRow (by simp), justified_finish _ _⟩
  | markThrown hStatement =>
    refine ⟨hRows, ?_⟩
    simpa [TellsTruly, tellsTruly, hStatement, toldTruly, Call.Justified] using hOk
  | @recorded job msg =>
    refine ⟨hRows.setRow ?_, justified_finish _ _⟩
    intro hFailed
    rcases hCall with hUnknown | hUnconfirmed
    · simp [hUnknown] at hFailed
    · exact hUnconfirmed
  | responded =>
    refine ⟨hRows, ?_⟩
    unfold respond
    split <;> trivial

theorem confirmed_of_took (hTook : Took c o s call s' call') : s'.confirmed = s.confirmed := by
  cases hTook <;> rfl

end Steps

section Runs
variable {sdk : Sdk} {c : X402Config}

theorem failedUnconfirmed_of_reaches {start : Store} {d : Config Store Call}
    (hStart : FailedUnconfirmed start)
    (h : (program sdk c).Reaches TellsTruly (Program.idle start) d) : FailedUnconfirmed d.store := by
  refine (h.assertions FailedUnconfirmed (fun s call => call.Justified s)
    ⟨hStart, by simp [Program.idle]⟩ ?_ ?_ ?_).1
  · intro request s _
    cases request <;> trivial
  · intro o s s' call call' hRows hCall hOk hStep
    exact keeps_of_took hRows hCall hOk (took_of_step hStep)
  · intro o s s' call call' other _ _ hOther _ hStep
    have hConfirmed := confirmed_of_took (took_of_step hStep)
    cases other with
    | recordFailure job msg => simpa [Call.Justified, hConfirmed] using hOther
    | _ => trivial

theorem failed_of_untrue {o o' : Outcome} {s s' : Store} {call call' : Call}
    (hStep : step sdk c o s call = some (s', call')) (hOk : tellsTruly o s call = false) :
    ∃ s'' call'' txId, step sdk c o' s' call' = some (s'', call'') ∧
      s''.rows txId = some .failed ∧ s''.confirmed txId = true := by
  have hRecorded : ∀ job e, s' = s → call' = .recordFailure job (messageOf e) →
      toldTruly s job.txId e = false → ∃ s'' call'' txId,
        step sdk c o' s' call' = some (s'', call'') ∧ s''.rows txId = some .failed ∧
          s''.confirmed txId = true := by
    intro job e hStore hCall hUntrue
    subst hStore hCall
    simp only [toldTruly, Bool.or_eq_false_iff, Bool.not_eq_eq_eq_not, Bool.not_false] at hUntrue
    exact ⟨_, _, job.txId, rfl, by simp [hUntrue.1], hUntrue.2⟩
  cases took_of_step hStep with
  | @sendThrown job e hSend =>
    apply hRecorded job e rfl rfl
    simpa [tellsTruly, hSend] using hOk
  | @markThrown job e hStatement =>
    apply hRecorded job e rfl rfl
    simpa [tellsTruly, hStatement] using hOk
  | @sent job =>
    simp only [step] at hStep
    split at hStep
    · rename_i hSend
      simp [tellsTruly, hSend] at hOk
    · cases hStep
  | @marked job =>
    simp only [step] at hStep
    split at hStep
    · rename_i hStatement
      simp [tellsTruly, hStatement] at hOk
    · rename_i e hStatement
      have hCalls := congrArg (Option.map Prod.snd) hStep
      unfold finish at hCalls
      split at hCalls
      · cases hCalls
      · split at hCalls
        · unfold respond at hCalls
          split at hCalls <;> cases hCalls
        · cases hCalls
  | quiet hCall => cases call <;> first | cases hOk | cases hCall
  | verified hCall => cases call <;> first | cases hOk | cases hCall
  | fetched | claimed | recorded | responded => cases hOk

/-- While every error of a settlement tells truly, the failed rows are of payments that are never
confirmed; an error that does not, once recorded, is a failed row of a confirmed payment. -/
theorem failed_rows_unconfirmed {start : Store} {d : Config Store Call}
    (hStart : FailedUnconfirmed start)
    (h : (program sdk c).Reaches TellsTruly (Program.idle start) d) :
    FailedUnconfirmed d.store ∧ ∀ o o' s s' call call',
      step sdk c o s call = some (s', call') → tellsTruly o s call = false →
      ∃ s'' call'' txId, step sdk c o' s' call' = some (s'', call'') ∧
        s''.rows txId = some .failed ∧ s''.confirmed txId = true :=
  ⟨failedUnconfirmed_of_reaches hStart h, fun _ _ _ _ _ _ hStep hOk => failed_of_untrue hStep hOk⟩

end Runs

/-! Settlements of the payment of 5.00 FARM. -/

namespace Sample

def store (confirmed : Bool) : Store := ⟨fun _ => none, fun _ => confirmed, []⟩

def outcome : Outcome := ⟨none, some "BUSINESS", answers, some ⟨200, [7]⟩, .ok (), .ok 1501⟩

/-- The facilitator's call up to the broadcast. -/
def toSend : List (Move Request Outcome) :=
  .enter (.facilitate payload requirements) :: List.replicate 4 (.run 0 outcome)

def rejected : Outcome :=
  { outcome with send := .error (some "TransactionPool.Remember: overspend") }

def disconnected : Outcome :=
  { outcome with statement := .error (some "Connection terminated unexpectedly") }

end Sample

/-- The payment is confirmed, the update to `settled` fails, and the row says `failed`. -/
theorem confirmed_payment_recorded_failed : ∃ d,
    (program Sample.sdk Sample.config).Reaches anyStep (Program.idle (Sample.store true)) d ∧
      d.store.rows "PAYER" = some .failed ∧ d.store.confirmed "PAYER" = true := by
  have hRun : ((program Sample.sdk Sample.config).schedule (Sample.toSend ++
      [.run 0 Sample.outcome, .run 0 Sample.disconnected, .run 0 Sample.outcome])
      (Program.idle (Sample.store true))).any (fun d =>
        decide (d.store.rows "PAYER" = some .failed ∧ d.store.confirmed "PAYER" = true)) =
      true := by
    decide +kernel
  obtain ⟨d, hReach, hRow⟩ := Program.reaches_of_any hRun
  exact ⟨d, hReach, of_decide_eq_true hRow⟩

/-- A rejected broadcast of a payment that is never confirmed. -/
theorem rejected_payment_recorded_failed : ∃ d : Config Store Call,
    d.store.rows "PAYER" = some .failed ∧ FailedUnconfirmed d.store ∧
      ∀ o o' s s' call call', step Sample.sdk Sample.config o s call = some (s', call') →
        tellsTruly o s call = false →
        ∃ s'' call'' txId, step Sample.sdk Sample.config o' s' call' = some (s'', call'') ∧
          s''.rows txId = some .failed ∧ s''.confirmed txId = true := by
  have hRun : (((program Sample.sdk Sample.config).guarded TellsTruly).schedule (Sample.toSend ++
      [.run 0 Sample.rejected, .run 0 Sample.outcome])
      (Program.idle (Sample.store false))).any (fun d =>
        decide (d.store.rows "PAYER" = some .failed)) = true := by
    decide +kernel
  obtain ⟨d, hReach, hRow⟩ := Program.reaches_of_guarded_any hRun
  exact ⟨d, of_decide_eq_true hRow,
    failed_rows_unconfirmed (by intro txId hFailed; cases hFailed) hReach⟩

end FarmBackend.X402
