import FarmBackend.PayoutDecisions

/-!
# Decisions that agree with the provider

A call that has claimed the withdrawal keeps it `PROCESSING` and unanswered until its submission is
answered, and no other call submits. So a rejection that comes before the claim or after the answer
cannot be overtaken by an acceptance.
-/

namespace FarmBackend.PayoutDecisions
open Interleaving
open Withdrawals (WithdrawalStatus ApprovalStatus)

set_option autoImplicit false

namespace Call

/-- The call has claimed the withdrawal and its submission is still to be answered. -/
def submits : Call → Bool
  | .prepare | .initiateTransfer | .createPayout => true
  | _ => false

/-- The call neither submits nor has the withdrawal settled for a reason. -/
def free : Call → Bool
  | .prepare | .initiateTransfer | .createPayout | .reconcile _ _ => false
  | .markAsSuccess source | .markAsSuccessTx source _ | .rejectWithdrawal source
  | .rejectWithdrawalTx source _ => source == .admin
  | _ => true

end Call

/-! What a step can do. -/

inductive Took (crypto : Bool) (o : Outcome) (s : Store) : Call → Store → Call → Prop where
  | aside {call call' : Call} (metadata : Metadata) (hSubmits : call.submits = false)
      (hFree : call'.free = true) : Took crypto o s call (s.setMetadata metadata) call'
  | claimed {call call' : Call} {metadata : Metadata} (hPending : s.status = .pending)
      (hSubmits : call.submits = false) (hClaims : call'.submits = true) :
      Took crypto o s call { s with status := .processing, metadata := metadata } call'
  | prepared : Took crypto o s .prepare s .initiateTransfer
  | stopped : Took crypto o s .prepare s .done
  | refused {call : Call} (hSubmits : call.submits = true) :
      Took crypto o s call (s.answer false) (.rejectWithdrawal .submission)
  | answered {call call' : Call} {accepted : Bool} (hSubmits : call.submits = true)
      (hFree : call'.free = true) : Took crypto o s call (s.answer accepted) call'
  | threw (hThrows : o.throws = true) :
      Took crypto o s .recordTransfer s (.rejectWithdrawal .submission)
  | asked {metadata : Metadata} {report : Report} (hReports : s.Reports report) :
      Took crypto o s (.getPayout metadata) s (.reconcile metadata report)
  | told {report : Report} (hReports : s.Reports report) :
      Took crypto o s .transferEvent s (settle report)
  | reconciled {metadata : Metadata} {report : Report} :
      Took crypto o s (.reconcile metadata report)
        (s.setMetadata { metadata with payoutStatus := reportStatus report }) (settle report)
  | marking {source : Source} :
      Took crypto o s (.markAsSuccess source) s (.markAsSuccessTx source s.metadata)
  | rejecting {source : Source} :
      Took crypto o s (.rejectWithdrawal source) s (.rejectWithdrawalTx source s.metadata)
  | completed {source : Source} {metadata metadata' : Metadata} (hOpen : s.status.isOpen = true) :
      Took crypto o s (.markAsSuccessTx source metadata)
        { s with status := .completed, metadata := metadata', reserved := false } .done
  | rejected {source : Source} {metadata metadata' : Metadata} (hOpen : s.status.isOpen = true) :
      Took crypto o s (.rejectWithdrawalTx source metadata)
        { s with status := .failed, metadata := metadata', reserved := false } .done
  | returned (hAccepted : s.accepted = true) :
      Took crypto o s .failPayout { s with returned := true } .done

section Steps
variable {crypto : Bool} {o : Outcome} {s s' : Store} {call call' : Call}

/-- A step that leaves the store as it was. -/
theorem Took.still (hSubmits : call.submits = false) (hFree : call'.free = true) :
    Took crypto o s call s call' :=
  .aside s.metadata hSubmits hFree

theorem took_of_step (h : step crypto o s call = some (s', call')) :
    Took crypto o s call s' call' := by
  cases call with
  | processWithdrawal =>
    cases h
    refine .still rfl ?_
    split <;> rfl
  | claimProcessing =>
    simp only [step] at h
    split at h
    · rename_i hPending
      cases h
      exact .claimed hPending rfl rfl
    · cases h
      exact .still rfl rfl
  | prepare =>
    simp only [step] at h
    split at h
    · cases h
      exact .refused rfl
    · simp only [Option.some.injEq, Prod.mk.injEq] at h
      obtain ⟨rfl, rfl⟩ := h
      split
      · exact .prepared
      · exact .stopped
  | initiateTransfer =>
    simp only [step] at h
    split at h
    · cases h
      exact .answered rfl rfl
    · cases h
      exact .refused rfl
    · cases h
      exact .answered rfl rfl
  | recordTransfer =>
    simp only [step, Option.some.injEq, Prod.mk.injEq] at h
    obtain ⟨rfl, rfl⟩ := h
    split
    · rename_i hThrows
      exact .threw hThrows
    · exact .still rfl rfl
  | submitTransaction status =>
    simp only [step] at h
    split at h
    · cases h
      exact .still rfl rfl
    split at h
    · cases h
      exact .still rfl rfl
    split at h
    · cases h
      exact .still rfl rfl
    · cases h
      exact .still rfl rfl
  | findPayout metadata =>
    simp only [step] at h
    split at h
    · cases h
      exact .still rfl rfl
    · simp only [Option.ite_none_right_eq_some, Option.some.injEq, Prod.mk.injEq] at h
      obtain ⟨-, rfl, rfl⟩ := h
      exact .still rfl rfl
  | recordUnknown | submit | payoutUnknown | verifyPayout _ | adminReject =>
    cases h
    exact .still rfl rfl
  | recordLookup _ | writeUnknown _ | writeVerified _ _ =>
    cases h
    exact .aside _ rfl rfl
  | claimPayout metadata =>
    simp only [step] at h
    split at h
    · rename_i hPending
      cases h
      exact .claimed hPending rfl rfl
    · cases h
      exact .still rfl rfl
  | createPayout =>
    simp only [step] at h
    split at h <;> cases h <;> exact .answered rfl rfl
  | recordPayout _ _ | verify | webhook =>
    cases h
    refine .still rfl ?_
    split <;> rfl
  | writePayout status =>
    cases h
    refine .aside _ rfl ?_
    split <;> rfl
  | getPayout metadata =>
    simp only [step, Option.ite_none_right_eq_some, Option.some.injEq, Prod.mk.injEq] at h
    obtain ⟨hReports, rfl, rfl⟩ := h
    exact .asked hReports
  | reconcile metadata report =>
    cases h
    exact .reconciled
  | reconcileCandidate =>
    cases h
    refine .still rfl ?_
    split
    · rfl
    · split <;> rfl
  | findByExternalId =>
    simp only [step] at h
    split at h
    · cases h
      exact .still rfl rfl
    · simp only [Option.ite_none_right_eq_some, Option.some.injEq, Prod.mk.injEq] at h
      obtain ⟨-, rfl, rfl⟩ := h
      exact .still rfl rfl
  | transferEvent =>
    simp only [step, Option.ite_none_right_eq_some, Option.some.injEq, Prod.mk.injEq] at h
    obtain ⟨hReports, rfl, rfl⟩ := h
    exact .told hReports
  | markAsSuccess source =>
    cases h
    split
    · exact .marking
    · exact .still rfl rfl
  | markAsSuccessTx source metadata =>
    simp only [step] at h
    split at h
    · cases h
      exact .still rfl rfl
    · rename_i hOpen
      simp only [Option.ite_none_right_eq_some, Option.some.injEq, Prod.mk.injEq] at h
      obtain ⟨-, rfl, rfl⟩ := h
      exact .completed (by simpa using hOpen)
  | rejectWithdrawal source =>
    cases h
    split
    · exact .rejecting
    · exact .still rfl rfl
  | rejectWithdrawalTx source metadata =>
    simp only [step] at h
    split at h
    · cases h
      exact .still rfl rfl
    · rename_i hOpen
      cases h
      exact .rejected (by simpa using hOpen)
  | adminApprove =>
    cases h
    refine .still rfl ?_
    split <;> rfl
  | failPayout =>
    simp only [step, Option.ite_none_right_eq_some, Option.some.injEq, Prod.mk.injEq] at h
    obtain ⟨hAccepted, rfl, rfl⟩ := h
    exact .returned hAccepted
  | done => cases h

/-! One submission. -/

def submission : Ticket Store Call where
  isOpen s := s.status = .pending
  fired s := s.answered.toNat
  holds call := call.submits.toNat

theorem submits_settle (report : Report) : (settle report).submits = false := by
  cases report <;> rfl

theorem submits_of_free (h : call.free = true) : call.submits = false := by
  cases call <;> first | rfl | cases h

theorem submission_step (hTook : Took crypto o s call s' call') :
    submission.Keeps s call s' call' ∨ submission.Takes s call s' call' := by
  have hRejects : Call.submits (.rejectWithdrawal .submission) = false := rfl
  have hReconciles : ∀ metadata report, Call.submits (.reconcile metadata report) = false :=
    fun _ _ => rfl
  have hEvent : Call.submits .transferEvent = false := rfl
  cases hTook with
  | aside metadata hSubmits hFree =>
    refine .inl ⟨?_, fun hOpen => .inl hOpen⟩
    simp [submission, hSubmits, submits_of_free hFree, Store.setMetadata]
  | claimed hPending hSubmits hClaims =>
    refine .inr ⟨hPending, by simp [submission], ?_⟩
    simp [submission, hSubmits, hClaims]
  | prepared => exact .inl ⟨le_refl _, fun hOpen => .inl hOpen⟩
  | stopped => exact .inl ⟨Nat.le_succ _, fun hOpen => .inl hOpen⟩
  | refused hSubmits =>
    refine .inl ⟨?_, fun hOpen => .inl hOpen⟩
    simp [submission, hSubmits, Store.answer, hRejects]
  | answered hSubmits hFree =>
    refine .inl ⟨?_, fun hOpen => .inl hOpen⟩
    simp [submission, hSubmits, Store.answer, submits_of_free hFree]
  | threw _ | asked _ | marking | rejecting | returned _ =>
    exact .inl ⟨le_refl _, fun hOpen => .inl hOpen⟩
  | told _ =>
    refine .inl ⟨?_, fun hOpen => .inl hOpen⟩
    simp [submission, submits_settle, hEvent]
  | reconciled =>
    refine .inl ⟨?_, fun hOpen => .inl hOpen⟩
    simp [submission, submits_settle, hReconciles, Store.setMetadata]
  | completed _ | rejected _ => exact .inl ⟨le_refl _, fun hOpen => by cases hOpen⟩

/-! What the store keeps, and what a call knows. -/

structure Kept (s : Store) : Prop where
  answered : s.accepted = true → s.answered = true
  returned : s.returned = true → s.accepted = true
  pending : s.status = .pending → s.answered = false
  completed : s.status = .completed → s.accepted = true
  failed : s.status = .failed → s.accepted = true → s.returned = true

theorem Kept.unaccepted (h : Kept s) (hAnswered : s.answered = false) : s.accepted = false := by
  cases hAccepted : s.accepted with
  | false => rfl
  | true =>
    rw [h.answered hAccepted] at hAnswered
    cases hAnswered

/-- Why a withdrawal may be completed. -/
def Paid (s : Store) : Source → Prop
  | .admin => True
  | .submission => False
  | .report => s.accepted = true

/-- Why a withdrawal may be refunded. -/
def Unpaid (s : Store) : Source → Prop
  | .admin => True
  | .submission => s.answered = true ∧ s.accepted = false
  | .report => s.returned = true

def Knows (s : Store) : Call → Prop
  | .prepare | .initiateTransfer | .createPayout => s.status = .processing ∧ s.answered = false
  | .reconcile _ report => s.Reports report
  | .markAsSuccess source | .markAsSuccessTx source _ => Paid s source
  | .rejectWithdrawal source | .rejectWithdrawalTx source _ => Unpaid s source
  | _ => True

theorem knows_of_free (h : call.free = true) : Knows s call := by
  cases call with
  | prepare | initiateTransfer | createPayout | reconcile _ _ => cases h
  | markAsSuccess source | markAsSuccessTx source _ | rejectWithdrawal source
  | rejectWithdrawalTx source _ =>
    cases source with
    | admin => exact trivial
    | submission | report => cases h
  | _ => exact trivial

theorem knows_settle {report : Report} (h : s.Reports report) : Knows s (settle report) := by
  cases report with
  | paid | failed => exact h
  | other => exact trivial

theorem knows_of_submits (h : call.submits = true) (hKnows : Knows s call) :
    s.status = .processing ∧ s.answered = false := by
  cases call with
  | prepare | initiateTransfer | createPayout => exact hKnows
  | _ => cases h

theorem submits_knows (h : call.submits = true) (hStatus : s.status = .processing)
    (hAnswered : s.answered = false) : Knows s call := by
  cases call with
  | prepare | initiateTransfer | createPayout => exact ⟨hStatus, hAnswered⟩
  | _ => cases h

theorem kept_answer (h : Kept s) {accepted : Bool} (hStatus : s.status = .processing) :
    Kept (s.answer accepted) := by
  refine ⟨fun _ => rfl, ?_, ?_, ?_, ?_⟩
  · intro hReturned
    simp [Store.answer, h.returned hReturned]
  · intro hPending
    rw [show (s.answer accepted).status = s.status from rfl, hStatus] at hPending
    cases hPending
  · intro hCompleted
    rw [show (s.answer accepted).status = s.status from rfl, hStatus] at hCompleted
    cases hCompleted
  · intro hFailed
    rw [show (s.answer accepted).status = s.status from rfl, hStatus] at hFailed
    cases hFailed

/-- A refund that may be made leaves no payout behind. -/
theorem unpaid_refund {source : Source} {metadata : Metadata} (h : Kept s)
    (hKnows : Unpaid s source) (hHeeds : Heeds o s (.rejectWithdrawalTx source metadata))
    (hOpen : s.status.isOpen = true) (hAccepted : s.accepted = true) : s.returned = true := by
  cases source with
  | submission =>
    rw [hKnows.2] at hAccepted
    cases hAccepted
  | report => exact hKnows
  | admin =>
    cases hStatus : s.status with
    | processing => exact (hHeeds hStatus).2 hAccepted
    | pending =>
      rw [h.unaccepted (h.pending hStatus)] at hAccepted
      cases hAccepted
    | completed | failed =>
      rw [hStatus] at hOpen
      cases hOpen

theorem paid_success {source : Source} {metadata : Metadata} (hKnows : Paid s source)
    (hHeeds : Heeds o s (.markAsSuccessTx source metadata)) (hOpen : s.status.isOpen = true) :
    s.accepted = true := by
  cases source with
  | submission => exact hKnows.elim
  | report => exact hKnows
  | admin => exact hHeeds hOpen

theorem kept_step (h : Kept s) (hKnows : Knows s call) (hHeeds : Heeds o s call)
    (hTook : Took crypto o s call s' call') : Kept s' ∧ Knows s' call' := by
  cases hTook with
  | aside metadata _ hFree => exact ⟨⟨h.1, h.2, h.3, h.4, h.5⟩, knows_of_free hFree⟩
  | claimed hPending _ hClaims =>
    have hAnswered := h.pending hPending
    exact ⟨⟨h.1, h.2, nofun, nofun, nofun⟩, submits_knows hClaims rfl hAnswered⟩
  | prepared => exact ⟨h, hKnows⟩
  | stopped => exact ⟨h, trivial⟩
  | refused hSubmits =>
    obtain ⟨hStatus, hAnswered⟩ := knows_of_submits hSubmits hKnows
    refine ⟨kept_answer h hStatus, rfl, ?_⟩
    simp [Store.answer, h.unaccepted hAnswered]
  | answered hSubmits hFree =>
    obtain ⟨hStatus, -⟩ := knows_of_submits hSubmits hKnows
    exact ⟨kept_answer h hStatus, knows_of_free hFree⟩
  | threw hThrows =>
    rw [show o.throws = false from hHeeds] at hThrows
    cases hThrows
  | asked hReports => exact ⟨h, hReports⟩
  | told hReports => exact ⟨h, knows_settle hReports⟩
  | reconciled => exact ⟨⟨h.1, h.2, h.3, h.4, h.5⟩, knows_settle hKnows⟩
  | marking => exact ⟨h, hKnows⟩
  | rejecting => exact ⟨h, hKnows⟩
  | completed hOpen =>
    have hAccepted := paid_success hKnows hHeeds hOpen
    exact ⟨⟨h.1, h.2, nofun, fun _ => hAccepted, nofun⟩, trivial⟩
  | rejected hOpen =>
    have hReturned := unpaid_refund h hKnows hHeeds hOpen
    exact ⟨⟨h.1, h.2, nofun, nofun, fun _ => hReturned⟩, trivial⟩
  | returned hAccepted =>
    exact ⟨⟨h.1, fun _ => hAccepted, h.3, h.4, fun _ _ => rfl⟩, trivial⟩

/-! What the others know. -/

/-- What any step keeps, but for the answer of the one submission. -/
theorem history_step (hTook : Took crypto o s call s' call') :
    (s.answered = true → s'.answered = true) ∧ (s.accepted = true → s'.accepted = true) ∧
      (s.returned = true → s'.returned = true) := by
  cases hTook with
  | refused _ | answered _ _ =>
    refine ⟨fun _ => rfl, ?_, id⟩
    intro hAccepted
    simp [Store.answer, hAccepted]
  | returned _ => exact ⟨id, id, fun _ => rfl⟩
  | _ => exact ⟨id, id, id⟩

/-- Only a submission is answered. -/
theorem unanswered_step (hTook : Took crypto o s call s' call') (hSubmits : call.submits = false) :
    s'.answered = s.answered ∧ s'.accepted = s.accepted := by
  cases hTook with
  | refused hOwn | answered hOwn _ =>
    rw [hSubmits] at hOwn
    cases hOwn
  | _ => exact ⟨rfl, rfl⟩

/-- While a submission is unanswered, nothing settles the withdrawal. -/
theorem processing_step (h : Kept s) (hKnows : Knows s call) (hHeeds : Heeds o s call)
    (hTook : Took crypto o s call s' call') (hStatus : s.status = .processing)
    (hAnswered : s.answered = false) : s'.status = .processing := by
  have hAccepted := h.unaccepted hAnswered
  cases hTook with
  | claimed _ _ _ => rfl
  | completed hOpen =>
    rw [paid_success hKnows hHeeds hOpen] at hAccepted
    cases hAccepted
  | @rejected source metadata _ hOpen =>
    cases source with
    | submission =>
      rw [hKnows.1] at hAnswered
      cases hAnswered
    | report =>
      rw [h.returned hKnows] at hAccepted
      cases hAccepted
    | admin =>
      rw [(hHeeds hStatus).1] at hAnswered
      cases hAnswered
  | _ => exact hStatus

theorem reports_step {report : Report} (hTook : Took crypto o s call s' call')
    (hReports : s.Reports report) : s'.Reports report := by
  obtain ⟨-, hAccepted, hReturned⟩ := history_step hTook
  cases report with
  | paid => exact hAccepted hReports
  | failed => exact hReturned hReports
  | other => exact trivial

theorem knows_other {other : Call} (h : Kept s) (hKnows : Knows s call) (hOther : Knows s other)
    (hHeeds : Heeds o s call) (hTook : Took crypto o s call s' call')
    (hApart : other.submits = true → call.submits = false) : Knows s' other := by
  obtain ⟨hAnswered, hAccepted, hReturned⟩ := history_step hTook
  have hUnpaid : ∀ source, Unpaid s source → Unpaid s' source := by
    intro source hSource
    cases source with
    | admin => exact trivial
    | report => exact hReturned hSource
    | submission =>
      refine ⟨hAnswered hSource.1, ?_⟩
      have hSubmits : call.submits = false := by
        by_contra hOwn
        rw [Bool.not_eq_false] at hOwn
        have hDone : s.answered = true := hSource.1
        rw [(knows_of_submits hOwn hKnows).2] at hDone
        cases hDone
      rw [(unanswered_step hTook hSubmits).2]
      exact hSource.2
  have hPaid : ∀ source, Paid s source → Paid s' source := by
    intro source hSource
    cases source with
    | admin => exact trivial
    | submission => exact hSource
    | report => exact hAccepted hSource
  have hSubmission : other.submits = true → Knows s' other := by
    intro hSubmits
    obtain ⟨hStatus, hNone⟩ := knows_of_submits hSubmits hOther
    refine submits_knows hSubmits (processing_step h hKnows hHeeds hTook hStatus hNone) ?_
    rw [(unanswered_step hTook (hApart hSubmits)).1]
    exact hNone
  cases other with
  | prepare | initiateTransfer | createPayout => exact hSubmission rfl
  | reconcile _ report => exact reports_step hTook hOther
  | markAsSuccess source | markAsSuccessTx source _ => exact hPaid source hOther
  | rejectWithdrawal source | rejectWithdrawalTx source _ => exact hUnpaid source hOther
  | _ => exact trivial

end Steps

section Runs
variable {crypto : Bool} {ok : Guard Store Call Outcome} {c : Config Store Call}

theorem submission_sound (h : (program crypto).Reaches ok (Program.idle created) c) :
    submission.Sound c := by
  refine Ticket.Sound.reaches h ⟨Nat.zero_le _, fun _ => rfl⟩ ?_ ?_
  · intro request
    cases request <;> rfl
  · intro o s s' call call' _ _ _ _ hStep
    exact submission_step (took_of_step hStep)

theorem kept_reaches (h : (program crypto).Reaches Heeds (Program.idle created) c) :
    Kept c.store := by
  refine (h.assertions_among Kept Knows ⟨?_, nofun⟩ ?_ ?_ ?_).1
  · exact ⟨nofun, nofun, fun _ => rfl, nofun, nofun⟩
  · intro request s _
    cases request <;> exact trivial
  · intro o s s' call call' _ _ _ hKept hKnows hHeeds hStep
    exact kept_step hKept hKnows hHeeds (took_of_step hStep)
  · intro o s s' call call' before after other hRun hMem hKept hKnows hOther hHeeds hStep
    refine knows_other hKept hKnows hOther hHeeds (took_of_step hStep) ?_
    intro hSubmits
    have hApart := (submission_sound hRun).apart hMem
    by_contra hOwn
    rw [Bool.not_eq_false] at hOwn
    simp only [submission, hSubmits, hOwn, Bool.toNat_true] at hApart
    omega

/-- In every run in which the admin decides as the provider has, no accepted payout is refunded and
nothing is completed that was not accepted. -/
theorem decided_as_paid (h : (program crypto).Reaches Heeds (Program.idle created) c) :
    Consistent c.store := by
  have hKept := kept_reaches h
  exact ⟨fun hFailed _ => hKept.failed hFailed, hKept.completed⟩

end Runs

def answering (answer : Answer) : Outcome where
  throws := false
  recipient := true
  answer := answer
  found := false
  named := true
  status := .other
  code := false
  report := .paid
  funds := true

def runs (index n : ℕ) : List (Move Request Outcome) :=
  List.replicate n (.run index (answering .accepted))

/-- The admin rejects a bank withdrawal between its claim and its transfer. -/
def rejectedInFlight : List (Move Request Outcome) :=
  .enter .processWithdrawal :: runs 0 2 ++ .enter .adminReject :: runs 1 3 ++ runs 0 2

/-- The admin approves a withdrawal that nobody has submitted. -/
def approvedUnpaid : List (Move Request Outcome) := .enter .adminApprove :: runs 0 3

/-- What the admin rejected has been sent, and what the admin approved has not. -/
theorem decided_against_provider :
    (∃ c, (program false).Reaches anyStep (Program.idle created) c ∧ c.store.status = .failed ∧
      c.store.reserved = false ∧ c.store.accepted = true ∧ ¬ Consistent c.store) ∧
    ∃ c, (program true).Reaches anyStep (Program.idle created) c ∧ c.store.status = .completed ∧
      ¬ Consistent c.store := by
  constructor
  · have hRun : ((program false).schedule rejectedInFlight (Program.idle created)).any (fun c =>
        c.store.status == .failed && !c.store.reserved && c.store.accepted &&
          !c.store.returned) = true := by
      decide +kernel
    obtain ⟨c, hReach, hEnd⟩ := Program.reaches_of_any hRun
    simp only [Bool.and_eq_true, beq_iff_eq, Bool.not_eq_true'] at hEnd
    obtain ⟨⟨⟨hFailed, hFree⟩, hAccepted⟩, hReturned⟩ := hEnd
    refine ⟨c, hReach, hFailed, hFree, hAccepted, ?_⟩
    intro hConsistent
    rw [hConsistent.refunded hFailed hFree hAccepted] at hReturned
    cases hReturned
  · have hRun : ((program true).schedule approvedUnpaid (Program.idle created)).any (fun c =>
        c.store.status == .completed && !c.store.accepted) = true := by
      decide +kernel
    obtain ⟨c, hReach, hEnd⟩ := Program.reaches_of_any hRun
    simp only [Bool.and_eq_true, beq_iff_eq, Bool.not_eq_true'] at hEnd
    refine ⟨c, hReach, hEnd.1, ?_⟩
    intro hConsistent
    rw [hConsistent.completed hEnd.1] at hEnd
    exact Bool.noConfusion hEnd.2

/-- The transfer is accepted, and the admin approves before the webhook comes. -/
theorem approved_after_acceptance :
    ∃ c, (program false).Reaches Heeds (Program.idle created) c ∧ c.store.status = .completed ∧
      Consistent c.store := by
  have hRun : (((program false).guarded Heeds).schedule
      (.enter .processWithdrawal :: runs 0 4 ++ .enter .adminApprove :: runs 1 3)
        (Program.idle created)).any (fun c => c.store.status == .completed) = true := by
    decide +kernel
  obtain ⟨c, hReach, hEnd⟩ := Program.reaches_of_guarded_any hRun
  exact ⟨c, hReach, beq_iff_eq.mp hEnd, decided_as_paid hReach⟩

end FarmBackend.PayoutDecisions
