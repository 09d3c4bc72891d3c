import FarmBackend.KycStatuses

/-!
# Approvals that stand

The history of a call is the number of approvals it has seen: while that is the number in the store,
what the call has read of the user is what an approval would have changed.
-/

namespace FarmBackend.KycStatuses
open Interleaving

set_option autoImplicit false

/-! What a step can do. -/

inductive Took (s : Store) : Call → Store → Call → Prop where
  | recorded {event : DiditEvent} (hNew : event.eventId ∉ s.events) :
      Took s (.processWebhook event) (s.record event.eventId) .done
  | applied {event : DiditEvent} {status : KycStatus} (hNew : event.eventId ∉ s.events) :
      Took s (.processWebhook event) ((s.record event.eventId).apply event.eventId status) .done
  | repeated {event : DiditEvent} : Took s (.processWebhook event) s .done
  | read (hUser : s.kycStatus ≠ .verified) : Took s .submit s (.findSubmission s.approvals)
  | found {existing : Option ℕ} {seen : ℕ} :
      Took s (.findSubmission seen) s (.saveDocument existing seen)
  | saved {existing : Option ℕ} {seen : ℕ} :
      Took s (.saveDocument existing seen) (s.save existing) (.updateUser seen)
  | submitted {seen : ℕ} : Took s (.updateUser seen) { s with kycStatus := .pending } .done
  | looked {document : ℕ} {status : ReviewStatus} :
      Took s (.review document status) s (.reviewDocument document status s.approvals)
  | reviewed {document seen : ℕ} {status : ReviewStatus} :
      Took s (.reviewDocument document status seen)
        { s with documents := s.documents.set document status.kycStatus } (.reviewUser status seen)
  | decided {status : ReviewStatus} {seen : ℕ} :
      Took s (.reviewUser status seen) { s with
        kycStatus := status.kycStatus
        standing := s.standing && !overrules s status seen } .done

section Steps
variable {o : Outcome} {s s' : Store} {call call' : Call}

theorem took_processWebhook (s : Store) (event : DiditEvent) :
    Took s (.processWebhook event) (processWebhook s event) .done := by
  unfold processWebhook
  split
  · exact .repeated
  · rename_i hNew
    dsimp only
    split
    · exact .recorded hNew
    · split
      · exact .recorded hNew
      · split
        · exact .applied hNew
        · exact .recorded hNew

theorem took_of_step (h : step o s call = some (s', call')) : Took s call s' call' := by
  cases call with
  | processWebhook event =>
    cases h
    exact took_processWebhook s event
  | submit =>
    simp only [step] at h
    split at h <;> cases h
    rename_i hUser
    exact .read hUser
  | findSubmission seen =>
    simp only [step] at h
    split at h
    · cases h
      exact .found
    · split at h <;> cases h
      exact .found
  | saveDocument existing seen =>
    cases h
    exact .saved
  | updateUser seen =>
    cases h
    exact .submitted
  | review document status =>
    simp only [step] at h
    split at h <;> cases h
    exact .looked
  | reviewDocument document status seen =>
    cases h
    exact .reviewed
  | reviewUser status seen =>
    cases h
    exact .decided
  | done => cases h

end Steps

/-! What the store keeps, and what a submission knows. -/

structure Kept (s : Store) : Prop where
  consistent : Consistent s
  recorded : ∀ eventId ∈ s.effects, eventId ∈ s.events

/-- No approval stands that the submission has not seen. -/
def Unapproved (s : Store) (seen : ℕ) : Prop :=
  seen ≤ s.approvals ∧ (seen = s.approvals → s.standing = false)

def Knows (s : Store) : Call → Prop
  | .findSubmission seen | .saveDocument _ seen | .updateUser seen => Unapproved s seen
  | _ => True

section Invariant
variable {o : Outcome} {s s' : Store} {call call' : Call}

theorem applied_verified {current status : KycStatus}
    (h : current = .verified ∨ status = .verified) : applied current status = .verified := by
  unfold applied
  rcases h with rfl | rfl
  · split
    · rename_i hCase
      exact hCase.resolve_right (not_not_intro rfl)
    · rfl
  · exact if_pos (.inl rfl)

theorem approvals_apply_le (s : Store) (eventId : String) (status : KycStatus) :
    s.approvals ≤ (s.apply eventId status).approvals := by
  simp only [Store.apply]
  split <;> omega

/-- Only an approval makes one stand, and it is counted. -/
theorem standing_apply {eventId : String} {status : KycStatus}
    (h : (s.apply eventId status).approvals = s.approvals) :
    (s.apply eventId status).standing = s.standing := by
  simp only [Store.apply] at h ⊢
  split at h
  · omega
  · rename_i hStatus
    rw [decide_eq_false hStatus, Bool.or_false]

theorem kept_step (h : Kept s) (hKnows : Knows s call) (hHeeds : Heeds o s call)
    (hTook : Took s call s' call') : Kept s' ∧ Knows s' call' := by
  have hRecord (eventId : String) : ∀ old ∈ s.effects, old ∈ (s.record eventId).events :=
    fun old hOld => List.mem_cons_of_mem _ (h.recorded old hOld)
  cases hTook with
  | recorded _ => exact ⟨⟨⟨h.consistent.once, h.consistent.verified⟩, hRecord _⟩, trivial⟩
  | @applied event status hNew =>
    refine ⟨⟨⟨?_, ?_⟩, ?_⟩, trivial⟩
    · exact List.nodup_cons.mpr ⟨fun hOld => hNew (h.recorded _ hOld), h.consistent.once⟩
    · intro hStanding
      refine applied_verified ?_
      rcases Bool.or_eq_true_iff.mp hStanding with hOld | hStatus
      · exact .inl (h.consistent.verified hOld)
      · exact .inr (of_decide_eq_true hStatus)
    · intro eventId hMem
      rcases List.mem_cons.mp hMem with rfl | hOld
      · exact List.mem_cons_self
      · exact hRecord _ eventId hOld
  | repeated => exact ⟨h, trivial⟩
  | read hUser =>
    refine ⟨h, Nat.le_refl _, fun _ => ?_⟩
    exact Bool.eq_false_iff.mpr fun hStanding => hUser (h.consistent.verified hStanding)
  | found => exact ⟨h, hKnows⟩
  | @saved existing seen =>
    cases existing with
    | none | some _ => exact ⟨⟨⟨h.consistent.once, h.consistent.verified⟩, h.recorded⟩, hKnows⟩
  | @submitted seen =>
    refine ⟨⟨⟨h.consistent.once, ?_⟩, h.recorded⟩, trivial⟩
    intro hStanding
    have hNone := hKnows.2 (hHeeds hStanding)
    rw [show s.standing = true from hStanding] at hNone
    cases hNone
  | looked => exact ⟨h, trivial⟩
  | reviewed => exact ⟨⟨⟨h.consistent.once, h.consistent.verified⟩, h.recorded⟩, trivial⟩
  | @decided status seen =>
    refine ⟨⟨⟨h.consistent.once, ?_⟩, h.recorded⟩, trivial⟩
    intro hStanding
    obtain ⟨hBefore, hKeeps⟩ := Bool.and_eq_true_iff.mp hStanding
    rw [Bool.not_eq_true'] at hKeeps
    rcases hHeeds hBefore with rfl | hOverrules
    · rfl
    · rw [hKeeps] at hOverrules
      cases hOverrules

/-- Approvals are never taken back, and one that is not counted does not come to stand. -/
theorem unapproved_step {seen : ℕ} (h : Unapproved s seen) (hTook : Took s call s' call') :
    Unapproved s' seen := by
  obtain ⟨hSeen, hNone⟩ := h
  cases hTook with
  | @applied event status _ =>
    have hLe := approvals_apply_le (s.record event.eventId) event.eventId status
    refine ⟨Nat.le_trans hSeen hLe, ?_⟩
    intro hSame
    have hOld : seen = s.approvals := Nat.le_antisymm hSeen (hSame ▸ hLe)
    refine (standing_apply (hSame.symm.trans hOld)).trans (hNone hOld)
  | @saved existing _ =>
    cases existing with
    | none | some _ => exact ⟨hSeen, hNone⟩
  | decided =>
    refine ⟨hSeen, fun hSame => ?_⟩
    rw [hNone hSame, Bool.false_and]
  | recorded _ | repeated | read _ | found | submitted | looked | reviewed => exact ⟨hSeen, hNone⟩

theorem knows_other {other : Call} (h : Knows s other) (hTook : Took s call s' call') :
    Knows s' other := by
  cases other with
  | findSubmission _ | saveDocument _ _ | updateUser _ => exact unapproved_step h hTook
  | _ => exact trivial

end Invariant

section Runs
variable {kycStatus : KycStatus} {documents : List KycStatus} {events : List String}
  {c : Config Store Call}

theorem kept_reaches
    (h : program.Reaches Heeds (Program.idle (start kycStatus documents events)) c) :
    Kept c.store ∧ ∀ call ∈ c.calls, Knows c.store call := by
  refine h.assertions Kept Knows ⟨⟨⟨List.nodup_nil, nofun⟩, nofun⟩, nofun⟩ ?_ ?_ ?_
  · intro request s _
    cases request <;> exact trivial
  · intro o s s' call call' hKept hKnows hHeeds hStep
    exact kept_step hKept hKnows hHeeds (took_of_step hStep)
  · intro o s s' call call' other _ _ hOther _ hStep
    exact knows_other hOther (took_of_step hStep)

/-- In every run in which no submission or review writes over an approval that it has not seen. -/
theorem approval_stands
    (h : program.Reaches Heeds (Program.idle (start kycStatus documents events)) c) :
    Consistent c.store := (kept_reaches h).1.consistent

end Runs

def approved (eventId : String) : DiditEvent := ⟨eventId, false, "Approved", true⟩

/-- The approval comes while a submission is uploading its images. -/
def resubmitted : List (Move Request Outcome) :=
  [.enter .submit, .run 0 ⟨0⟩, .run 0 ⟨0⟩, .enter (.webhook (approved "e1")), .run 1 ⟨0⟩,
    .run 0 ⟨0⟩, .run 0 ⟨0⟩]

theorem approval_overwritten :
    ∃ c, program.Reaches anyStep (Program.idle (start .none [] [])) c ∧
      c.store.standing = true ∧ c.store.kycStatus = .pending ∧ ¬ Consistent c.store := by
  have hRun : (program.schedule resubmitted (Program.idle (start .none [] []))).any (fun c =>
      c.store.standing && c.store.kycStatus == .pending) = true := by
    decide +kernel
  obtain ⟨c, hReach, hEnd⟩ := Program.reaches_of_any hRun
  simp only [Bool.and_eq_true, beq_iff_eq] at hEnd
  obtain ⟨hStanding, hPending⟩ := hEnd
  refine ⟨c, hReach, hStanding, hPending, ?_⟩
  intro hConsistent
  have hVerified := hConsistent.verified hStanding
  rw [hPending] at hVerified
  cases hVerified

/-- A submission, its approval sent twice, a later refusal of Didit, and a review that approves. -/
theorem approval_kept :
    ∃ c, program.Reaches Heeds (Program.idle (start .none [] [])) c ∧ c.store.standing = true ∧
      c.store.kycStatus = .verified ∧ c.store.effects = ["e2", "e1"] ∧ Consistent c.store := by
  have hRun : ((program.guarded Heeds).schedule
      [.enter .submit, .run 0 ⟨0⟩, .run 0 ⟨0⟩, .run 0 ⟨0⟩, .run 0 ⟨0⟩,
        .enter (.webhook (approved "e1")), .run 1 ⟨0⟩, .enter (.webhook (approved "e1")), .run 2 ⟨0⟩,
        .enter (.webhook ⟨"e2", false, "Declined", true⟩), .run 3 ⟨0⟩,
        .enter (.reviewKyc 0 .verified), .run 4 ⟨0⟩, .run 4 ⟨0⟩, .run 4 ⟨0⟩]
      (Program.idle (start .none [] []))).any (fun c =>
        c.store.standing && c.store.kycStatus == .verified &&
          c.store.effects == ["e2", "e1"]) = true := by
    decide +kernel
  obtain ⟨c, hReach, hEnd⟩ := Program.reaches_of_guarded_any hRun
  simp only [Bool.and_eq_true, beq_iff_eq] at hEnd
  exact ⟨c, hReach, hEnd.1.1, hEnd.1.2, hEnd.2, approval_stands hReach⟩

end FarmBackend.KycStatuses
