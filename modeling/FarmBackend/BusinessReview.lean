import FarmBackend.BusinessDrafts

/-!
# What is reviewed is what was submitted

A submission writes the snapshot of what it has checked. As long as that is the content it finds, and
nobody edits what is under review or approved, the content stays that of the latest snapshot.
-/

namespace FarmBackend.BusinessDrafts
open Interleaving

set_option autoImplicit false

section Steps
variable {b b' : Business} {now : Time} {call call' : Call}

/-- An approved business stays approved. -/
structure Kept (b : Business) : Prop where
  reviewed : b.status = .underReview ∨ b.status = .approved →
    missingRequirements b.content = [] ∧ ∃ v ∈ b.verifications.head?, v.snapshot = b.content
  approved : b.wasApproved = true → b.status = .approved

/-- What a submission has checked is complete. -/
def Checked : Call → Prop
  | .submitTx content => missingRequirements content = []
  | _ => True

theorem Kept.frozen (h : Kept b) : Frozen b := by
  refine ⟨h.reviewed, ?_⟩
  intro hApproved hDraft
  have hStatus := h.approved hApproved
  rw [hDraft] at hStatus
  cases hStatus

theorem not_editable_of_approved (h : b.status = .approved) : b.status ∉ EDITABLE := by
  rw [h]
  decide

theorem not_reviewed_of_editable {status : BusinessStatus} (h : status ∈ EDITABLE) :
    ¬(status = .underReview ∨ status = .approved) := by
  rintro (rfl | rfl) <;> revert h <;> decide

/-- A decision keeps the snapshots. -/
theorem snapshot_markReviewed {f : Verification → Verification}
    (hf : ∀ v, (f v).snapshot = v.snapshot) (verifications : List Verification) :
    (markReviewed f verifications).head?.map (·.snapshot) =
      verifications.head?.map (·.snapshot) := by
  cases verifications with
  | nil => rfl
  | cons v rest =>
    unfold markReviewed
    split
    · simp only [List.head?_cons, Option.map_some, hf]
    · rfl

theorem Kept.saveTx (h : Kept b) (hOpen : b.status ∈ EDITABLE) (dto : SaveBusinessDraftDto)
    (status : BusinessStatus) : Kept (b.saveTx dto status) := by
  have hEditable : (b.saveTx dto status).status ∈ EDITABLE := by
    simp only [Business.saveTx]
    split
    · exact List.mem_cons_self
    · exact hOpen
  refine ⟨fun hReviewed => absurd hReviewed (not_reviewed_of_editable hEditable), ?_⟩
  intro hApproved
  exact absurd hOpen (not_editable_of_approved (h.approved hApproved))

theorem Kept.submitTx (h : Kept b) {content : Content} (hComplete : missingRequirements content = [])
    (hSame : b.status ∈ EDITABLE → b.content = content)
    (hTx : b.submitTx content now = some b') : Kept b' := by
  simp only [Business.submitTx, Option.ite_none_right_eq_some, Option.some.injEq] at hTx
  obtain ⟨hOpen, rfl⟩ := hTx
  refine ⟨fun _ => ?_, ?_⟩
  · rw [hSame hOpen]
    exact ⟨hComplete, _, rfl, rfl⟩
  · intro hApproved
    exact absurd hOpen (not_editable_of_approved (h.approved hApproved))

theorem Kept.reviewTx (h : Kept b) {dto : ReviewBusinessDto}
    (hTx : b.reviewTx dto now = some b') : Kept b' := by
  simp only [Business.reviewTx, Option.ite_none_right_eq_some, Option.some.injEq] at hTx
  obtain ⟨hReview, rfl⟩ := hTx
  constructor
  · intro _
    obtain ⟨hComplete, v, hHead, hSnapshot⟩ := h.reviewed (.inl hReview)
    refine ⟨hComplete, ?_⟩
    have hSame := snapshot_markReviewed (f := fun v => { v with
      status := dto.decision.next, reviewedAt := some now, decisionNotes := dto.trimmed })
      (fun _ => rfl) b.verifications
    rw [Option.mem_def.mp hHead, Option.map_some] at hSame
    obtain ⟨w, hFirst, hw⟩ := Option.map_eq_some_iff.mp hSame
    exact ⟨w, hFirst, hw.trans hSnapshot⟩
  · intro hApproved
    rw [Bool.or_eq_true, beq_iff_eq] at hApproved
    rcases hApproved with hBefore | hNow
    · have hStatus := h.approved hBefore
      rw [hReview] at hStatus
      cases hStatus
    · simp only [hNow, Decision.next]

theorem step_kept (h : Kept b) (hChecked : Checked call) (hOk : Undisturbed now b call)
    (hStep : step now b call = some (b', call')) : Kept b' ∧ Checked call' := by
  cases call with
  | saveDraft dto =>
    simp only [step, Option.ite_none_right_eq_some, Option.some.injEq, Prod.mk.injEq] at hStep
    obtain ⟨_, rfl, rfl⟩ := hStep
    exact ⟨h, trivial⟩
  | saveTx dto status =>
    cases hStep
    exact ⟨h.saveTx hOk dto status, trivial⟩
  | submit =>
    simp only [step, Option.ite_none_right_eq_some, Option.some.injEq, Prod.mk.injEq] at hStep
    obtain ⟨⟨_, hComplete⟩, rfl, rfl⟩ := hStep
    exact ⟨h, hComplete⟩
  | submitTx content =>
    simp only [step, Option.map_eq_some_iff, Prod.mk.injEq] at hStep
    obtain ⟨_, hTx, rfl, rfl⟩ := hStep
    exact ⟨h.submitTx hChecked hOk hTx, trivial⟩
  | adminReview own dto =>
    simp only [step, Option.ite_none_right_eq_some, Option.some.injEq, Prod.mk.injEq] at hStep
    obtain ⟨_, rfl, rfl⟩ := hStep
    exact ⟨h, trivial⟩
  | reviewTx dto =>
    simp only [step, Option.map_eq_some_iff, Prod.mk.injEq] at hStep
    obtain ⟨_, hTx, rfl, rfl⟩ := hStep
    exact ⟨h.reviewTx hTx, trivial⟩
  | done => cases hStep

end Steps

/-- An application that has not been submitted. -/
structure New (b : Business) : Prop where
  status : b.status = .draft
  fresh : b.wasApproved = false

/-- Any edits, submissions and reviews: where no edit is written over what is reviewed and every
submission finds what it has checked, nobody approves what was not submitted. -/
theorem reviewed_details_frozen {start : Business} {c : Config Business Call} (hStart : New start)
    (h : program.Reaches Undisturbed (Program.idle start) c) : Frozen c.store := by
  have hInit : Kept start := by
    constructor
    · intro hReviewed
      rw [hStart.status] at hReviewed
      rcases hReviewed with hStatus | hStatus <;> cases hStatus
    · intro hApproved
      rw [hStart.fresh] at hApproved
      cases hApproved
  refine (h.assertions Kept (fun _ call => Checked call) ⟨hInit, ?_⟩ ?_ ?_ ?_).1.frozen
  · exact fun _ hMem => absurd hMem List.not_mem_nil
  · intro request b _
    cases request <;> trivial
  · intro now b b' call call' hKept hChecked hOk hStep
    exact step_kept hKept hChecked hOk hStep
  · intro _ _ _ _ _ _ _ _ hOther _ _
    exact hOther

/-! An application of one person in both roles, with two documents. -/

def person (role : Role) : Person := ⟨role, "A. Farmer", none, none, none, none, none, none⟩

def completeContent : Content where
  fields _ := some "given"
  persons := [person .director, person .beneficialOwner]
  documents := [⟨.certificateOfIncorporation, "https://files/1", none⟩,
    ⟨.proofOfAddress, "https://files/2", none⟩]

def application : Business := ⟨.draft, completeContent, none, [], false⟩

/-- An edit without persons and documents. -/
def nobody : SaveBusinessDraftDto := ⟨fun _ => none, some [], some []⟩

def times (index n : ℕ) : List (Move Request Time) := List.replicate n (.run index 7)

def review (decision : Decision) : Request := .adminReview false ⟨decision, some "see file"⟩

/-- Rejected, submitted once more and approved. -/
def approvedAgain : List (Move Request Time) :=
  .enter .submit :: times 0 2 ++ .enter (review .reject) :: times 1 2 ++ .enter .submit :: times 2 2 ++
    .enter (review .approve) :: times 3 2

theorem reviewed_details_approved : ∃ c, program.Reaches Undisturbed (Program.idle application) c ∧
    c.store.status = .approved ∧ c.store.verifications.length = 2 ∧ Frozen c.store := by
  have hRun : ((program.guarded Undisturbed).schedule approvedAgain (Program.idle application)).any
      (fun c => decide (c.store.status = .approved ∧ c.store.verifications.length = 2)) = true := by
    decide +kernel
  obtain ⟨c, hReach, hEnd⟩ := Program.reaches_of_guarded_any hRun
  obtain ⟨hStatus, hLength⟩ := of_decide_eq_true hEnd
  exact ⟨c, hReach, hStatus, hLength, reviewed_details_frozen ⟨rfl, rfl⟩ hReach⟩

/-- An edit has read the draft and is written when the business is approved. -/
def editedLate : List (Move Request Time) :=
  .enter (.saveDraft nobody) :: times 0 1 ++ .enter .submit :: times 1 2 ++
    .enter (review .approve) :: times 2 2 ++ times 0 1

/-- A submission has read the content before an edit. -/
def submittedLate : List (Move Request Time) :=
  .enter .submit :: times 0 1 ++ .enter (.saveDraft nobody) :: times 1 2 ++ times 0 1

/-- An edit has read a rejected application and is written when it is approved. -/
def draftAgain : List (Move Request Time) :=
  .enter .submit :: times 0 2 ++ .enter (review .reject) :: times 1 2 ++
    .enter (.saveDraft nobody) :: times 2 1 ++ .enter .submit :: times 3 2 ++
    .enter (review .approve) :: times 4 2 ++ times 2 1

theorem approved_without_review : New application ∧
    (∃ c, program.Reaches anyStep (Program.idle application) c ∧
      c.store.status = .approved ∧ missingRequirements c.store.content ≠ []) ∧
    (∃ c, program.Reaches anyStep (Program.idle application) c ∧ c.store.status = .underReview ∧
      ∀ v ∈ c.store.verifications.head?, v.snapshot ≠ c.store.content) ∧
    ∃ c, program.Reaches anyStep (Program.idle application) c ∧
      c.store.wasApproved = true ∧ c.store.status = .draft := by
  have hEdited : (program.schedule editedLate (Program.idle application)).any (fun c =>
      decide (c.store.status = .approved ∧ missingRequirements c.store.content ≠ [])) = true := by
    decide +kernel
  have hSubmitted : (program.schedule submittedLate (Program.idle application)).any (fun c =>
      decide (c.store.status = .underReview ∧
        ∀ v ∈ c.store.verifications.head?, v.snapshot ≠ c.store.content)) = true := by
    decide +kernel
  have hDraft : (program.schedule draftAgain (Program.idle application)).any (fun c =>
      decide (c.store.wasApproved = true ∧ c.store.status = .draft)) = true := by
    decide +kernel
  refine ⟨⟨rfl, rfl⟩, ?_, ?_, ?_⟩
  · obtain ⟨c, hReach, hEnd⟩ := Program.reaches_of_any hEdited
    exact ⟨c, hReach, of_decide_eq_true hEnd⟩
  · obtain ⟨c, hReach, hEnd⟩ := Program.reaches_of_any hSubmitted
    exact ⟨c, hReach, of_decide_eq_true hEnd⟩
  · obtain ⟨c, hReach, hEnd⟩ := Program.reaches_of_any hDraft
    exact ⟨c, hReach, of_decide_eq_true hEnd⟩

end FarmBackend.BusinessDrafts
