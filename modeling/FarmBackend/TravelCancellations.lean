import FarmBackend.Serial
import FarmBackend.TravelRefunds

/-!
# A cancellation of which an await fails

From its claim to its last write `cancel` has the booking in `cancelling`. Nothing else leads out of
that status: a second `cancel` wants a confirmed booking, and `adminResolve` one that needs review or
whose payment is held.
-/

namespace FarmBackend.TravelBookings
open Interleaving

set_option autoImplicit false

/-- What becomes of the await of each step. -/
abbrev Fates := Call → Reply

/-- The throw of `hotels.cancel` is caught: it is one of the answers. -/
def Fates.of (fates : Fates) : Call → Reply
  | .hotelsCancel => .returned
  | call => fates call

/-- What the users and the admins may ask for. -/
def Request.allowed : Request → Bool
  | .adminResolve _ | .cancel => true
  | _ => false

section Cancel
variable (terms : Terms)

/-- A call up to its first await that throws. -/
def broken (fates : Fates) (o : Outcome) : ℕ → Store → Call → Store
  | 0, s, _ => s
  | fuel + 1, s, call =>
    match fates.of call, step terms o s call with
    | .failed, _ | _, none => s
    | .lost, some (s', _) => s'
    | .returned, some (s', call') => broken fates o fuel s' call'

/-- What `cancel` leaves. It has five steps. -/
def afterCancel (fates : Fates) (o : Outcome) (s : Store) : Store := broken terms fates o 5 s .cancel

/-- The write that follows the answer of the hotel. -/
def answered (o : Outcome) : Call :=
  match o.cancellation with
  | .cancelled refundAmount => .refundCancelled (cancelledFarm terms refundAmount)
  | .refused | .unknown => .writeCancel true
  | .rejected => .writeCancel false

/-- The claim was committed and nothing was written after it. -/
def Abandons (fates : Fates) (o : Outcome) : Prop :=
  fates .cancel = .returned ∧ (fates .claimCancel = .lost ∨
    fates .claimCancel = .returned ∧ fates (answered terms o) = .failed)

/-- The share of the payment that is refunded when the hotel gives back `refundAmount`. -/
def share (refundAmount : ℚ) : List ℚ :=
  let farm := min (cancelledFarm terms refundAmount) terms.totalFarm
  if 0 < farm then [farm] else []

/-- The booking is in a final status, and its share has been refunded once. -/
def Finished (refundAmount : ℚ) (b : Booking) (s : Store) : Prop :=
  ∃ b', s.booking = some b' ∧ b'.status.refunded = true ∧
    b'.refunds.map Refund.amount = b.refunds.map Refund.amount ++ share terms refundAmount

/-- Requests of users and admins, one after the other. -/
def Continues : Store → Store → Prop :=
  Relation.ReflTransGen fun s s' =>
    ∃ request : Request, request.allowed = true ∧ (program terms).Alone anyStep s (enter request) s'

/-- The share has been refunded, or users and admins can still see to it. -/
def Recoverable (refundAmount : ℚ) (b : Booking) (s : Store) : Prop :=
  ∃ s', Continues terms s s' ∧ Finished terms refundAmount b s'

/-- The hotel gives `refundAmount` back when it has cancelled, now or by a later answer. -/
def Cancellation.gives (refundAmount : ℚ) : Cancellation → Prop
  | .cancelled answer => answer = refundAmount
  | _ => True

end Cancel

section Exits
variable {terms : Terms} {s s' : Store} {b : Booking} {refundAmount : ℚ} {fates : Fates} {o : Outcome}

theorem refundTx_share (hStatus : b.status = .cancelling) :
    (refundTx terms (cancelOptions (cancelledFarm terms refundAmount)) b).status = .cancelled ∧
      (refundTx terms (cancelOptions (cancelledFarm terms refundAmount)) b).refunds.map
        Refund.amount = b.refunds.map Refund.amount ++ share terms refundAmount := by
  have hMem : b.status ∈ (cancelOptions (cancelledFarm terms refundAmount)).claims := by
    rw [hStatus]
    exact List.mem_singleton_self _
  have hForm : refundTx terms (cancelOptions (cancelledFarm terms refundAmount)) b =
      if 0 < min (cancelledFarm terms refundAmount) terms.totalFarm then
        { b with
          status := .cancelled
          refunds := b.refunds ++
            [⟨min (cancelledFarm terms refundAmount) terms.totalFarm, b.hold != .completed⟩] }
      else { b with status := .cancelled } := by
    rw [refundTx, if_pos hMem]
    rfl
  rw [hForm, share]
  split
  · exact ⟨rfl, by rw [List.map_append]; rfl⟩
  · exact ⟨rfl, (List.append_nil _).symm⟩

theorem finished_refundCancelled :
    Finished terms refundAmount b
      (Store.write (refundTx terms (cancelOptions (cancelledFarm terms refundAmount)))
        { s with booking := some (b.setStatus .cancelling) }) := by
  have hStatus : (b.setStatus .cancelling).status = .cancelling := rfl
  obtain ⟨hCancelled, hRefunds⟩ := @refundTx_share terms _ refundAmount hStatus
  exact ⟨_, rfl, congrArg BookingStatus.refunded hCancelled, hRefunds⟩

/-- A confirmed hotel booking can be cancelled. -/
structure Booking.Confirmed (terms : Terms) (b : Booking) : Prop where
  hotel : terms.kind = .hotel
  confirmed : b.status = .confirmed
  ordered : b.providerOrderId.isSome = true

theorem step_cancel (h : b.Confirmed terms) (hBooking : s.booking = some b) (o : Outcome) :
    step terms o s .cancel = some (s, .claimCancel) := by
  simp only [step, hBooking, h.hotel, h.confirmed, h.ordered, and_self, if_true]

theorem step_claimCancel (h : b.Confirmed terms) (hBooking : s.booking = some b) (o : Outcome) :
    step terms o s .claimCancel =
      some ({ s with booking := some (b.setStatus .cancelling) }, .hotelsCancel) := by
  simp only [step, hBooking, h.confirmed, if_true]

theorem recoverable_of_confirmed (h : b.Confirmed terms) (hBooking : s.booking = some b) :
    Recoverable terms refundAmount b s := by
  let o : Outcome := ⟨.unknown, .returned, .cancelled refundAmount⟩
  refine ⟨_, .single ⟨.cancel, rfl, ?_⟩, finished_refundCancelled (s := s)⟩
  refine .next (anyStep_holds o _ _) (step_cancel h hBooking o) ?_
  refine .next (anyStep_holds o _ _) (step_claimCancel h hBooking o) ?_
  refine .next (anyStep_holds o _ _) rfl ?_
  refine .next (anyStep_holds o _ _) rfl ?_
  exact .ends (anyStep_holds o _ _) rfl

theorem recoverable_of_needsReview (hHotel : terms.kind = .hotel) (hStatus : b.status = .needsReview)
    (hOrdered : b.providerOrderId.isSome = true) (hBooking : s.booking = some b) :
    Recoverable terms refundAmount b s := by
  let o : Outcome := ⟨.unknown, .returned, .unknown⟩
  let confirmed : Store := { s with booking := some (b.confirm b.providerOrderId) }
  have hResolvable : b.resolvable = true := by rw [Booking.resolvable, hStatus]; rfl
  have hConfirm :
      (program terms).Alone anyStep s (enter (.adminResolve (.confirm none))) confirmed := by
    have hResolve : step terms o s (.adminResolve (.confirm none)) =
        some (s, .adminConfirm b.providerOrderId) := by
      simp only [step, hBooking, hResolvable, Bool.true_eq_false, if_false, Option.none_or]
    have hWrite : step terms o s (.adminConfirm b.providerOrderId) = some (confirmed, .done) := by
      simp only [step, hBooking, hResolvable, if_true, confirmed]
    refine .next (anyStep_holds o _ _) hResolve ?_
    refine .next (anyStep_holds o _ _) hWrite ?_
    exact .ends (anyStep_holds o _ _) rfl
  have hAgain : (b.confirm b.providerOrderId).Confirmed terms := ⟨hHotel, rfl, hOrdered⟩
  have hBooking' : confirmed.booking = some (b.confirm b.providerOrderId) := rfl
  obtain ⟨s', hRest, b', hEnd⟩ := @recoverable_of_confirmed _ _ _ refundAmount hAgain hBooking'
  exact ⟨s', .head ⟨_, rfl, hConfirm⟩ hRest, b', hEnd⟩

/-- The calls that users and admins can have running on a booking that is being cancelled. -/
def Call.waits : Call → Bool
  | .adminResolve _ | .cancel | .done => true
  | _ => false

theorem step_waits (hStatus : b.status = .cancelling) {s₁ : Store} {call call' : Call}
    (hBooking : s.booking = some b) (hWaits : call.waits = true)
    (hStep : step terms o s call = some (s₁, call')) : s₁.booking = some b ∧ call'.waits = true := by
  cases call with
  | adminResolve action =>
    have hNot : b.resolvable = false := by rw [Booking.resolvable, hStatus]; rfl
    simp only [step, hBooking, hNot, if_true, Option.some.injEq, Prod.mk.injEq] at hStep
    obtain ⟨rfl, rfl⟩ := hStep
    exact ⟨hBooking, rfl⟩
  | cancel =>
    simp only [step, hBooking, hStatus, reduceCtorEq, false_and, and_false, if_false,
      Option.some.injEq, Prod.mk.injEq] at hStep
    obtain ⟨rfl, rfl⟩ := hStep
    exact ⟨hBooking, rfl⟩
  | done => cases hStep
  | _ => cases hWaits

/-- Nobody gets a booking out of `cancelling`. -/
theorem stays_cancelling (hStatus : b.status = .cancelling) (hBooking : s.booking = some b)
    (h : Continues terms s s') : s'.booking = some b := by
  induction h with
  | refl => exact hBooking
  | tail _ hLast ih =>
    obtain ⟨request, hAllowed, hAlone⟩ := hLast
    refine hAlone.invariant (I := fun s => s.booking = some b)
      (A := fun s call => s.booking = some b ∧ call.waits = true) ?_ ?_ ⟨ih, ?_⟩
    · intro o s s₁ call call' hWaits _ hStep
      exact step_waits hStatus hWaits.1 hWaits.2 hStep
    · intro o s call hWaits _ _
      exact hWaits.1
    · cases request with
      | adminResolve action => rfl
      | cancel => rfl
      | _ => cases hAllowed

theorem not_recoverable (hStatus : b.status = .cancelling) {before : Booking}
    (hBooking : s.booking = some b) : ¬Recoverable terms refundAmount before s := by
  rintro ⟨s', hRest, b', hBooking', hFinal, -⟩
  rw [stays_cancelling hStatus hBooking hRest, Option.some.injEq] at hBooking'
  rw [← hBooking', hStatus] at hFinal
  cases hFinal

/-! What `cancel` leaves, by what becomes of its awaits. -/

theorem broken_failed {fuel : ℕ} {call : Call} (hFate : fates.of call = .failed) :
    broken terms fates o fuel s call = s := by
  cases fuel with
  | zero => rfl
  | succ fuel => simp only [broken, hFate]

theorem broken_lost {fuel : ℕ} {call call' : Call} {s₁ : Store} (hFate : fates.of call = .lost)
    (hStep : step terms o s call = some (s₁, call')) :
    broken terms fates o (fuel + 1) s call = s₁ := by
  simp only [broken, hFate, hStep]

theorem broken_returned {fuel : ℕ} {call call' : Call} {s₁ : Store}
    (hFate : fates.of call = .returned) (hStep : step terms o s call = some (s₁, call')) :
    broken terms fates o (fuel + 1) s call = broken terms fates o fuel s₁ call' := by
  simp only [broken, hFate, hStep]

/-- A write that is the last step of its call. -/
theorem broken_last {fuel : ℕ} {call : Call} {s₁ : Store} (hFate : fates.of call ≠ .failed)
    (hStep : step terms o s call = some (s₁, .done)) :
    broken terms fates o (fuel + 1) s call = s₁ := by
  cases hReply : fates.of call with
  | returned =>
    rw [broken_returned hReply hStep]
    cases fuel with
    | zero => rfl
    | succ fuel => cases hDone : fates.of .done <;> simp only [broken, hDone, step]
  | lost => exact broken_lost hReply hStep
  | failed => exact absurd hReply hFate

/-- What the last write leaves, when it is committed. -/
def settled (terms : Terms) (o : Outcome) (b : Booking) : Booking :=
  match o.cancellation with
  | .cancelled refundAmount =>
    refundTx terms (cancelOptions (cancelledFarm terms refundAmount)) (b.setStatus .cancelling)
  | .refused | .unknown => b.setStatus .needsReview
  | .rejected => b.setStatus .confirmed

theorem step_answered :
    step terms o { s with booking := some (b.setStatus .cancelling) } (answered terms o) =
      some ({ s with booking := some (settled terms o b) }, .done) := by
  unfold answered settled
  cases o.cancellation <;> rfl

theorem of_answered : fates.of (answered terms o) = fates (answered terms o) := by
  unfold answered
  cases o.cancellation <;> rfl

theorem recoverable_of_settled (h : b.Confirmed terms) (hGives : o.cancellation.gives refundAmount) :
    Recoverable terms refundAmount b { s with booking := some (settled terms o b) } := by
  unfold settled
  cases hAnswer : o.cancellation with
  | cancelled answer =>
    rw [hAnswer] at hGives
    obtain rfl : answer = refundAmount := hGives
    exact ⟨_, .refl, finished_refundCancelled (s := s)⟩
  | refused =>
    exact recoverable_of_needsReview (b := b.setStatus .needsReview) h.hotel rfl h.ordered rfl
  | unknown =>
    exact recoverable_of_needsReview (b := b.setStatus .needsReview) h.hotel rfl h.ordered rfl
  | rejected =>
    exact recoverable_of_confirmed (b := b.setStatus .confirmed) ⟨h.hotel, rfl, h.ordered⟩ rfl

/-- A cancellation can be seen to its end exactly when it has not been abandoned after its claim. -/
theorem cancellation_recoverable_iff (h : b.Confirmed terms) (hBooking : s.booking = some b)
    (hGives : o.cancellation.gives refundAmount) :
    Recoverable terms refundAmount b (afterCancel terms fates o s) ↔ ¬Abandons terms fates o := by
  have hRead := step_cancel h hBooking o
  have hClaim := step_claimCancel h hBooking o
  have hStays : ¬Recoverable terms refundAmount b
      { s with booking := some (b.setStatus .cancelling) } := not_recoverable rfl rfl
  have hConfirmed : Recoverable terms refundAmount b s := recoverable_of_confirmed h hBooking
  unfold afterCancel Abandons
  cases hFirst : fates .cancel with
  | failed =>
    have hFate : fates.of .cancel = .failed := hFirst
    rw [broken_failed hFate]
    simpa using hConfirmed
  | lost =>
    have hFate : fates.of .cancel = .lost := hFirst
    rw [broken_lost hFate hRead]
    simpa using hConfirmed
  | returned =>
    have hFate : fates.of .cancel = .returned := hFirst
    rw [broken_returned hFate hRead]
    cases hSecond : fates .claimCancel with
    | failed =>
      have hFate : fates.of .claimCancel = .failed := hSecond
      rw [broken_failed hFate]
      simpa using hConfirmed
    | lost =>
      have hFate : fates.of .claimCancel = .lost := hSecond
      rw [broken_lost hFate hClaim]
      simpa using hStays
    | returned =>
      have hFate : fates.of .claimCancel = .returned := hSecond
      have hAsk : step terms o { s with booking := some (b.setStatus .cancelling) } .hotelsCancel =
          some ({ s with booking := some (b.setStatus .cancelling) }, answered terms o) := rfl
      rw [broken_returned hFate hClaim, broken_returned rfl hAsk]
      by_cases hLast : fates (answered terms o) = .failed
      · rw [broken_failed (of_answered.trans hLast)]
        simpa [hLast] using hStays
      · rw [broken_last (of_answered.trans_ne hLast) step_answered]
        simpa [hLast] using recoverable_of_settled h hGives

end Exits

def confirmedRoom : Booking := ⟨.confirmed, some "H-1", .completed, []⟩

theorem confirmedRoom_confirmed : confirmedRoom.Confirmed room := ⟨rfl, rfl, rfl⟩

/-- Only the refund's transaction fails. -/
def refundFails : Fates
  | .refundCancelled _ => .failed
  | _ => .returned

/-- Only the reply to the claim is lost. -/
def claimLost : Fates
  | .claimCancel => .lost
  | _ => .returned

/-- The claim is rolled back, and the user can cancel again. -/
theorem recoverable_of_failed_claim :
    Recoverable room 25 confirmedRoom (afterCancel room
      (fun call => match call with | .claimCancel => .failed | _ => .returned)
      (answering .returned (.cancelled 25)) ⟨some confirmedRoom, false⟩) := by
  have hGives : (answering .returned (.cancelled 25)).cancellation.gives 25 := rfl
  refine (cancellation_recoverable_iff confirmedRoom_confirmed rfl hGives).mpr ?_
  rintro ⟨-, hLost | ⟨hReturned, -⟩⟩
  · cases hLost
  · cases hReturned

/-- The hotel has cancelled the room and gives half of its price back, and the transaction that would
refund it fails; or the claim is committed and its reply lost. The booking stays in `cancelling`. -/
theorem cancellation_abandoned :
    (afterCancel room refundFails (answering .returned (.cancelled 25))
        ⟨some confirmedRoom, false⟩).booking.map Booking.status = some .cancelling ∧
      ¬Recoverable room 25 confirmedRoom (afterCancel room refundFails
        (answering .returned (.cancelled 25)) ⟨some confirmedRoom, false⟩) ∧
      ¬Recoverable room 25 confirmedRoom (afterCancel room claimLost
        (answering .returned (.cancelled 25)) ⟨some confirmedRoom, false⟩) := by
  have hStuck : (confirmedRoom.setStatus .cancelling).status = .cancelling := rfl
  exact ⟨rfl, not_recoverable hStuck rfl, not_recoverable hStuck rfl⟩

end FarmBackend.TravelBookings
