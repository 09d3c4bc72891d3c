import FarmBackend.TravelBookings

/-!
# One refund for a booking

A booking that has been refunded is in a final status, so every claim by status misses it. A
cancellation that has claimed the booking owns it until its own write, as long as `book` does not
write into it.
-/

namespace FarmBackend.TravelBookings
open Interleaving

set_option autoImplicit false

/-- The call has claimed the booking for a cancellation. -/
def Call.cancels : Call → Bool
  | .hotelsCancel | .writeCancel _ | .refundCancelled _ => true
  | _ => false

/-! What a step can do. -/

inductive Took (terms : Terms) (o : Outcome) (s : Store) : Call → Store → Call → Prop where
  | aside {call call' : Call} (hCancels : call'.cancels = call.cancels)
      (hOrdered : call' ≠ .refundBooked true) : Took terms o s call s call'
  | held (hNone : s.booking = none) :
      Took terms o s .holdAndCreate { s with booking := some held } .createOrder
  | confirmed {id : String} : Took terms o s (.confirm id) (s.write (Booking.confirm (some id))) .done
  | unconfirmed {id : String} {s' : Store} (hReply : o.reply ≠ .returned) :
      Took terms o s (.confirm id) s' (.refundBooked true)
  | reviewed : Took terms o s .review (s.write (Booking.setStatus .needsReview)) .done
  | refundedBooked {ordered : Bool} :
      Took terms o s (.refundBooked ordered) { s.write (refundTx terms {}) with
        refundedOrder := s.refundedOrder || (ordered && s.booking.any Booking.resolvable) } .done
  | resolved {b : Booking} {providerOrderId : Option String} (hBooking : s.booking = some b)
      (hResolvable : b.resolvable = true) :
      Took terms o s (.adminConfirm providerOrderId)
        { s with booking := some (b.confirm providerOrderId) } .done
  | refunded : Took terms o s .refund (s.write (refundTx terms {})) .done
  | claimed {b : Booking} (hBooking : s.booking = some b) (hConfirmed : b.status = .confirmed) :
      Took terms o s .claimCancel { s with booking := some (b.setStatus .cancelling) } .hotelsCancel
  | wrote {unknown : Bool} :
      Took terms o s (.writeCancel unknown)
        (s.write (Booking.setStatus (if unknown then .needsReview else .confirmed))) .done
  | refundedCancelled {farm : ℚ} :
      Took terms o s (.refundCancelled farm) (s.write (refundTx terms (cancelOptions farm))) .done

section Steps
variable {terms : Terms} {o : Outcome} {s s' : Store} {call call' : Call} {b : Booking}

theorem took_of_step (h : step terms o s call = some (s', call')) :
    Took terms o s call s' call' := by
  cases call with
  | book =>
    cases h
    refine .aside ?_ ?_ <;> split <;> simp [Call.cancels]
  | holdAndCreate =>
    simp only [step] at h
    split at h
    · cases h
      exact .aside rfl (by simp)
    · rename_i hNone
      cases h
      exact .held (Option.not_isSome_iff_eq_none.mp hNone)
  | createOrder =>
    cases h
    refine .aside ?_ ?_ <;> split <;> simp [Call.cancels]
  | confirm id =>
    simp only [step] at h
    split at h
    · cases h
      exact .confirmed
    · rename_i hLost
      cases h
      exact .unconfirmed (by simp [hLost])
    · rename_i hFailed
      cases h
      exact .unconfirmed (by simp [hFailed])
  | review =>
    cases h
    exact .reviewed
  | refundBooked ordered =>
    cases h
    exact .refundedBooked
  | adminResolve action =>
    simp only [step] at h
    split at h
    · cases h
    · split at h <;> cases h
      · exact .aside rfl (by simp)
      · refine .aside ?_ ?_ <;> cases action <;> simp [Call.cancels]
  | adminConfirm providerOrderId =>
    simp only [step] at h
    split at h
    · cases h
    · rename_i b hBooking
      split at h
      · rename_i hResolvable
        cases h
        exact .resolved hBooking hResolvable
      · cases h
        exact .aside rfl (by simp)
  | refund =>
    cases h
    exact .refunded
  | cancel =>
    simp only [step] at h
    split at h <;> cases h
    refine .aside ?_ ?_ <;> split <;> simp [Call.cancels]
  | claimCancel =>
    simp only [step] at h
    split at h
    · cases h
    · rename_i b hBooking
      split at h
      · rename_i hConfirmed
        cases h
        exact .claimed hBooking hConfirmed
      · cases h
        exact .aside rfl (by simp)
  | hotelsCancel =>
    cases h
    refine .aside ?_ ?_ <;> split <;> simp [Call.cancels]
  | writeCancel unknown =>
    cases h
    exact .wrote
  | refundCancelled farm =>
    cases h
    exact .refundedCancelled
  | done => cases h

/-! What `refundTx` does to a row. -/

theorem refundTx_of_not_mem {opts : RefundOptions} (h : b.status ∉ opts.claims) :
    refundTx terms opts b = b := by
  simp [refundTx, h]

theorem refundTx_status {opts : RefundOptions} (h : b.status ∈ opts.claims) :
    (refundTx terms opts b).status = opts.status.getD .failedRefunded := by
  simp only [refundTx, h, if_true]
  split <;> rfl

theorem refundTx_refunds {opts : RefundOptions} (h : b.status ∈ opts.claims) :
    (refundTx terms opts b).refunds = b.refunds ∨
      ∃ refund : Refund, refund.amount ≤ terms.totalFarm ∧
        (refundTx terms opts b).refunds = b.refunds ++ [refund] := by
  simp only [refundTx, h, if_true]
  split
  · exact .inr ⟨_, min_le_right _ _, rfl⟩
  · exact .inl rfl

end Steps

/-! What a row keeps. -/

/-- The statuses in which a refund leaves a booking. -/
def BookingStatus.refunded : BookingStatus → Bool
  | .failedRefunded | .cancelled => true
  | _ => false

structure Booking.Kept (terms : Terms) (b : Booking) : Prop where
  once : b.refunds.length ≤ 1
  bounded : ∀ refund ∈ b.refunds, refund.amount ≤ terms.totalFarm
  final : b.refunds ≠ [] → b.status.refunded = true

section Rows
variable {terms : Terms} {b : Booking}

theorem Booking.Kept.fresh (h : b.Kept terms) (hStatus : b.status.refunded = false) :
    b.refunds = [] := by
  by_contra hSome
  rw [h.final hSome] at hStatus
  cases hStatus

theorem Booking.kept_of_fresh (h : b.refunds = []) : b.Kept terms := by
  refine ⟨by simp [h], by simp [h], ?_⟩
  intro hSome
  exact absurd h hSome

/-- A refund of a row that was still in one of the statuses it claims. -/
theorem refundTx_kept {opts : RefundOptions} (h : b.Kept terms)
    (hClaims : ∀ status ∈ opts.claims, status.refunded = false)
    (hFinal : (opts.status.getD .failedRefunded).refunded = true) :
    (refundTx terms opts b).Kept terms := by
  by_cases hMem : b.status ∈ opts.claims
  · have hFresh := h.fresh (hClaims _ hMem)
    have hStatus : (refundTx terms opts b).status.refunded = true := by
      rw [refundTx_status hMem]
      exact hFinal
    have hRefunds : (refundTx terms opts b).refunds = b.refunds ∨
        ∃ refund : Refund, refund.amount ≤ terms.totalFarm ∧
          (refundTx terms opts b).refunds = b.refunds ++ [refund] := refundTx_refunds hMem
    rcases hRefunds with hNone | ⟨refund, hAmount, hOne⟩
    · exact Booking.kept_of_fresh (hNone.trans hFresh)
    · rw [hFresh, List.nil_append] at hOne
      refine ⟨by simp [hOne], ?_, fun _ => hStatus⟩
      intro other hOther
      rw [hOne, List.mem_singleton] at hOther
      rw [hOther]
      exact hAmount
  · rw [refundTx_of_not_mem hMem]
    exact h

theorem refundTx_default_kept (h : b.Kept terms) : (refundTx terms {} b).Kept terms := by
  refine refundTx_kept h ?_ rfl
  intro status hMem
  simp only [List.mem_cons, List.not_mem_nil, or_false] at hMem
  rcases hMem with rfl | rfl <;> rfl

theorem refundTx_cancel_kept {farm : ℚ} (h : b.Kept terms) :
    (refundTx terms (cancelOptions farm) b).Kept terms := by
  refine refundTx_kept h ?_ rfl
  intro status hMem
  rw [List.mem_singleton.mp hMem]
  rfl

end Rows

structure Kept (terms : Terms) (s : Store) : Prop where
  row : ∀ b ∈ s.booking, b.Kept terms
  ordered : s.refundedOrder = false

section Runs
variable {terms : Terms} {o : Outcome} {s s' : Store} {call call' : Call}
  {c : Config Store Call}

theorem Kept.write {f : Booking → Booking} (h : Kept terms s)
    (hRow : ∀ b ∈ s.booking, (f b).Kept terms) : Kept terms (s.write f) := by
  refine ⟨?_, h.ordered⟩
  intro b' hMem
  obtain ⟨b, hBooking, rfl⟩ := Option.mem_map.mp hMem
  exact hRow b hBooking

theorem untouched_iff {b : Booking} (h : s.untouched = true) (hMem : b ∈ s.booking) :
    b.refunds = [] ∧ b.status ≠ .cancelling := by
  rw [Option.mem_def] at hMem
  simpa [Store.untouched, hMem] using h

/-! A cancellation owns the booking that it has claimed. -/

def cancelling : Ticket Store Call where
  isOpen s := ∀ b ∈ s.booking, b.status ≠ .cancelling
  fired _ := 0
  holds call := call.cancels.toNat

theorem refundTx_cancelling {b : Booking} (h : b.status ≠ .cancelling → False) :
    (refundTx terms {} b).status = .cancelling := by
  have hStatus : b.status = .cancelling := by
    by_contra hOther
    exact h hOther
  rw [refundTx_of_not_mem (by simp [hStatus])]
  exact hStatus

theorem isOpen_refund (h : cancelling.isOpen (s.write (refundTx terms {}))) :
    cancelling.isOpen s := by
  intro b hMem hCancelling
  refine h _ (Option.mem_map_of_mem _ hMem) (refundTx_cancelling ?_)
  intro hOther
  exact hOther hCancelling

theorem cancelling_step (hHeeds : Heeds o s call) (hTook : Took terms o s call s' call') :
    cancelling.Keeps s call s' call' ∨ cancelling.Takes s call s' call' := by
  cases hTook with
  | aside hCancels _ =>
    refine .inl ⟨?_, fun hOpen => .inl hOpen⟩
    simp [cancelling, hCancels]
  | held hNone =>
    refine .inl ⟨le_refl _, fun _ => .inl ?_⟩
    intro b hMem
    rw [hNone] at hMem
    cases hMem
  | confirmed =>
    refine .inl ⟨le_refl _, fun _ => .inl ?_⟩
    intro b hMem
    exact (untouched_iff hHeeds.1 hMem).2
  | unconfirmed hReply => exact absurd hHeeds.2 hReply
  | reviewed =>
    refine .inl ⟨le_refl _, fun _ => .inl ?_⟩
    intro b hMem
    exact (untouched_iff hHeeds hMem).2
  | refundedBooked | refunded => exact .inl ⟨le_refl _, fun hOpen => .inl (isOpen_refund hOpen)⟩
  | @resolved b _ hBooking hResolvable =>
    refine .inl ⟨le_refl _, fun _ => .inl ?_⟩
    intro b' hMem hCancelling
    rw [hBooking, Option.mem_some_iff] at hMem
    subst hMem
    simp [Booking.resolvable, hCancelling] at hResolvable
  | @claimed b hBooking hConfirmed =>
    refine .inr ⟨?_, ?_, le_refl _⟩
    · intro b' hMem
      rw [hBooking, Option.mem_some_iff] at hMem
      subst hMem
      simp [hConfirmed]
    · intro hOpen
      exact hOpen _ rfl rfl
  | wrote | refundedCancelled => exact .inl ⟨Nat.zero_le _, fun _ => .inr Nat.zero_lt_one⟩

theorem cancelling_sound (h : (program terms).Reaches Heeds (Program.idle empty) c) :
    cancelling.Sound c := by
  refine Ticket.Sound.reaches h ⟨Nat.zero_le _, fun _ => rfl⟩ ?_ ?_
  · intro request
    cases request <;> rfl
  · intro o s s' call call' _ _ _ hHeeds hStep
    exact cancelling_step hHeeds (took_of_step hStep)

/-- A running cancellation finds the booking as it has left it. -/
theorem status_of_cancels {before after : List Call} {b : Booking}
    (hSound : cancelling.Sound ⟨s, before ++ call :: after⟩) (hCancels : call.cancels = true)
    (hMem : b ∈ s.booking) : b.status = .cancelling := by
  by_contra hOther
  have hOpen : cancelling.isOpen s := by
    intro b' hMem'
    rw [Option.mem_unique hMem' hMem]
    exact hOther
  have hSpent := hSound.open_spent hOpen
  rw [Ticket.spent_split] at hSpent
  simp [cancelling, hCancels] at hSpent

/-! The invariant. -/

theorem kept_step (h : Kept terms s) (hCall : call ≠ .refundBooked true) (hHeeds : Heeds o s call)
    (hCancels : call.cancels = true → ∀ b ∈ s.booking, b.status = .cancelling)
    (hTook : Took terms o s call s' call') : Kept terms s' ∧ call' ≠ .refundBooked true := by
  cases hTook with
  | aside _ hOrdered => exact ⟨h, hOrdered⟩
  | held hNone =>
    refine ⟨⟨?_, h.ordered⟩, nofun⟩
    intro b hMem
    rw [← Option.mem_some_iff.mp hMem]
    exact Booking.kept_of_fresh rfl
  | confirmed =>
    refine ⟨h.write ?_, nofun⟩
    intro b hMem
    exact Booking.kept_of_fresh (untouched_iff hHeeds.1 hMem).1
  | unconfirmed hReply => exact absurd hHeeds.2 hReply
  | reviewed =>
    refine ⟨h.write ?_, nofun⟩
    intro b hMem
    exact Booking.kept_of_fresh (untouched_iff hHeeds hMem).1
  | @refundedBooked ordered =>
    have hOrdered : ordered = false := by
      by_contra hTrue
      rw [Bool.not_eq_false] at hTrue
      exact hCall (by rw [hTrue])
    have hWrite : Kept terms (s.write (refundTx terms {})) :=
      h.write fun b hMem => refundTx_default_kept (h.row b hMem)
    refine ⟨⟨hWrite.row, ?_⟩, nofun⟩
    simp [h.ordered, hOrdered]
  | refunded => exact ⟨h.write fun b hMem => refundTx_default_kept (h.row b hMem), nofun⟩
  | @resolved b _ hBooking hResolvable =>
    refine ⟨⟨?_, h.ordered⟩, nofun⟩
    intro b' hMem
    rw [← Option.mem_some_iff.mp hMem]
    refine Booking.kept_of_fresh ((h.row b hBooking).fresh ?_)
    simp only [Booking.resolvable, Bool.or_eq_true, beq_iff_eq] at hResolvable
    rcases hResolvable with hStatus | hStatus <;> rw [hStatus] <;> rfl
  | @claimed b hBooking hConfirmed =>
    refine ⟨⟨?_, h.ordered⟩, nofun⟩
    intro b' hMem
    rw [← Option.mem_some_iff.mp hMem]
    refine Booking.kept_of_fresh ((h.row b hBooking).fresh ?_)
    rw [hConfirmed]
    rfl
  | wrote =>
    refine ⟨h.write ?_, nofun⟩
    intro b hMem
    refine Booking.kept_of_fresh ((h.row b hMem).fresh ?_)
    rw [hCancels rfl b hMem]
    rfl
  | refundedCancelled =>
    exact ⟨h.write fun b hMem => refundTx_cancel_kept (h.row b hMem), nofun⟩

theorem kept_reaches (h : (program terms).Reaches Heeds (Program.idle empty) c) :
    Kept terms c.store := by
  refine (h.assertions_among (Kept terms) (fun _ call => call ≠ .refundBooked true)
    ⟨⟨nofun, rfl⟩, nofun⟩ ?_ ?_ ?_).1
  · intro request s _
    cases request <;> exact nofun
  · intro o s s' call call' before after hRun hKept hCall hHeeds hStep
    refine kept_step hKept hCall hHeeds ?_ (took_of_step hStep)
    intro hCancels b hMem
    exact status_of_cancels (cancelling_sound hRun) hCancels hMem
  · intro o s s' call call' before after other _ _ _ _ hOther _ _
    exact hOther

/-- In every run in which `book` writes into no refund and no cancellation, and confirms what it has
ordered. -/
theorem refunded_once (h : (program terms).Reaches Heeds (Program.idle empty) c) :
    Consistent terms c.store := by
  have hKept := kept_reaches h
  refine ⟨fun b hMem => (hKept.row b hMem).once, fun b hMem => (hKept.row b hMem).bounded, ?_,
    hKept.ordered⟩
  intro b hMem hConfirmed
  refine (hKept.row b hMem).fresh ?_
  rw [hConfirmed]
  rfl

end Runs

/-- A hotel room of 100 FARM. -/
def room : Terms := ⟨.hotel, 100, 50⟩

def answering (reply : Reply) (cancellation : Cancellation) : Outcome :=
  ⟨.created "H-1", reply, cancellation⟩

def runs (index n : ℕ) (o : Outcome) : List (Move Request Outcome) :=
  List.replicate n (.run index o)

/-- The order is created, and the transaction that confirms it fails. -/
def confirmFails : List (Move Request Outcome) :=
  .enter .book :: runs 0 5 (answering .failed .unknown)

/-- An admin refunds the booking while its order is being created. -/
def refundedInFlight : List (Move Request Outcome) :=
  .enter .book :: runs 0 2 (answering .returned .unknown) ++
    .enter (.adminResolve .refund) :: runs 1 2 (answering .returned .unknown) ++
    runs 0 2 (answering .returned .unknown)

/-- And the user cancels the confirmed booking. -/
def cancelledAfter : List (Move Request Outcome) :=
  refundedInFlight ++ .enter .cancel :: runs 2 4 (answering .returned (.cancelled 50))

def Store.refundCount (s : Store) : ℕ := (s.booking.elim [] Booking.refunds).length

/-- A created order is refunded by its own book call; a confirmed booking has been refunded; and it
is refunded again. -/
theorem refunded_otherwise :
    (∃ c, (program room).Reaches anyStep (Program.idle empty) c ∧ c.store.refundedOrder = true ∧
      c.store.booking.map Booking.status = some .failedRefunded ∧ ¬ Consistent room c.store) ∧
    (∃ c, (program room).Reaches anyStep (Program.idle empty) c ∧
      c.store.booking.map Booking.status = some .confirmed ∧ c.store.refundCount = 1 ∧
      ¬ Consistent room c.store) ∧
    ∃ c, (program room).Reaches anyStep (Program.idle empty) c ∧ c.store.refundCount = 2 ∧
      ¬ Consistent room c.store := by
  refine ⟨?_, ?_, ?_⟩
  · have hRun : ((program room).schedule confirmFails (Program.idle empty)).any (fun c =>
        c.store.refundedOrder &&
          c.store.booking.map Booking.status == some .failedRefunded) = true := by
      decide +kernel
    obtain ⟨c, hReach, hEnd⟩ := Program.reaches_of_any hRun
    simp only [Bool.and_eq_true, beq_iff_eq] at hEnd
    refine ⟨c, hReach, hEnd.1, hEnd.2, ?_⟩
    intro hConsistent
    rw [hConsistent.ordered] at hEnd
    exact Bool.noConfusion hEnd.1
  · have hRun : ((program room).schedule refundedInFlight (Program.idle empty)).any (fun c =>
        c.store.booking.map Booking.status == some .confirmed && c.store.refundCount == 1) = true := by
      decide +kernel
    obtain ⟨c, hReach, hEnd⟩ := Program.reaches_of_any hRun
    simp only [Bool.and_eq_true, beq_iff_eq] at hEnd
    refine ⟨c, hReach, hEnd.1, hEnd.2, ?_⟩
    intro hConsistent
    obtain ⟨b, hBooking, hStatus⟩ := Option.map_eq_some_iff.mp hEnd.1
    have hCount := hEnd.2
    rw [Store.refundCount, hBooking] at hCount
    simp [hConsistent.confirmed b hBooking hStatus] at hCount
  · have hRun : ((program room).schedule cancelledAfter (Program.idle empty)).any (fun c =>
        c.store.refundCount == 2) = true := by
      decide +kernel
    obtain ⟨c, hReach, hEnd⟩ := Program.reaches_of_any hRun
    have hCount : c.store.refundCount = 2 := beq_iff_eq.mp hEnd
    refine ⟨c, hReach, hCount, ?_⟩
    intro hConsistent
    cases hBooking : c.store.booking with
    | none => simp [Store.refundCount, hBooking] at hCount
    | some b =>
      have hOnce := hConsistent.once b hBooking
      simp only [Store.refundCount, hBooking, Option.elim_some] at hCount
      omega

/-- The booking is confirmed, and the hotel cancels it for half of its price. -/
theorem refunded_by_cancel :
    ∃ c, (program room).Reaches Heeds (Program.idle empty) c ∧
      c.store.booking.map Booking.status = some .cancelled ∧ c.store.refundCount = 1 ∧
      Consistent room c.store := by
  have hRun : (((program room).guarded Heeds).schedule
      (.enter .book :: runs 0 4 (answering .returned .unknown) ++
        .enter .cancel :: runs 1 4 (answering .returned (.cancelled 25)))
        (Program.idle empty)).any (fun c =>
      c.store.booking.map Booking.status == some .cancelled && c.store.refundCount == 1) = true := by
    decide +kernel
  obtain ⟨c, hReach, hEnd⟩ := Program.reaches_of_guarded_any hRun
  simp only [Bool.and_eq_true, beq_iff_eq] at hEnd
  exact ⟨c, hReach, hEnd.1, hEnd.2, refunded_once hReach⟩

end FarmBackend.TravelBookings
