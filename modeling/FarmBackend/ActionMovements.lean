import FarmBackend.ActionRequests

/-!
# Money moves once for a request

Who has claimed a request has locked it until its own `catch` returns it to pending, and has moved
nothing before it pays. So a request that is pending has moved nothing as long as the `catch` is not
reached after a payment.
-/

namespace FarmBackend.ActionRequests
open Interleaving

set_option autoImplicit false

/-- How far a call is. -/
inductive Stage where
  | outside
  | checking
  | paying
  | paid
  | flight
  deriving DecidableEq

namespace Call

def stage : Call → Stage
  | .checkCaps | .claimAction => .checking
  | .sendFunds | .readIntent | .claimIntent | .payIntent | .resetIntent | .findHotel | .holdHotel
  | .reopen => .paying
  | .recordIntent | .recordPayment | .checkAmount | .orderHotel | .settleHotel _ | .execute
  | .auditExecuted | .failAction | .auditFailed => .paid
  | .holdFlight _ => .flight
  | _ => .outside

/-- The call has claimed the request. -/
def locked (call : Call) : Bool := call.stage == .paying || call.stage == .paid

end Call

/-! What a step can do. -/

inductive Took (terms : Terms) (o : Outcome) (s : Store) : Call → Store → Call → Prop where
  | aside {call call' : Call} {s' : Store} (hStatus : s'.status = s.status)
      (hMoved : s'.moved = s.moved)
      (hStage : call'.stage = .outside ∨ call'.stage = call.stage ∨
        (call.stage = .paying ∧ call'.stage = .paid)) : Took terms o s call s' call'
  | checked (hAction : terms.action ≠ .bookFlight) : Took terms o s .confirmAction s .checkCaps
  | decided {call call' : Call} {s' : Store} (hStatus : s'.status ≠ .pending)
      (hMoved : s'.moved = s.moved) (hStage : call'.stage = .outside ∨ call'.stage = call.stage) :
      Took terms o s call s' call'
  | claimed (hPending : s.status = .pending) :
      Took terms o s .claimAction { s with status := .processing } (pay terms)
  | moved {call call' : Call} {s' : Store} (movement : Movement) (hPaying : call.stage = .paying)
      (hStatus : s'.status = s.status) (hMoved : s'.moved = movement :: s.moved)
      (hPaid : call'.stage = .paid) : Took terms o s call s' call'
  | threw {call : Call} {s' : Store} (hPaid : call.stage = .paid)
      (hStatus : s'.status = .pending → s.status = .pending) (hMoved : s'.moved = s.moved)
      (hNone : Heeds terms o s call → s.moved = []) : Took terms o s call s' .reopen
  | reopened : Took terms o s .reopen { s with status := .pending } .done
  | flightChecked {key : String} (hAction : terms.action = .bookFlight) :
      Took terms o s (.checkAiAction key) s (.holdFlight key)
  | flightHeld {key : String} (hNew : key ∉ s.flights) :
      Took terms o s (.holdFlight key)
        { s.move (.flightHold key) with flights := key :: s.flights } .orderFlight

section Steps
variable {terms : Terms} {o : Outcome} {s s' t : Store} {call call' next : Call}

theorem attempt_cases (h : attempt o s t next = (s', call')) :
    (o.throws = true ∧ (s' = s ∨ s' = t) ∧ call' = .reopen) ∨ (s' = t ∧ call' = next) := by
  unfold attempt at h
  split at h
  · rename_i hThrows
    rw [Prod.mk.injEq] at h
    refine .inl ⟨hThrows, ?_, h.2.symm⟩
    rw [← h.1]
    split
    · exact .inr rfl
    · exact .inl rfl
  · rw [Prod.mk.injEq] at h
    exact .inr ⟨h.1.symm, h.2.symm⟩

/-- A statement before the payment. -/
theorem took_attempt_paying (h : attempt o s t next = (s', call'))
    (hPaying : call.stage = .paying) (hNext : next.stage = .paying)
    (hStatus : t.status = s.status) (hMoved : t.moved = s.moved) :
    Took terms o s call s' call' := by
  rcases attempt_cases h with ⟨-, hWritten, rfl⟩ | ⟨rfl, rfl⟩
  · rcases hWritten with rfl | rfl
    · exact .aside rfl rfl (.inr (.inl hPaying.symm))
    · exact .aside hStatus hMoved (.inr (.inl hPaying.symm))
  · exact .aside hStatus hMoved (.inr (.inl (hNext.trans hPaying.symm)))

/-- A statement after the payment that leaves the status. -/
theorem took_attempt_paid (h : attempt o s t next = (s', call'))
    (hPaid : call.stage = .paid) (hNext : next.stage = .paid)
    (hStatus : t.status = s.status) (hMoved : t.moved = s.moved)
    (hNone : o.throws = true → Heeds terms o s call → s.moved = []) :
    Took terms o s call s' call' := by
  rcases attempt_cases h with ⟨hThrows, hWritten, rfl⟩ | ⟨rfl, rfl⟩
  · rcases hWritten with rfl | rfl
    · exact .threw hPaid id rfl (hNone hThrows)
    · exact .threw hPaid (fun hPending => hStatus ▸ hPending) hMoved (hNone hThrows)
  · exact .aside hStatus hMoved (.inr (.inl (hNext.trans hPaid.symm)))

/-- A statement that ends the request. -/
theorem took_attempt_decided (h : attempt o s t next = (s', call'))
    (hPaid : call.stage = .paid) (hNext : next.stage = .paid)
    (hStatus : t.status ≠ .pending) (hMoved : t.moved = s.moved)
    (hNone : o.throws = true → Heeds terms o s call → s.moved = []) :
    Took terms o s call s' call' := by
  rcases attempt_cases h with ⟨hThrows, hWritten, rfl⟩ | ⟨rfl, rfl⟩
  · rcases hWritten with rfl | rfl
    · exact .threw hPaid id rfl (hNone hThrows)
    · exact .threw hPaid (fun hPending => absurd hPending hStatus) hMoved (hNone hThrows)
  · exact .decided hStatus hMoved (.inr (hNext.trans hPaid.symm))

theorem took_audit (hPaid : call.stage = .paid)
    (hNone : o.throws = true → Heeds terms o s call → s.moved = [])
    (hNext : next.stage = .outside ∨ next.stage = .paid) :
    Took terms o s call s (if o.throws then .reopen else next) := by
  split
  · rename_i hThrows
    exact .threw hPaid id rfl (hNone hThrows)
  · refine .aside rfl rfl ?_
    rw [hPaid]
    exact hNext.imp id .inl

theorem booked_stage {status : TravelBookings.BookingStatus} : (booked status).stage = .paid := by
  unfold booked
  split <;> rfl

theorem pay_stage : (pay terms).stage = .paying := by
  unfold pay
  split <;> rfl

theorem decide_took {status : Status} (hStatus : status ≠ .pending) :
    Took terms o s call (s.decide status) .done := by
  refine .decided ?_ rfl (.inl rfl)
  simp only [Store.decide]
  split
  · exact hStatus
  · assumption

theorem took_of_step (h : step terms o s call = some (s', call')) :
    Took terms o s call s' call' := by
  cases call with
  | confirmAction =>
    simp only [step] at h
    split at h
    · cases h
      exact .aside rfl rfl (.inl rfl)
    · rename_i hOpen
      rw [not_or] at hOpen
      split at h <;> cases h
      · exact .aside rfl rfl (.inl rfl)
      · exact .checked hOpen.2
  | expireAction =>
    cases h
    exact .decided nofun rfl (.inl rfl)
  | checkCaps =>
    simp only [step] at h
    split at h <;> cases h
    · exact .aside rfl rfl (.inl rfl)
    · exact .aside rfl rfl (.inr (.inl rfl))
  | claimAction =>
    simp only [step] at h
    split at h
    · rename_i hPending
      cases h
      exact .claimed hPending
    · cases h
      exact .aside rfl rfl (.inl rfl)
  | sendFunds =>
    simp only [step] at h
    split at h <;> cases h
    · exact .aside rfl rfl (.inr (.inl rfl))
    · exact .moved .transfer rfl rfl rfl rfl
  | readIntent =>
    simp only [step] at h
    split at h
    · cases h
      exact .aside rfl rfl (.inr (.inl rfl))
    · split at h <;> cases h
      · exact .aside rfl rfl (.inr (.inr ⟨rfl, rfl⟩))
      all_goals exact .aside rfl rfl (.inr (.inl rfl))
  | claimIntent =>
    simp only [step] at h
    split at h
    · exact took_attempt_paying (Option.some.inj h) rfl rfl rfl rfl
    · cases h
      exact .aside rfl rfl (.inr (.inl rfl))
  | payIntent =>
    simp only [step] at h
    split at h <;> cases h
    · exact .aside rfl rfl (.inr (.inl rfl))
    · exact .moved .intentPayment rfl rfl rfl rfl
  | resetIntent => exact took_attempt_paying (Option.some.inj h) rfl rfl rfl rfl
  | recordIntent =>
    exact took_attempt_paid (Option.some.inj h) rfl rfl rfl rfl
      (fun hThrows hHeeds => hHeeds hThrows)
  | recordPayment =>
    cases h
    exact took_audit rfl (fun hThrows hHeeds => hHeeds hThrows) (.inr rfl)
  | checkAmount =>
    simp only [step] at h
    split at h <;> cases h
    · rename_i hChanged
      exact .threw rfl id rfl (fun hHeeds => hHeeds hChanged)
    · exact .aside rfl rfl (.inr (.inl rfl))
  | findHotel =>
    simp only [step] at h
    split at h
    · cases h
      exact .aside rfl rfl (.inr (.inl rfl))
    · split at h <;> cases h
      · exact .aside rfl rfl (.inr (.inr ⟨rfl, booked_stage⟩))
      · exact .aside rfl rfl (.inr (.inl rfl))
  | holdHotel =>
    simp only [step] at h
    split at h
    · cases h
      exact .aside rfl rfl (.inr (.inl rfl))
    · split at h <;> cases h
      · exact .aside rfl rfl (.inr (.inr ⟨rfl, booked_stage⟩))
      · exact .moved .hotelHold rfl rfl rfl rfl
  | orderHotel =>
    cases h
    exact .aside rfl rfl (.inr (.inl rfl))
  | settleHotel status =>
    exact took_attempt_paid (Option.some.inj h) rfl booked_stage rfl rfl
      (fun hThrows hHeeds => hHeeds hThrows)
  | execute | failAction =>
    exact took_attempt_decided (Option.some.inj h) rfl rfl nofun rfl
      (fun hThrows hHeeds => hHeeds hThrows)
  | auditExecuted | auditFailed =>
    cases h
    exact took_audit rfl (fun hThrows hHeeds => hHeeds hThrows) (.inl rfl)
  | reopen =>
    cases h
    exact .reopened
  | rejectAction | revokePermissions =>
    cases h
    exact decide_took nofun
  | listActions =>
    simp only [step] at h
    split at h <;> cases h
    · exact decide_took nofun
    · exact .aside rfl rfl (.inl rfl)
  | bookFlight key =>
    simp only [step] at h
    split at h <;> cases h <;> exact .aside rfl rfl (.inl rfl)
  | checkAiAction key =>
    simp only [step] at h
    split at h
    · rename_i hOpen
      cases h
      exact .flightChecked hOpen.1
    · cases h
      exact .aside rfl rfl (.inl rfl)
  | holdFlight key =>
    simp only [step] at h
    split at h
    · cases h
      exact .aside rfl rfl (.inl rfl)
    · rename_i hNew
      cases h
      exact .flightHeld hNew
  | orderFlight =>
    simp only [step] at h
    split at h <;> cases h <;> exact .aside rfl rfl (.inl rfl)
  | confirmFlight =>
    simp only [step] at h
    split at h <;> cases h
    · exact .aside rfl rfl (.inl rfl)
    · exact .decided nofun rfl (.inl rfl)
  | writeIntent intent | writeHotel status =>
    cases h
    exact .aside rfl rfl (.inl rfl)
  | done => cases h

/-! The lock on the request. -/

def lock : Ticket Store Call where
  isOpen s := s.status = .pending
  fired _ := 0
  holds call := call.locked.toNat

theorem locked_paying (h : call.stage = .paying) : call.locked = true := by
  rw [Call.locked, h]
  rfl

theorem locked_paid (h : call.stage = .paid) : call.locked = true := by
  rw [Call.locked, h]
  rfl

theorem locked_outside (h : call.stage = .outside) : call.locked = false := by
  rw [Call.locked, h]
  rfl

theorem locked_le_of_stage (h : call'.stage = .outside ∨ call'.stage = call.stage ∨
    (call.stage = .paying ∧ call'.stage = .paid)) : call'.locked.toNat ≤ call.locked.toNat := by
  rcases h with hOut | hSame | ⟨hPaying, hPaid⟩
  · rw [locked_outside hOut]
    exact Nat.zero_le _
  · rw [Call.locked, hSame, Call.locked]
  · rw [locked_paying hPaying, locked_paid hPaid]

theorem lock_step (hTook : Took terms o s call s' call') :
    lock.Keeps s call s' call' ∨ lock.Takes s call s' call' := by
  cases hTook with
  | aside hStatus _ hStage =>
    refine .inl ⟨?_, fun hOpen => .inl (hStatus.symm.trans hOpen)⟩
    simpa [lock] using locked_le_of_stage hStage
  | checked _ | flightChecked _ | flightHeld _ => exact .inl ⟨le_refl _, fun hOpen => .inl hOpen⟩
  | decided hStatus _ hStage =>
    refine .inl ⟨?_, fun hOpen => absurd hOpen hStatus⟩
    simpa [lock] using locked_le_of_stage (hStage.imp id .inl)
  | claimed hPending =>
    refine .inr ⟨hPending, nofun, ?_⟩
    simp [lock, locked_paying pay_stage]
  | moved _ hPaying hStatus _ hPaid =>
    refine .inl ⟨?_, fun hOpen => .inl (hStatus.symm.trans hOpen)⟩
    simp [lock, locked_paying hPaying, locked_paid hPaid]
  | threw hPaid hStatus _ _ =>
    refine .inl ⟨?_, fun hOpen => .inl (hStatus hOpen)⟩
    simp [lock, locked_paid hPaid, Bool.toNat_le]
  | reopened => exact .inl ⟨Nat.zero_le _, fun _ => .inr Nat.zero_lt_one⟩

/-! What a call knows. -/

def Knows (terms : Terms) (s : Store) (call : Call) : Prop :=
  match call.stage with
  | .outside => True
  | .checking | .paid => terms.action ≠ .bookFlight
  | .paying => terms.action ≠ .bookFlight ∧ s.moved = []
  | .flight => terms.action = .bookFlight

theorem knows_outside (h : call.stage = .outside) : Knows terms s call := by
  simp [Knows, h]

theorem knows_paying (h : call.stage = .paying) :
    Knows terms s call ↔ terms.action ≠ .bookFlight ∧ s.moved = [] := by
  simp [Knows, h]

theorem knows_paid (h : call.stage = .paid) :
    Knows terms s call ↔ terms.action ≠ .bookFlight := by
  simp [Knows, h]

theorem knows_of_moved (h : Knows terms s call) (hStage : call'.stage = call.stage)
    (hMoved : s'.moved = s.moved) : Knows terms s' call' := by
  simpa [Knows, hStage, hMoved] using h

theorem knows_of_not_paying (h : Knows terms s call) (hStage : call.stage ≠ .paying) :
    Knows terms s' call := by
  unfold Knows at h ⊢
  cases hCall : call.stage with
  | paying => exact absurd hCall hStage
  | outside | checking | paid | flight =>
    rw [hCall] at h
    exact h

theorem Consistent.of_moved (h : Consistent s) (hMoved : s'.moved = s.moved)
    (hStatus : s'.status = .pending → s.status = .pending) : Consistent s' := by
  refine ⟨hMoved ▸ h.once, ?_⟩
  intro hPending
  rw [hMoved]
  exact h.pending (hStatus hPending)

theorem consistent_step (h : Consistent s) (hKnows : Knows terms s call)
    (hHeeds : Heeds terms o s call) (hLocked : call.locked = true → s.status ≠ .pending)
    (hTook : Took terms o s call s' call') : Consistent s' ∧ Knows terms s' call' := by
  cases hTook with
  | aside hStatus hMoved hStage =>
    refine ⟨h.of_moved hMoved (fun hPending => hStatus ▸ hPending), ?_⟩
    rcases hStage with hOut | hSame | ⟨hPaying, hPaid⟩
    · exact knows_outside hOut
    · exact knows_of_moved hKnows hSame hMoved
    · exact (knows_paid hPaid).mpr ((knows_paying hPaying).mp hKnows).1
  | checked hAction => exact ⟨h, hAction⟩
  | decided hStatus hMoved hStage =>
    refine ⟨h.of_moved hMoved (fun hPending => absurd hPending hStatus), ?_⟩
    rcases hStage with hOut | hSame
    · exact knows_outside hOut
    · exact knows_of_moved hKnows hSame hMoved
  | claimed hPending =>
    refine ⟨h.of_moved rfl nofun, (knows_paying pay_stage).mpr ⟨hKnows, ?_⟩⟩
    exact h.pending hPending
  | moved movement hPaying hStatus hMoved hPaid =>
    obtain ⟨hAction, hNone⟩ := (knows_paying hPaying).mp hKnows
    refine ⟨⟨?_, ?_⟩, (knows_paid hPaid).mpr hAction⟩
    · simp [hMoved, hNone]
    · intro hPending
      rw [hStatus] at hPending
      exact absurd hPending (hLocked (locked_paying hPaying))
  | threw hPaid hStatus hMoved hNone =>
    refine ⟨h.of_moved hMoved hStatus, (knows_paying rfl).mpr ⟨(knows_paid hPaid).mp hKnows, ?_⟩⟩
    rw [hMoved]
    exact hNone hHeeds
  | reopened =>
    have hMoved : s.moved = [] := hKnows.2
    exact ⟨⟨h.once, fun _ => hMoved⟩, trivial⟩
  | flightChecked hAction => exact ⟨h, hAction⟩
  | flightHeld hNew =>
    obtain ⟨hStatus, hMoved⟩ := hHeeds hNew
    refine ⟨⟨?_, fun hPending => absurd hPending hStatus⟩, trivial⟩
    simp [Store.move, hMoved]

/-- What a call knows is left to it by the others. -/
theorem knows_other {other : Call} (hKnows : Knows terms s call) (hOther : Knows terms s other)
    (hApart : other.locked = true → call.locked = false)
    (hTook : Took terms o s call s' call') : Knows terms s' other := by
  cases hTook with
  | aside _ hMoved _ | decided _ hMoved _ | threw _ _ hMoved _ =>
    exact knows_of_moved hOther rfl hMoved
  | checked _ | claimed _ | reopened | flightChecked _ => exact knows_of_moved hOther rfl rfl
  | moved _ hPaying _ _ _ =>
    refine knows_of_not_paying hOther ?_
    intro hStage
    have hFree := hApart (locked_paying hStage)
    rw [locked_paying hPaying] at hFree
    cases hFree
  | flightHeld _ =>
    refine knows_of_not_paying hOther ?_
    intro hStage
    exact absurd hKnows ((knows_paying hStage).mp hOther).1

end Steps

section Runs
variable {terms : Terms} {ok : Guard Store Call Outcome} {intent : IntentStatus}
  {c : Config Store Call}

theorem lock_sound (h : (program terms).Reaches ok (Program.idle (proposed intent)) c) :
    lock.Sound c := by
  refine Ticket.Sound.reaches h ⟨Nat.zero_le _, fun _ => rfl⟩ ?_ ?_
  · intro request
    cases request <;> rfl
  · intro o s s' call call' _ _ _ _ hStep
    exact lock_step (took_of_step hStep)

/-- In every run in which nothing throws once money has moved, and flights are held for what is no
longer pending. -/
theorem moved_once
    (h : (program terms).Reaches (Heeds terms) (Program.idle (proposed intent)) c) :
    Consistent c.store := by
  refine (h.assertions_among Consistent (Knows terms)
    ⟨⟨Nat.zero_le _, fun _ => rfl⟩, nofun⟩ ?_ ?_ ?_).1
  · intro request s _
    cases request <;> exact trivial
  · intro o s s' call call' before after hRun hConsistent hKnows hHeeds hStep
    refine consistent_step hConsistent hKnows hHeeds ?_ (took_of_step hStep)
    intro hLocked hPending
    have hSpent := (lock_sound hRun).open_spent hPending
    rw [Ticket.spent_split] at hSpent
    simp [lock, hLocked] at hSpent
  · intro o s s' call call' before after other hRun hMem _ hKnows hOther _ hStep
    refine knows_other hKnows hOther ?_ (took_of_step hStep)
    intro hLocked
    have hApart := (lock_sound hRun).apart hMem
    by_contra hOwn
    rw [Bool.not_eq_false] at hOwn
    simp only [lock, hLocked, hOwn, Bool.toNat_true] at hApart
    omega

end Runs

def sending : Terms := ⟨.sendFarm, 5, 0⟩

def flying : Terms := ⟨.bookFlight, 5, 0⟩

def outcome (throws : Bool) : Outcome where
  throws := throws
  written := false
  expired := false
  offered := true
  settled := .confirmed
  created := true

def runs (index n : ℕ) : List (Move Request Outcome) :=
  List.replicate n (.run index (outcome false))

/-- The transfer has been made, and the audit entry fails; the user confirms again. -/
def sentTwice : List (Move Request Outcome) :=
  .enter .confirmAction :: runs 0 5 ++ [.run 0 (outcome true)] ++ runs 0 1 ++
    .enter .confirmAction :: runs 1 4

/-- Two bookings of the flight with keys of their own. -/
def heldTwice : List (Move Request Outcome) :=
  .enter (.bookFlight "first-key") :: runs 0 3 ++ .enter (.bookFlight "other-key") :: runs 1 3

theorem moved_twice :
    (∃ c, (program sending).Reaches anyStep (Program.idle (proposed .closed)) c ∧
      c.store.moved = [.transfer, .transfer] ∧ ¬ Consistent c.store) ∧
    ∃ c, (program flying).Reaches anyStep (Program.idle (proposed .closed)) c ∧
      c.store.status = .pending ∧
      c.store.moved = [.flightHold "other-key", .flightHold "first-key"] ∧
      ¬ Consistent c.store := by
  constructor
  · have hRun : ((program sending).schedule sentTwice (Program.idle (proposed .closed))).any (fun c =>
        c.store.moved == [.transfer, .transfer]) = true := by
      decide +kernel
    obtain ⟨c, hReach, hEnd⟩ := Program.reaches_of_any hRun
    have hMoved : c.store.moved = [.transfer, .transfer] := beq_iff_eq.mp hEnd
    refine ⟨c, hReach, hMoved, ?_⟩
    intro hConsistent
    have hOnce := hConsistent.once
    simp [hMoved] at hOnce
  · have hRun : ((program flying).schedule heldTwice (Program.idle (proposed .closed))).any (fun c =>
        c.store.status == .pending &&
          c.store.moved == [.flightHold "other-key", .flightHold "first-key"]) = true := by
      decide +kernel
    obtain ⟨c, hReach, hEnd⟩ := Program.reaches_of_any hRun
    simp only [Bool.and_eq_true, beq_iff_eq] at hEnd
    refine ⟨c, hReach, hEnd.1, hEnd.2, ?_⟩
    intro hConsistent
    have hOnce := hConsistent.once
    simp [hEnd.2] at hOnce

/-- The first PIN is wrong, the second one right. -/
theorem moved_after_retry :
    ∃ c, (program sending).Reaches (Heeds sending) (Program.idle (proposed .closed)) c ∧
      c.store.status = .executed ∧ c.store.moved = [.transfer] ∧ Consistent c.store := by
  have hRun : (((program sending).guarded (Heeds sending)).schedule
      (.enter .confirmAction :: runs 0 3 ++ [.run 0 (outcome true)] ++ runs 0 1 ++
        .enter .confirmAction :: runs 1 6) (Program.idle (proposed .closed))).any (fun c =>
      c.store.status == .executed && c.store.moved == [.transfer]) = true := by
    decide +kernel
  obtain ⟨c, hReach, hEnd⟩ := Program.reaches_of_guarded_any hRun
  simp only [Bool.and_eq_true, beq_iff_eq] at hEnd
  exact ⟨c, hReach, hEnd.1, hEnd.2, moved_once hReach⟩

end FarmBackend.ActionRequests
