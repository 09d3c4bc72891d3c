import FarmBackend.DailySpending

/-!
# Runs within the caps

Each step of a confirmation hands on what it has found, and what it has found survives the steps of
the others.
-/

namespace FarmBackend.SpendCaps
open Interleaving Rows
open ActionRequests (Action Status)

set_option autoImplicit false

section Steps
variable {calendar : Calendar} {o : Outcome} {s s' : Store} {call call' : Call} {a : Attempt}
  {p : Snapshot} {k : Sum}

theorem permits_active {permissions : Permissions} {action : Action} {amount : ℕ}
    (h : permissions.permits action amount = true) :
    permissions.active = true ∧ amount ≤ permissions.perTxCap := by
  simp only [Permissions.permits, Bool.and_eq_true, decide_eq_true_eq] at h
  exact ⟨h.1.1.1, h.2⟩

theorem permitsFlight_active {permissions : Permissions} {amount : ℕ}
    (h : permissions.permitsFlight amount = true) :
    permissions.active = true ∧ amount ≤ permissions.perTxCap := by
  simp only [Permissions.permitsFlight, Bool.and_eq_true, decide_eq_true_eq] at h
  exact ⟨h.1.1, h.2⟩

theorem committed_of_executed {now : ℕ} (r : ActionRequest)
    (h : r.executed calendar now = true) : r.committed calendar now = true := by
  simp only [ActionRequest.executed, Bool.and_eq_true] at h
  simp only [ActionRequest.committed, h.1, h.2, Bool.true_and, Bool.true_or]

/-- The sum of `committedToday` holds what has been spent and the request itself. -/
theorem leaves_committed (hOwn : OwnRow a s) (hPassed : Passed calendar a p s)
    (hRecorded : Recorded calendar s) (hCounted : Counted calendar a.id s) :
    Leaves calendar p
      ⟨s.sumOf (ActionRequest.committed calendar s.now), s.now, s.spends.length⟩
      (selfAmount calendar a
        ⟨s.sumOf (ActionRequest.committed calendar s.now), s.now, s.spends.length⟩)
      (s.sumOf (ActionRequest.committed calendar s.now)) s := by
  refine ⟨hPassed.since, le_refl _, le_refl _, fun _ => ?_⟩
  have hSpent : s.spentOn (calendar.startOfDay s.now) ≤
      s.sumOf (ActionRequest.executed calendar s.now) := hRecorded
  obtain ⟨r, hRow, -, hAmount, hCreated⟩ := hOwn
  unfold selfAmount
  split
  · rename_i hToday
    have hSelf : r.today calendar s.now = true := by
      rw [← hCreated] at hToday
      exact decide_eq_true hToday
    obtain ⟨hPending, hLive⟩ := hCounted r hRow hSelf
    have hOut : r.executed calendar s.now = false := by
      simp [ActionRequest.executed, hPending]
    have hIn : r.committed calendar s.now = true := by
      simp [ActionRequest.committed, hSelf, hPending, hLive]
    have hSum := sum_filter_add_le committed_of_executed hRow hOut hIn
    rw [hAmount] at hSum
    exact (Nat.add_le_add_right hSpent _).trans hSum
  · exact hSpent.trans (sum_filter_le committed_of_executed _)

theorem leaves_excluded {r : ActionRequest} (hOwn : OwnRow a s)
    (hLeaves : Leaves calendar p k (selfAmount calendar a k) k.today s)
    (hRow : s.requests[a.id]? = some r)
    (hFits : withoutSelf calendar k s.now r + a.amount ≤ p.dailyCap) :
    Leaves calendar p k a.amount p.dailyCap s := by
  refine ⟨hLeaves.order, hLeaves.taken, hLeaves.length, ?_⟩
  intro hLength
  have hSpent := hLeaves.fits hLength
  obtain ⟨row, hRow', -, hAmount, hCreated⟩ := hOwn
  rw [hRow, Option.some.injEq] at hRow'
  subst hRow'
  have hMono := calendar.mono hLeaves.taken
  unfold withoutSelf at hFits
  split at hFits
  · rename_i hToday
    have hDay : calendar.startOfDay s.now ≤ r.createdAt := of_decide_eq_true hToday
    have hSelf : selfAmount calendar a k = a.amount := by
      rw [hCreated] at hDay
      exact if_pos (hMono.trans hDay)
    rw [hSelf] at hSpent
    omega
  · omega

theorem knows_step (h : Kept calendar s) (hKnows : Knows calendar s call)
    (hHeeds : Heeds calendar o s call) (hTook : Took calendar o s call s' call') :
    Knows calendar s' call' := by
  have hMoves := moves_step hKnows hTook
  cases hTook with
  | aside hPlain | rewrote _ hPlain | executed hPlain | paid _ _ hPlain | refunded _ hPlain =>
    exact knows_plain hPlain
  | found hRow hAction => exact ⟨⟨_, hRow, hAction, rfl, rfl⟩, h.disabled⟩
  | foundFlight hRow hAction => exact ⟨⟨_, hRow, hAction⟩, h.disabled⟩
  | permitted hPermits =>
    obtain ⟨hActive, hSingle⟩ := permits_active hPermits
    exact ⟨hKnows.1, passed_snapshot h hKnows.2 hHeeds hActive hSingle⟩
  | permittedFlight hPermits =>
    obtain ⟨hActive, hSingle⟩ := permitsFlight_active hPermits
    exact ⟨hKnows.1, passed_snapshot h hKnows.2 hHeeds hActive hSingle⟩
  | summed =>
    exact ⟨hKnows.1, hKnows.2, leaves_committed hKnows.1 hKnows.2 hHeeds.1 hHeeds.2⟩
  | excluded hRow hFits =>
    exact ⟨hKnows.2.1, leaves_excluded hKnows.1 hKnows.2.2 hRow hFits⟩
  | @summedFlight a p hFits =>
    have hRecorded : s.spentOn (s.today calendar) ≤
      s.sumOf (ActionRequest.executed calendar s.now) := hHeeds
    refine ⟨hKnows.1, hKnows.2, hKnows.2.since, le_refl _, le_refl _, fun _ => ?_⟩
    exact (Nat.add_le_add_right hRecorded _).trans hFits
  | ordered => exact hKnows
  | claimed => exact ⟨hKnows.1.moves hMoves, hKnows.2.moves hMoves⟩
  | held => exact FlightRow.moves hKnows.1 hMoves
  | updated | revoked | waited => exact trivial
  | revoking => exact ⟨le_refl _, fun _ => rfl⟩
  | cancelled => exact Disabled.moves hKnows hMoves

theorem kept_step (h : Kept calendar s) (hKnows : Knows calendar s call)
    (hHeeds : Heeds calendar o s call) (hTook : Took calendar o s call s' call') :
    Kept calendar s' := by
  have hMoves := moves_step hKnows hTook
  cases hTook with
  | aside _ | found _ _ | foundFlight _ _ | permitted _ | permittedFlight _ | summed | excluded _ _
  | summedFlight _ | ordered => exact h
  | rewrote _ _ | claimed | executed _ | cancelled | revoking => exact h.moves hMoves rfl h.cap rfl
  | paid hMoved hPrice _ => exact kept_spend h hKnows.1 hKnows.2 (hHeeds hMoved) hPrice
  | held => exact kept_spend h hKnows.2.1 hKnows.2.2 hHeeds (le_refl _)
  | refunded index _ => exact kept_refund h
  | @updated permissions =>
    refine h.moves hMoves rfl ?_ rfl
    exact note_today { s with
      permissions := { permissions with revoked := false }
      updates := s.updates + 1 }
  | @revoked updates =>
    refine ⟨⟨h.daily, h.single, h.revoked⟩, h.cap, ?_⟩
    intro other hMem
    have hDisabled : Disabled updates s := hKnows
    rw [Option.mem_some_iff] at hMem
    subst hMem
    exact ⟨hDisabled.le, hDisabled.inactive⟩
  | @waited elapsed =>
    refine h.moves hMoves rfl ?_ rfl
    exact note_today { s with now := s.now + elapsed }

end Steps

section Runs
variable {calendar : Calendar} {permissions : Permissions} {now : ℕ} {c : Config Store Call}

theorem kept_opened : Kept calendar (opened calendar permissions now) := by
  refine ⟨⟨fun _ => Nat.zero_le _, nofun, nofun⟩, ?_, nofun⟩
  exact note_today ⟨permissions, [], now, [], fun _ => 0, 0, none⟩

/-- In every run whose sums record what has been spent, whose payments follow their checks on the
same day with nothing between them, and whose revocations no update has followed. -/
theorem spent_within_caps
    (h : (program calendar).Reaches (Heeds calendar)
      (Program.idle (opened calendar permissions now)) c) : Consistent c.store := by
  have hKept := (h.assertions (Kept calendar) (Knows calendar) ⟨kept_opened, nofun⟩ ?_ ?_ ?_).1
  · exact hKept.toConsistent
  · intro request s _
    cases request <;> exact trivial
  · intro o s s' call call' hKept hKnows hHeeds hStep
    have hTook := took_of_step hStep
    exact ⟨kept_step hKept hKnows hHeeds hTook, knows_step hKept hKnows hHeeds hTook⟩
  · intro o s s' call call' other _ hKnows hOther _ hStep
    exact knows_moves hOther (moves_step hKnows (took_of_step hStep))

end Runs

/-- Days of 24 hours. -/
def days : Calendar where
  startOfDay t := t / 86400000 * 86400000
  mono _ _ h := Nat.mul_le_mul_right _ (Nat.div_le_div_right h)

def permitting (perTxCap : ℕ) : Permissions where
  enabled := true
  revoked := false
  perTxCap := perTxCap
  dailyCap := 100
  allowedActions := [.sendFarm]
  spendCategories := []

def outcome : Outcome where
  throws := false
  written := false
  price := 0
  payment := .paid 0
  refused := false
  ordered := true
  offered := true
  expiresAt := 0

def runs (index n : ℕ) : List (Move Request Outcome) :=
  List.replicate n (.run index outcome)

/-- While one request is being processed, another one is proposed and confirmed. -/
def overlapping : List (Move Request Outcome) :=
  .enter (.propose .sendFarm 60) :: runs 0 3 ++ .enter (.confirmAction 0) :: runs 1 5 ++
    .enter (.propose .sendFarm 60) :: runs 2 3 ++ .enter (.confirmAction 1) :: runs 3 6 ++ runs 1 1

/-- The cap is lowered between the check and the payment. -/
def lowered : List (Move Request Outcome) :=
  .enter (.propose .sendFarm 60) :: runs 0 3 ++ .enter (.confirmAction 0) :: runs 1 5 ++
    .enter (.updatePermissions (permitting 10)) :: runs 2 1 ++ runs 1 1

theorem spent_beyond_caps :
    (∃ c, (program days).Reaches anyStep (Program.idle (opened days (permitting 60) 1)) c ∧
      c.store.spentOn 0 = 120 ∧ c.store.largestCap 0 = 100 ∧ ¬ Consistent c.store) ∧
    ∃ c, (program days).Reaches anyStep (Program.idle (opened days (permitting 60) 1)) c ∧
      (∃ spend ∈ c.store.spends, spend.amount = 60 ∧ spend.cap = 10) ∧ ¬ Consistent c.store := by
  constructor
  · have hRun : ((program days).schedule overlapping
        (Program.idle (opened days (permitting 60) 1))).any (fun c =>
          c.store.spentOn 0 == 120 && c.store.largestCap 0 == 100) = true := by
      decide +kernel
    obtain ⟨c, hReach, hEnd⟩ := Program.reaches_of_any hRun
    simp only [Bool.and_eq_true, beq_iff_eq] at hEnd
    refine ⟨c, hReach, hEnd.1, hEnd.2, ?_⟩
    intro hConsistent
    have hDaily := hConsistent.daily 0
    omega
  · have hRun : ((program days).schedule lowered
        (Program.idle (opened days (permitting 60) 1))).any (fun c =>
          c.store.spends.any fun spend => spend.amount == 60 && spend.cap == 10) = true := by
      decide +kernel
    obtain ⟨c, hReach, hEnd⟩ := Program.reaches_of_any hRun
    obtain ⟨spend, hMem, hSpend⟩ := List.any_eq_true.mp hEnd
    simp only [Bool.and_eq_true, beq_iff_eq] at hSpend
    refine ⟨c, hReach, ⟨spend, hMem, hSpend.1, hSpend.2⟩, ?_⟩
    intro hConsistent
    have hSingle := hConsistent.single spend hMem
    omega

/-- One payment a day, for two days. -/
theorem spent_on_two_days :
    ∃ c, (program days).Reaches (Heeds days) (Program.idle (opened days (permitting 60) 1)) c ∧
      c.store.spends.length = 2 ∧ Consistent c.store := by
  have hRun : (((program days).guarded (Heeds days)).schedule
      (.enter (.propose .sendFarm 60) :: runs 0 3 ++ .enter (.confirmAction 0) :: runs 1 8 ++
        .enter (.wait 86400000) :: runs 2 1 ++ .enter (.propose .sendFarm 60) :: runs 3 3 ++
        .enter (.confirmAction 1) :: runs 4 8)
      (Program.idle (opened days (permitting 60) 1))).any (fun c =>
        c.store.spends.length == 2) = true := by
    decide +kernel
  obtain ⟨c, hReach, hEnd⟩ := Program.reaches_of_guarded_any hRun
  exact ⟨c, hReach, beq_iff_eq.mp hEnd, spent_within_caps hReach⟩

end FarmBackend.SpendCaps
