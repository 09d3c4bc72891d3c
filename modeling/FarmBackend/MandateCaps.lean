import FarmBackend.RequestClaims
import Mathlib.Algebra.BigOperators.Group.Finset.Piecewise
import Mathlib.Algebra.Order.BigOperators.Group.Finset

/-!
# What is confirmed under a mandate in a day and in a month

A request is committed when it is confirmed, or its confirmation has seen that it fits. The sums of
`usage` count by the day of creation, so the committed requests created in one day stay within the
cap of that day; the guard makes that the day of their confirmation.
-/

namespace FarmBackend.AgentPayments
open Decimal Wallets Interleaving Rows

set_option autoImplicit false

/-! Sums over rows, row by row. -/

/-- What the row with this id adds to a sum. -/
def Store.weight (p : RequestId → AgentRequest → Bool) (s : Store) (id : RequestId) : ℤ :=
  (s.requests[id]?).elim 0 fun r => if p id r then r.amount else 0

section Sums
variable {s s' : Store} {p q : RequestId → AgentRequest → Bool}

theorem sum_zipIdx_filter (p : RequestId → AgentRequest → Bool) (rows : List AgentRequest)
    (start : ℕ) : (((rows.zipIdx start).filter fun r => p r.2 r.1).map (·.1.amount)).sum =
      ∑ id ∈ Finset.range rows.length,
        (rows[id]?).elim 0 fun r => if p (start + id) r then r.amount else 0 := by
  induction rows generalizing start with
  | nil => rfl
  | cons row rows ih =>
    rw [List.length_cons, Finset.sum_range_succ', List.zipIdx_cons]
    have hRest := ih (start + 1)
    have hShift : ∀ id, start + 1 + id = start + (id + 1) := fun id => by omega
    simp only [hShift] at hRest
    simp only [List.getElem?_cons_succ, ← hRest, List.getElem?_cons_zero, Option.elim_some,
      Nat.add_zero]
    cases hRow : p start row <;> simp [hRow, add_comm]

/-- Ids without a row add nothing. -/
theorem sumOf_eq (p : RequestId → AgentRequest → Bool) {s : Store} {n : ℕ}
    (h : s.requests.length ≤ n) : s.sumOf p = ∑ id ∈ Finset.range n, s.weight p id := by
  have hSum := sum_zipIdx_filter p s.requests 0
  simp only [Nat.zero_add] at hSum
  refine hSum.trans (Finset.sum_subset (Finset.range_subset_range.mpr h) ?_)
  intro id _ hNot
  have hNone : s.requests[id]? = none := by
    rw [List.getElem?_eq_none_iff]
    simpa using hNot
  rw [hNone]
  rfl

/-- Every row that a sum counts is counted by another sum, or is the one extra row. -/
theorem sumOf_le_add {extra : RequestId} {x : ℤ} (hExtra : 0 ≤ x)
    (hNonneg : ∀ r ∈ s.requests, 0 ≤ r.amount)
    (h : ∀ (id : RequestId) r', s'.requests[id]? = some r' → p id r' = true →
      (id = extra ∧ r'.amount ≤ x) ∨
        ∃ r, s.requests[id]? = some r ∧ q id r = true ∧ r.amount = r'.amount) :
    s'.sumOf p ≤ s.sumOf q + x := by
  have hWeight : ∀ id, 0 ≤ s.weight q id := by
    intro id
    unfold Store.weight
    cases hRow : s.requests[id]? with
    | none => exact le_rfl
    | some r =>
      simp only [Option.elim_some]
      split
      · exact hNonneg r (List.mem_of_getElem? hRow)
      · exact le_rfl
  have hRows : ∀ id, s'.weight p id ≤ s.weight q id + if id = extra then x else 0 := by
    intro id
    have hBase : 0 ≤ s.weight q id + if id = extra then x else 0 := by
      have hOld := hWeight id
      split <;> omega
    rw [Store.weight]
    cases hRow : s'.requests[id]? with
    | none => exact hBase
    | some r' =>
      simp only [Option.elim_some]
      split
      · rename_i hCounted
        rcases h id r' hRow hCounted with ⟨rfl, hAmount⟩ | ⟨r, hOld, hAlso, hSame⟩
        · have hOld := hWeight id
          rw [if_pos rfl]
          omega
        · have hOldWeight : s.weight q id = r.amount := by
            rw [Store.weight, hOld, Option.elim_some, if_pos hAlso]
          rw [hOldWeight, hSame]
          split <;> omega
      · exact hBase
  have hLeft := sumOf_eq p (Nat.le_max_left s'.requests.length s.requests.length)
  have hRight := sumOf_eq q (Nat.le_max_right s'.requests.length s.requests.length)
  rw [hLeft, hRight]
  generalize max s'.requests.length s.requests.length = n
  calc ∑ id ∈ Finset.range n, s'.weight p id
      ≤ ∑ id ∈ Finset.range n, (s.weight q id + if id = extra then x else 0) :=
        Finset.sum_le_sum fun id _ => hRows id
    _ = ∑ id ∈ Finset.range n, s.weight q id + if extra ∈ Finset.range n then x else 0 := by
        rw [Finset.sum_add_distrib, Finset.sum_ite_eq']
    _ ≤ ∑ id ∈ Finset.range n, s.weight q id + x := by
        split <;> omega

theorem sumOf_le (hNonneg : ∀ r ∈ s.requests, 0 ≤ r.amount)
    (h : ∀ (id : RequestId) r', s'.requests[id]? = some r' → p id r' = true →
      ∃ r, s.requests[id]? = some r ∧ q id r = true ∧ r.amount = r'.amount) :
    s'.sumOf p ≤ s.sumOf q := by
  have hLe := @sumOf_le_add s s' p q 0 0 le_rfl hNonneg fun id r' hRow hCounted =>
    .inr (h id r' hRow hCounted)
  rwa [add_zero] at hLe

end Sums

/-! The two windows of `checkCaps`. -/

inductive Window where
  | day
  | month

namespace Window

def startOf (cal : Calendar) : Window → Time → Time
  | .day => cal.startOfDay
  | .month => cal.startOfMonth

def since (u : Usage) : Window → Time
  | .day => u.sinceDay
  | .month => u.sinceMonth

def sum (u : Usage) : Window → Option ℤ
  | .day => u.day
  | .month => u.month

def cap (m : Mandate) : Window → ℤ
  | .day => m.dailyCap
  | .month => m.monthlyCap

variable (cal : Calendar) (w : Window)

theorem startOf_le (t : Time) : w.startOf cal t ≤ t := by
  cases w
  · exact cal.startOfDay_le t
  · exact cal.startOfMonth_le t

theorem startOf_of_day {a b : Time} (h : cal.startOfDay a = cal.startOfDay b) :
    w.startOf cal a = w.startOf cal b := by
  cases w
  · exact h
  · exact cal.startOfMonth_day h

end Window

/-- The confirmation has seen that its request fits into the window it was created in. -/
def Attempt.passed (cal : Calendar) (w : Window) (a : Attempt) : Bool :=
  w.since a.usage == w.startOf cal a.row.createdAt &&
    (w.sum a.usage).any fun sum => decide (sum + a.row.amount ≤ w.cap a.mandate)

def Call.attempt : Call → Option Attempt
  | .confirm (.usage a) => some a
  | .confirm (.paying a _) => some a
  | .confirm (.mark a _) => some a
  | _ => none

/-- The call is a confirmation of this request that has passed. -/
def Call.passes (cal : Calendar) (w : Window) (id : RequestId) (c : Call) : Bool :=
  c.attempt.any fun a => a.confirm.requestId == id && a.passed cal w

/-- The requests of a mandate created in the window that starts at `start` and committed. -/
def committed (cal : Calendar) (w : Window) (mandate : MandateId) (start : Time)
    (calls : List Call) (id : RequestId) (r : AgentRequest) : Bool :=
  r.authorizationId == mandate && w.startOf cal r.createdAt == start &&
    (r.status == .confirmed || calls.any (·.passes cal w id))

/-- The committed requests of every window are within its cap. -/
def WithinWindows (env : Env) (c : Config Store Call) : Prop :=
  ∀ (w : Window) (id : MandateId) m start, c.store.mandates[id]? = some m →
    c.store.sumOf (committed env.calendar w id start c.calls) ≤ w.cap m

/-- The amounts of a mandate that were confirmed in the window of a time. -/
def Store.confirmedIn (cal : Calendar) (w : Window) (mandate : MandateId) (t : Time) (s : Store) :
    ℤ :=
  s.sumOf fun _ r => r.authorizationId == mandate && r.status == .confirmed &&
    r.decidedAt.any fun decided => w.startOf cal decided == w.startOf cal t

section Steps
variable {env : Env} {o : Outcome} {s s' : Store} {c c' : Call} {w : Window}

theorem checked_of_attempt {a : Attempt} (hSees : c.Sees env s) (h : c.attempt = some a) :
    a.Checked env s := by
  cases c with
  | confirm c =>
    cases c with
    | usage a' =>
      cases h
      exact hSees
    | paying a' c =>
      cases h
      exact hSees.1
    | mark a' reference =>
      cases h
      exact hSees.1
    | _ => cases h
  | _ => cases h

/-- A confirmation that has passed is of a request that is being confirmed. -/
theorem row_of_passes {id : RequestId} (hSees : c.Sees env s)
    (h : c.passes env.calendar w id = true) :
    ∃ a row, c.attempt = some a ∧ s.requests[id]? = some row ∧ SameAs a.row row ∧
      row.status = .processing := by
  unfold Call.passes at h
  obtain ⟨a, hAttempt, hPassed⟩ := (Option.any_eq_true _ _).mp h
  obtain ⟨row, hRow, hSame, hStatus⟩ := (checked_of_attempt hSees hAttempt).processing
  rw [eq_of_beq (Bool.and_eq_true_iff.mp hPassed).1] at hRow
  exact ⟨a, row, hAttempt, hRow, hSame, hStatus⟩

theorem confirmed_took (h : Took env o s c s' c') {id : RequestId} {r' : AgentRequest}
    (hRow' : s'.requests[id]? = some r') (hStatus : r'.status = .confirmed) :
    ∃ r, s.requests[id]? = some r ∧ SameAs r r' ∧ (r.status = .confirmed ∨
      ∃ a reference, c = .confirm (.mark a reference) ∧ a.confirm.requestId = id ∧
        o.fails = false) := by
  have hStay : s.requests[id]? = some r' → ∃ r, s.requests[id]? = some r ∧ SameAs r r' ∧
      (r.status = .confirmed ∨ ∃ a reference, c = .confirm (.mark a reference) ∧
        a.confirm.requestId = id ∧ o.fails = false) :=
    fun hRow => ⟨r', hRow, .refl r', .inl hStatus⟩
  cases h with
  | pay c => exact hStay (by rwa [(payFrame_payStep c).requests] at hRow')
  | paying a c => exact hStay (by rwa [(payFrame_payStep c).requests] at hRow')
  | aside _ hAside =>
    obtain ⟨r, hRow, hCloses⟩ := hAside.requests.backward hRow'
    rcases hCloses with rfl | ⟨_, hInactive, _⟩
    · exact hStay hRow
    · rw [hStatus] at hInactive
      cases hInactive
  | creating _ hRequests _ => exact hStay (by rwa [hRequests] at hRow')
  | created d m i =>
    rcases getElem?_insert_cases hRow' with hRow | ⟨_, rfl⟩
    · exact hStay hRow
    · cases hStatus
  | claim _ _ =>
    rcases getElem?_modify_cases hRow' with ⟨_, r, _, rfl⟩ | ⟨_, hRow⟩
    · cases hStatus
    · exact hStay hRow
  | mark a reference hAnswered =>
    rcases getElem?_modify_cases hRow' with ⟨hId, r, hRow, rfl⟩ | ⟨_, hRow⟩
    · subst hId
      exact ⟨r, hRow, ⟨rfl, rfl, rfl, rfl, rfl⟩, .inr ⟨a, reference, rfl, rfl, hAnswered⟩⟩
    · exact hStay hRow
  | settle q e =>
    rcases getElem?_modify_cases hRow' with ⟨_, r, _, rfl⟩ | ⟨_, hRow⟩
    · cases hFinal : e.final <;> simp [hFinal] at hStatus
    · exact hStay hRow
  | _ => exact hStay hRow'

theorem cap_took (h : Took env o s c s' c') {id : MandateId} {m' : Mandate}
    (hMandate : s'.mandates[id]? = some m') :
    ∃ m, s.mandates[id]? = some m ∧ w.cap m' = w.cap m := by
  cases h with
  | pay c => exact ⟨m', by rwa [(payFrame_payStep c).mandates] at hMandate, rfl⟩
  | paying a c => exact ⟨m', by rwa [(payFrame_payStep c).mandates] at hMandate, rfl⟩
  | aside _ hAside => exact ⟨m', by rwa [hAside.mandates] at hMandate, rfl⟩
  | creating hAside _ _ => exact ⟨m', by rwa [hAside.mandates] at hMandate, rfl⟩
  | revoke _ =>
    rcases getElem?_modify_cases hMandate with ⟨rfl, m, hOld, rfl⟩ | ⟨_, hOld⟩
    · exact ⟨m, hOld, by cases w <;> rfl⟩
    · exact ⟨m', hOld, rfl⟩
  | _ => exact ⟨m', hMandate, rfl⟩

/-- The guard makes a confirmation that is about to be marked one that has passed. -/
theorem passes_of_mark {a : Attempt} {reference : Option ℕ} {row : AgentRequest}
    (hSees : (Call.confirm (.mark a reference)).Sees env s)
    (hSpares : spares env o s (.confirm (.mark a reference)) = true) (hAnswered : o.fails = false)
    (hRow : s.requests[a.confirm.requestId]? = some row) :
    (Call.confirm (.mark a reference)).passes env.calendar w a.confirm.requestId = true := by
  obtain ⟨hChecked, hComplete, hDay, hMonth⟩ := hSees
  obtain ⟨row', hRow', hSame, _⟩ := hChecked.processing
  rw [hRow, Option.some.injEq] at hRow'
  subst hRow'
  simp only [spares, hAnswered, hRow, Bool.false_or, Option.all_some, beq_iff_eq] at hSpares
  rw [hSame.createdAt] at hSpares
  obtain ⟨t, hCreated, hNow, hSinceDay, hSinceMonth⟩ := hChecked.since
  -- the sums were read between the creation and now, on one day
  have hToday : env.calendar.startOfDay a.row.createdAt = env.calendar.startOfDay t :=
    Nat.le_antisymm (env.calendar.startOfDay_mono hCreated)
      ((env.calendar.startOfDay_mono hNow).trans hSpares.ge)
  have hSince : w.since a.usage = w.startOf env.calendar a.row.createdAt := by
    rw [w.startOf_of_day env.calendar hToday]
    cases w
    · exact hSinceDay
    · exact hSinceMonth
  obtain ⟨hDaySome, hMonthSome⟩ := Bool.and_eq_true_iff.mp hComplete
  obtain ⟨day, hDayEq⟩ := Option.isSome_iff_exists.mp hDaySome
  obtain ⟨month, hMonthEq⟩ := Option.isSome_iff_exists.mp hMonthSome
  have hDayFits := hDay day hDayEq
  have hMonthFits := hMonth month hMonthEq
  rw [value_add, value_le_value] at hDayFits hMonthFits
  have hFits : (w.sum a.usage).any fun sum => decide (sum + a.row.amount ≤ w.cap a.mandate) := by
    cases w
    · rw [Window.sum, hDayEq]
      exact decide_eq_true hDayFits
    · rw [Window.sum, hMonthEq]
      exact decide_eq_true hMonthFits
  simp only [Call.passes, Call.attempt, Option.any_some, beq_self_eq_true, Bool.true_and,
    Attempt.passed, hSince]
  exact hFits

/-- A step commits nothing new to a window, unless the call passes with a request of that window. -/
theorem committed_le {before after : List Call} {mandate : MandateId} {start : Time}
    (hInForce : InForce env s) (hAll : ∀ call ∈ before ++ c :: after, call.Sees env s)
    (hTook : Took env o s c s' c') (hSpares : spares env o s c = true)
    (hOld : ∀ id, c'.passes env.calendar w id = true → ∃ row, s.requests[id]? = some row ∧
      (row.authorizationId = mandate → w.startOf env.calendar row.createdAt = start →
        c.passes env.calendar w id = true)) :
    s'.sumOf (committed env.calendar w mandate start (before ++ c' :: after)) ≤
      s.sumOf (committed env.calendar w mandate start (before ++ c :: after)) := by
  refine sumOf_le (fun r hMem => (hInForce.requests r hMem).1) ?_
  intro id r' hRow' hCommitted
  simp only [committed, Bool.and_eq_true, beq_iff_eq, Bool.or_eq_true] at hCommitted
  obtain ⟨⟨hMandate, hStart⟩, hCommitted⟩ := hCommitted
  have hAny : ∀ call ∈ before ++ c :: after, call.passes env.calendar w id = true →
      (before ++ c :: after).any (·.passes env.calendar w id) = true :=
    fun call hMem hPass => List.any_eq_true.mpr ⟨call, hMem, hPass⟩
  have hKept : ∃ r, s.requests[id]? = some r ∧ SameAs r r' ∧
      (r.authorizationId = mandate → w.startOf env.calendar r.createdAt = start →
        r.status = .confirmed ∨
          (before ++ c :: after).any (·.passes env.calendar w id) = true) := by
    rcases hCommitted with hStatus | hPasses
    · obtain ⟨r, hRow, hSame, hConfirmed | ⟨a, reference, rfl, rfl, hAnswered⟩⟩ :=
        confirmed_took hTook hRow' hStatus
      · exact ⟨r, hRow, hSame, fun _ _ => .inl hConfirmed⟩
      · have hMark := @passes_of_mark env o s w a reference r (hAll _ (by simp)) hSpares hAnswered
          hRow
        exact ⟨r, hRow, hSame, fun _ _ => .inr (hAny _ (by simp) hMark)⟩
    · have hRelated : ∀ r, s.requests[id]? = some r → SameAs r r' := by
        intro r hRow
        obtain ⟨r'', hRow'', hSame⟩ := sameAs_took hTook hRow
        rw [hRow', Option.some.injEq] at hRow''
        rwa [hRow'']
      have hOther : ∀ call ∈ before ++ c :: after, call.passes env.calendar w id = true →
          ∃ r, s.requests[id]? = some r ∧ SameAs r r' ∧
            (r.authorizationId = mandate → w.startOf env.calendar r.createdAt = start →
              r.status = .confirmed ∨
                (before ++ c :: after).any (·.passes env.calendar w id) = true) := by
        intro call hMem hPass
        obtain ⟨_, r, _, hRow, _, _⟩ := row_of_passes (hAll call hMem) hPass
        exact ⟨r, hRow, hRelated r hRow, fun _ _ => .inr (hAny call hMem hPass)⟩
      obtain ⟨call, hMem, hPass⟩ := List.any_eq_true.mp hPasses
      rcases List.mem_append.mp hMem with hMem | hMem
      · exact hOther call (by simp [hMem]) hPass
      · rcases List.mem_cons.mp hMem with rfl | hMem
        · obtain ⟨r, hRow, hSamePass⟩ := hOld id hPass
          refine ⟨r, hRow, hRelated r hRow, fun hM hS => .inr ?_⟩
          exact hAny c (by simp) (hSamePass hM hS)
        · exact hOther call (by simp [hMem]) hPass
  obtain ⟨r, hRow, hSame, hBefore⟩ := hKept
  rw [hSame.authorizationId] at hMandate
  rw [hSame.createdAt] at hStart
  refine ⟨r, hRow, ?_, hSame.amount.symm⟩
  simp only [committed, Bool.and_eq_true, beq_iff_eq, Bool.or_eq_true]
  exact ⟨⟨hMandate, hStart⟩, hBefore hMandate hStart⟩

/-- The next read of a sum: the window's sum is still the old one, or it has just been read. -/
theorem sum_count (a : Attempt) :
    (a.count o s).passed env.calendar w = a.passed env.calendar w ∨
      w.sum (a.count o s).usage =
        some (s.usage a.row.authorizationId (some a.confirm.requestId) (w.since a.usage)) := by
  unfold Attempt.count Usage.read Attempt.passed
  split
  · cases w
    · exact .inr rfl
    · exact .inl rfl
  · cases w
    · exact .inl rfl
    · exact .inr rfl

theorem since_count (a : Attempt) : w.since (a.count o s).usage = w.since a.usage := by
  unfold Attempt.count Usage.read
  split <;> cases w <;> rfl

/-- What the other calls have committed to a window is in the sum that `usage` reads. -/
theorem usage_counts {a : Attempt} {id : RequestId} {r : AgentRequest} {others : List Call}
    (hAll : ∀ call ∈ others, call.Sees env s) (hRow : s.requests[id]? = some r)
    (hSince : w.since a.usage = w.startOf env.calendar a.row.createdAt)
    (hCommitted : committed env.calendar w a.row.authorizationId
      (w.startOf env.calendar a.row.createdAt) others id r = true)
    (hOther : id ≠ a.confirm.requestId) :
    (r.authorizationId == a.row.authorizationId && r.status.isActive &&
      (some a.confirm.requestId != some id) && decide (w.since a.usage ≤ r.createdAt)) = true := by
  simp only [committed, Bool.and_eq_true, beq_iff_eq, Bool.or_eq_true] at hCommitted
  obtain ⟨⟨hMandate, hStart⟩, hCommitted⟩ := hCommitted
  have hActive : r.status.isActive = true := by
    rcases hCommitted with hStatus | hPasses
    · rw [hStatus]
      rfl
    · obtain ⟨call, hMem, hPass⟩ := List.any_eq_true.mp hPasses
      obtain ⟨_, row, _, hSame, _, hStatus⟩ := row_of_passes (hAll call hMem) hPass
      rw [hRow, Option.some.injEq] at hSame
      rw [hSame, hStatus]
      rfl
  have hLe : w.since a.usage ≤ r.createdAt := by
    rw [hSince, ← hStart]
    exact w.startOf_le env.calendar r.createdAt
  simp [hMandate, hActive, hLe, Ne.symm hOther]

/-- A confirmation that passes with the sum it has just read keeps its window within the cap. -/
theorem committed_count_le {before after : List Call} {a : Attempt} {call : Call}
    (hInForce : InForce env s)
    (hAll : ∀ call' ∈ before ++ Call.confirm (.usage a) :: after, call'.Sees env s)
    (hAttempt : call.attempt = some (a.count o s))
    (hPassed : (a.count o s).passed env.calendar w = true)
    (hSum : w.sum (a.count o s).usage =
      some (s.usage a.row.authorizationId (some a.confirm.requestId) (w.since a.usage))) :
    s.sumOf (committed env.calendar w a.row.authorizationId
      (w.startOf env.calendar a.row.createdAt) (before ++ call :: after)) ≤ w.cap a.mandate := by
  have hChecked : a.Checked env s := hAll (.confirm (.usage a)) (by simp)
  obtain ⟨row, hOwn, hOwnSame, _⟩ := hChecked.processing
  simp only [Attempt.passed, Bool.and_eq_true, beq_iff_eq, since_count, hSum, Option.any_some,
    decide_eq_true_eq] at hPassed
  obtain ⟨hSince, hFits⟩ := hPassed
  have hAmount : 0 ≤ a.row.amount := by
    have hNonneg := (hInForce.requests row (List.mem_of_getElem? hOwn)).1
    rwa [hOwnSame.amount] at hNonneg
  have hSinceOwn : w.since a.usage = w.startOf env.calendar a.row.createdAt := hSince
  have hOthers : ∀ call' ∈ before ++ after, call'.Sees env s := by
    intro call' hMem
    refine hAll call' ?_
    rcases List.mem_append.mp hMem with hMem | hMem <;> simp [hMem]
  refine le_trans (@sumOf_le_add s s _ _ a.confirm.requestId _ hAmount
    (fun r hMem => (hInForce.requests r hMem).1) ?_) hFits
  intro id r hRow hCommitted
  by_cases hId : id = a.confirm.requestId
  · subst hId
    rw [hOwn, Option.some.injEq] at hRow
    exact .inl ⟨rfl, (hRow ▸ hOwnSame.amount).le⟩
  · refine .inr ⟨r, hRow, usage_counts hOthers hRow hSinceOwn ?_ hId, rfl⟩
    have hNot : call.passes env.calendar w id = false := by
      have hNe : (a.count o s).confirm.requestId ≠ id := Ne.symm hId
      simp [Call.passes, hAttempt, hNe]
    simpa [committed, hNot] using hCommitted

theorem passes_took (hTook : Took env o s c s' c') :
    (∀ id, c'.passes env.calendar w id = true → c.passes env.calendar w id = true) ∨
      ∃ a, c = .confirm (.usage a) ∧ s' = s ∧ c'.attempt = some (a.count o s) := by
  have hNone : c'.attempt = none →
      ∀ id, c'.passes env.calendar w id = true → c.passes env.calendar w id = true := by
    intro hAttempt id hPass
    simp [Call.passes, hAttempt] at hPass
  cases hTook with
  | pay c =>
    refine .inl (hNone ?_)
    cases (payStep o s c).2 <;> rfl
  | paying a c =>
    left
    cases (payStep o s c).2 with
    | going c' => exact fun id hPass => hPass
    | paid reference => exact fun id hPass => hPass
    | thrown e => exact fun id hPass => by cases hPass
  | aside hPlain _ =>
    refine .inl (hNone ?_)
    cases c' with
    | confirm c =>
      cases c with
      | expired q => rfl
      | _ => cases hPlain
    | _ => rfl
  | counted a => exact .inr ⟨a, rfl, rfl, rfl⟩
  | @started a _ _ => exact .inr ⟨a, rfl, rfl, rfl⟩
  | checked _ _ =>
    left
    intro id hPass
    cases w <;> simp [Call.passes, Call.attempt, Attempt.passed, Usage.start, Window.sum] at hPass
  | _ => exact .inl (hNone rfl)

theorem WithinWindows.took {before after : List Call}
    (h : WithinWindows env ⟨s, before ++ c :: after⟩)
    (hInForce : InForce env s) (hAll : ∀ call ∈ before ++ c :: after, call.Sees env s)
    (hTook : Took env o s c s' c') (hSpares : spares env o s c = true) :
    WithinWindows env ⟨s', before ++ c' :: after⟩ := by
  intro w mandate m' start hMandate'
  obtain ⟨m, hMandate, hCap⟩ := @cap_took env o s s' c c' w hTook mandate m' hMandate'
  rw [hCap]
  have hIH := h w mandate m start hMandate
  have hSeesOwn : c.Sees env s := hAll c (by simp)
  rcases @passes_took env o s s' c c' w hTook with hNoNew | ⟨a, rfl, rfl, hAttempt⟩
  · refine (committed_le hInForce hAll hTook hSpares ?_).trans hIH
    intro id hPass
    obtain ⟨_, row, _, hRow, _, _⟩ := row_of_passes hSeesOwn (hNoNew id hPass)
    exact ⟨row, hRow, fun _ _ => hNoNew id hPass⟩
  · have hChecked : a.Checked env s' := hSeesOwn
    obtain ⟨row, hRow, hSame, _⟩ := hChecked.processing
    -- a passing call is a call whose attempt has passed, on the same request
    have hOwnPass : ∀ id, c'.passes env.calendar w id = true →
        id = a.confirm.requestId ∧ (a.count o s').passed env.calendar w = true := by
      intro id hPass
      simp only [Call.passes, hAttempt, Option.any_some, Bool.and_eq_true, beq_iff_eq] at hPass
      exact ⟨hPass.1.symm, hPass.2⟩
    have hQuiet : (a.row.authorizationId = mandate →
        w.startOf env.calendar a.row.createdAt = start →
        (a.count o s').passed env.calendar w = true → a.passed env.calendar w = true) →
          s'.sumOf (committed env.calendar w mandate start (before ++ c' :: after)) ≤ w.cap m := by
      intro hOld
      refine (committed_le hInForce hAll hTook hSpares ?_).trans hIH
      intro id hPass
      obtain ⟨rfl, hPassed⟩ := hOwnPass id hPass
      refine ⟨row, hRow, fun hM hS => ?_⟩
      rw [hSame.authorizationId] at hM
      rw [hSame.createdAt] at hS
      simp only [Call.passes, Call.attempt, Option.any_some, beq_self_eq_true, Bool.true_and]
      exact hOld hM hS hPassed
    rcases @sum_count env o s' w a with hSamePassed | hSum
    · exact hQuiet fun _ _ hPassed => hSamePassed ▸ hPassed
    · by_cases hPassed : (a.count o s').passed env.calendar w = true
      · by_cases hWindow : a.row.authorizationId = mandate ∧
            w.startOf env.calendar a.row.createdAt = start
        · obtain ⟨rfl, rfl⟩ := hWindow
          have hOwn := hChecked.mandate
          rw [hMandate, Option.some.injEq] at hOwn
          rw [hOwn]
          exact committed_count_le hInForce hAll hAttempt hPassed hSum
        · exact hQuiet fun hM hS _ => absurd ⟨hM, hS⟩ hWindow
      · exact hQuiet fun _ _ hNow => absurd hNow hPassed

end Steps

/-- The claim's caps: what is confirmed in a day or month, in one payment, and when. -/
structure WithinCaps (env : Env) (s : Store) : Prop where
  window : ∀ (w : Window) (id : MandateId) m t, s.mandates[id]? = some m →
    s.confirmedIn env.calendar w id t ≤ w.cap m
  perTx : ∀ r ∈ s.requests, r.status = .confirmed → ∀ m,
    s.mandates[r.authorizationId]? = some m → r.amount ≤ m.perTxCap
  inForce : ∀ r ∈ s.requests, r.status = .confirmed → ∃ m t,
    s.mandates[r.authorizationId]? = some m ∧ r.decidedAt = some t ∧ t < m.expiresAt ∧
      ∀ revoked, m.revokedAt = some revoked → t ≤ revoked

/-- Nothing has been requested yet under mandates and intents as they are created. -/
structure Unrequested (s : Store) : Prop where
  requests : s.requests = []
  intents : ∀ i ∈ s.intents, 0 ≤ i.amount
  mandates : ∀ m ∈ s.mandates, 0 ≤ m.dailyCap ∧ 0 ≤ m.monthlyCap ∧
    (m.active = true → m.revokedAt = none)

theorem Unrequested.inForce {env : Env} {s : Store} (h : Unrequested s) : InForce env s := by
  refine ⟨h.intents, ?_, fun m hMem => (h.mandates m hMem).2.2, ?_⟩
  · simp [h.requests]
  · simp [h.requests]

/-- In a careful run every window stays within its cap. -/
theorem withinWindows_of_reaches {env : Env} {start : Store} {c : Config Store Call}
    (hStart : Unrequested start)
    (h : (program env).Reaches (Careful env) (Program.idle start) c) : WithinWindows env c := by
  induction h with
  | refl =>
    intro w id m _ hMandate
    obtain ⟨hDay, hMonth, _⟩ := hStart.mandates m (List.mem_of_getElem? hMandate)
    have hZero : ∀ p, start.sumOf p = 0 := by
      intro p
      simp [Store.sumOf, hStart.requests]
    rw [Program.idle, hZero]
    cases w
    · exact hDay
    · exact hMonth
  | tail hRun hLast ih =>
    obtain ⟨hInForce, hSees⟩ := inForce_of_reaches hStart.inForce hRun
    cases hLast with
    | enter request store calls =>
      intro w id m start hMandate
      refine le_trans (sumOf_le (fun r hMem => (hInForce.requests r hMem).1) ?_)
        (ih w id m start hMandate)
      intro rid r hRow hCommitted
      refine ⟨r, hRow, ?_, rfl⟩
      have hNone : ((program env).enter request).passes env.calendar w rid = false := by
        cases request with
        | pay p =>
          show Call.passes env.calendar w rid (payEnter p).alone = false
          unfold payEnter
          split <;> rfl
        | _ => rfl
      simpa [committed, hNone] using hCommitted
    | @call o store store' call call' before after hOk hStep =>
      obtain ⟨hLasts, hSpares⟩ := Bool.and_eq_true_iff.mp hOk
      have hBefore : WithinWindows env ⟨store.pass o.elapsed, before ++ call :: after⟩ := ih
      refine hBefore.took (hInForce.pass o.elapsed) ?_ (took_of_step hStep) hSpares
      exact fun other hMem => (hSees other hMem).pass hLasts

/-- While no mandate is revoked or expires under a confirmation that is under way, and requests are
confirmed on the day they were created, every cap holds and nothing is confirmed too late. -/
theorem careful_confirmations_within_caps {env : Env} {start : Store} {c : Config Store Call}
    (hStart : Unrequested start)
    (h : (program env).Reaches (Careful env) (Program.idle start) c) :
    WithinCaps env c.store := by
  obtain ⟨hInForce, _⟩ := inForce_of_reaches hStart.inForce h
  have hWindows := withinWindows_of_reaches hStart h
  refine ⟨?_, ?_, ?_⟩
  · intro w id m t hMandate
    refine le_trans (sumOf_le (fun r hMem => (hInForce.requests r hMem).1) ?_)
      (hWindows w id m (w.startOf env.calendar t) hMandate)
    intro rid r hRow hConfirmed
    simp only [Bool.and_eq_true, beq_iff_eq] at hConfirmed
    obtain ⟨⟨hId, hStatus⟩, hDecidedIn⟩ := hConfirmed
    obtain ⟨decided, hDecided, hWindow⟩ := (Option.any_eq_true _ _).mp hDecidedIn
    obtain ⟨_, decided', _, hDecided', _, _, _, _, hDay⟩ :=
      hInForce.confirmed r (List.mem_of_getElem? hRow) hStatus
    rw [hDecided, Option.some.injEq] at hDecided'
    subst hDecided'
    refine ⟨r, hRow, ?_, rfl⟩
    have hCreated : w.startOf env.calendar r.createdAt = w.startOf env.calendar t :=
      (w.startOf_of_day env.calendar hDay).trans (by simpa using hWindow)
    simp [committed, hId, hStatus, hCreated]
  · intro r hMem hStatus m hMandate
    obtain ⟨m', _, hMandate', _, _, _, _, hAmount, _⟩ := hInForce.confirmed r hMem hStatus
    rw [hMandate, Option.some.injEq] at hMandate'
    rwa [hMandate']
  · intro r hMem hStatus
    obtain ⟨m, t, hMandate, hDecided, _, hExpires, hRevoked, _, _⟩ :=
      hInForce.confirmed r hMem hStatus
    exact ⟨m, t, hMandate, hDecided, hExpires, hRevoked⟩

/-! Two requests of ten FARM each, just before midnight of the first day. -/

def tenFarm : PaymentIntent where
  businessId := 3
  liveMode := true
  amount := 1000 * cent
  status := .requiresPayment
  payerUserId := none
  transactionReference := none
  amountRefunded := 0
  expiresAt := 172800000
  paidAt := none
  canceledAt := none

/-- The mandate of user 2 for the business of user 1, with a daily cap. -/
def mandated (dailyCap : ℤ) : Store where
  now := 86340000
  intents := [tenFarm, tenFarm]
  mandates := [⟨2, 3, 1000 * cent, dailyCap, 10000 * cent, true, 259200000, none⟩]
  requests := []
  ownerOf business := if business = 3 then some 1 else none
  transfers := []

def serverWithUtc : Env := ⟨utc, 1800000⟩

def after (elapsed : ℕ) : Outcome := ⟨elapsed, false, .ok 77, false⟩

/-- The agent's request for an intent, and the user's confirmation of a request. -/
def creation (id : IntentId) : Request := .create ⟨⟨3, none, true⟩, 0, id, none⟩

def confirmation (id : RequestId) : Request := .confirm ⟨2, id, true⟩

/-- A call that is taken through `steps` steps, the first of them after `elapsed`. -/
def runs (index elapsed steps : ℕ) : List (Move Request Outcome) :=
  .run index (after elapsed) :: List.replicate (steps - 1) (.run index (after 0))

/-- Two requests, created and confirmed one after the other; the first is confirmed after a while. -/
def oneAfterTheOther (elapsed : ℕ) : List (Move Request Outcome) :=
  .enter (creation 0) :: runs 0 0 8 ++ .enter (confirmation 0) :: runs 1 elapsed 13 ++
    .enter (creation 1) :: runs 2 0 8 ++ .enter (confirmation 1) :: runs 3 0 13

def revokedMeanwhile : List (Move Request Outcome) :=
  .enter (creation 0) :: runs 0 0 8 ++ .enter (confirmation 0) :: runs 1 0 5 ++
    .enter (.revoke 2 0) :: .run 2 (after 0) :: runs 1 1 8

theorem mandated_unrequested {dailyCap : ℤ} (hCap : 0 ≤ dailyCap) :
    Unrequested (mandated dailyCap) := by
  refine ⟨rfl, ?_, ?_⟩
  · intro i hMem
    have hSame : i = tenFarm := by simpa [mandated] using hMem
    rw [hSame]
    decide
  · intro m hMem
    rw [List.mem_singleton.mp hMem]
    exact ⟨hCap, show (0 : ℤ) ≤ 10000 * cent by decide, fun _ => rfl⟩

/-- Created at 23:59 and confirmed at 00:01, ten FARM do not count in the day of the confirmation:
twenty are confirmed under a daily cap of ten. And a revoked mandate does not stop a confirmation
that has been checked. -/
theorem caps_broken :
    (∃ c, (program serverWithUtc).Reaches anyStep (Program.idle (mandated (1000 * cent))) c ∧
      c.store.confirmedIn utc .day 0 86460000 = 2000 * cent ∧
      ¬WithinCaps serverWithUtc c.store) ∧
    ∃ c, (program serverWithUtc).Reaches anyStep (Program.idle (mandated (1000 * cent))) c ∧
      ¬WithinCaps serverWithUtc c.store := by
  constructor
  · have hRuns : ((program serverWithUtc).schedule (oneAfterTheOther 120000)
        (Program.idle (mandated (1000 * cent)))).any (fun c =>
          decide (c.store.confirmedIn utc .day 0 86460000 = 2000 * cent ∧
            c.store.mandates[0]? = (mandated (1000 * cent)).mandates[0]?)) = true := by
      decide +kernel
    obtain ⟨c, hRun, hEnd⟩ := (Option.any_eq_true _ _).mp hRuns
    obtain ⟨hSum, hMandate⟩ := of_decide_eq_true hEnd
    refine ⟨c, Program.reaches_of_schedule hRun, hSum, fun hCaps => ?_⟩
    have hLe := hCaps.window .day 0 _ 86460000 hMandate
    rw [show serverWithUtc.calendar = utc from rfl, hSum] at hLe
    exact absurd hLe (by decide)
  · have hRuns : ((program serverWithUtc).schedule revokedMeanwhile
        (Program.idle (mandated (1000 * cent)))).any (fun c =>
          decide (c.store.requests.map (fun r => (r.status, r.authorizationId, r.decidedAt)) =
            [(.confirmed, 0, some 86340001)] ∧
            c.store.mandates.map (·.revokedAt) = [some 86340000])) = true := by
      decide +kernel
    obtain ⟨c, hRun, hEnd⟩ := Program.reaches_of_any hRuns
    obtain ⟨hRequests, hMandates⟩ := of_decide_eq_true hEnd
    refine ⟨c, hRun, fun hCaps => ?_⟩
    obtain ⟨r, hRows, hRow⟩ := List.map_eq_singleton_iff.mp hRequests
    obtain ⟨m, hMandate, hRevoked⟩ := List.map_eq_singleton_iff.mp hMandates
    simp only [Prod.mk.injEq] at hRow
    obtain ⟨hStatus, hId, hDecided⟩ := hRow
    obtain ⟨m', t, hFound, hAt, _, hBefore⟩ :=
      hCaps.inForce r (by rw [hRows]; exact List.mem_singleton.mpr rfl) hStatus
    rw [hId, hMandate] at hFound
    cases hFound
    rw [hDecided, Option.some.injEq] at hAt
    have hLe := hBefore _ hRevoked
    rw [← hAt] at hLe
    exact absurd hLe (by decide)

/-- On one day, both requests fit into a daily cap of twenty. -/
theorem twenty_confirmed_within_caps : ∃ c,
    (program serverWithUtc).Reaches (Careful serverWithUtc)
      (Program.idle (mandated (2000 * cent))) c ∧
    c.store.confirmedIn utc .day 0 86340000 = 2000 * cent ∧ WithinCaps serverWithUtc c.store := by
  have hRuns : (((program serverWithUtc).guarded (Careful serverWithUtc)).schedule
      (oneAfterTheOther 1000) (Program.idle (mandated (2000 * cent)))).any (fun c =>
        decide (c.store.confirmedIn utc .day 0 86340000 = 2000 * cent)) = true := by
    decide +kernel
  obtain ⟨c, hReach, hSum⟩ := Program.reaches_of_guarded_any hRuns
  exact ⟨c, hReach, of_decide_eq_true hSum,
    careful_confirmations_within_caps (mandated_unrequested (by decide)) hReach⟩

end FarmBackend.AgentPayments
