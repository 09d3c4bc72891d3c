import FarmBackend.WebhookDeliveries
import Mathlib.Algebra.GroupWithZero.Nat

/-!
# Attempts that do not overlap

While one attempt is in flight no other reads the row, so what it writes is computed from the row as
it is; and the count of those in flight is that of the running calls.
-/

namespace FarmBackend.WebhookDeliveries
open Interleaving

set_option autoImplicit false

/-! What a step can do. -/

inductive Took (o : Outcome) (s : Store) : Call → Store → Call → Prop where
  | aside {call call' : Call} (hBefore : call.inFlight = false) (hAfter : call'.inFlight = false) :
      Took o s call s call'
  | created (hNone : s.delivery = none) :
      Took o s .enqueue { s with delivery := some ⟨.pending, 0, some o.now⟩ } .attempt
  | reopened {d : Delivery} (hRow : s.delivery = some d) :
      Took o s .retryNow { s with
        delivery := some { d with status := .retrying, nextAttemptAt := some o.now }
        retried := true } .attempt
  | read {d : Delivery} (hRow : s.delivery = some d) (hOpen : d.status.isOpen = true) :
      Took o s .attempt { s with inFlight := s.inFlight + 1 } (.post d.attempts s.answered)
  | posted {attempts : ℕ} {late : Bool} :
      Took o s (.post attempts late) { s with
        posts := s.posts + 1
        answered := s.answered || accepted o.answer
        reposted := s.reposted || late } (.record attempts (accepted o.answer))
  | unposted {attempts : ℕ} {late : Bool} (hReady : o.ready = false) :
      Took o s (.post attempts late) s (.record attempts false)
  | wrote {attempts : ℕ} {ok : Bool} :
      Took o s (.record attempts ok) { s with
        delivery := s.delivery.map fun _ => recorded o.now (attempts + 1) ok
        inFlight := s.inFlight - 1 } .done

section Steps
variable {o : Outcome} {s s' : Store} {call call' : Call}

theorem took_of_step (h : step o s call = some (s', call')) : Took o s call s' call' := by
  cases call with
  | enqueue =>
    simp only [step] at h
    split at h <;> cases h
    · exact .aside rfl rfl
    · rename_i hNone
      exact .created (Option.not_isSome_iff_eq_none.mp hNone)
  | retryDue =>
    simp only [step] at h
    split at h <;> cases h <;> exact .aside rfl rfl
  | retryNow =>
    simp only [step] at h
    split at h
    · cases h
    · rename_i d hRow
      cases h
      exact .reopened hRow
  | attempt =>
    simp only [step] at h
    split at h
    · cases h
      exact .aside rfl rfl
    · rename_i d hRow
      split at h <;> cases h
      · rename_i hOpen
        exact .read hRow hOpen
      · exact .aside rfl rfl
  | post attempts late =>
    simp only [step] at h
    split at h <;> cases h
    · exact .posted
    · rename_i hReady
      exact .unposted (Bool.not_eq_true _ ▸ hReady)
  | record attempts ok =>
    cases h
    exact .wrote
  | done => cases h

end Steps

/-! The attempts in flight. -/

def flights (calls : List Call) : ℕ := (calls.map fun call => call.inFlight.toNat).sum

theorem flights_split (call : Call) (before after : List Call) :
    flights (before ++ call :: after) =
      call.inFlight.toNat + (flights before + flights after) := by
  simp only [flights, List.map_append, List.map_cons, List.sum_append, List.sum_cons]
  omega

theorem flights_pos {calls : List Call} {call : Call} (h : call ∈ calls)
    (hFlight : call.inFlight = true) : 0 < flights calls := by
  obtain ⟨before, after, rfl⟩ := List.append_of_mem h
  rw [flights_split, hFlight]
  exact Nat.lt_of_lt_of_le Nat.zero_lt_one (Nat.le_add_right _ _)

/-- Who else is in flight. -/
theorem flights_apart {call other : Call} {before after : List Call}
    (hOther : other ∈ before ++ after) (hFlight : call.inFlight = true)
    (hOtherFlight : other.inFlight = true) : 2 ≤ flights (before ++ call :: after) := by
  have hPos := flights_pos hOther hOtherFlight
  have hSum : flights (before ++ after) = flights before + flights after := by
    simp [flights]
  rw [flights_split, hFlight, Bool.toNat_true]
  omega

theorem exists_flight {calls : List Call} (h : 0 < flights calls) :
    ∃ call ∈ calls, call.inFlight = true := by
  by_contra hNone
  push Not at hNone
  have hZero : flights calls = 0 := by
    refine List.sum_eq_zero ?_
    intro n hMem
    obtain ⟨call, hCall, rfl⟩ := List.mem_map.mp hMem
    rw [Bool.eq_false_iff.mpr (hNone call hCall)]
    rfl
  omega

/-! What the store keeps, and what an attempt knows. -/

structure Kept (s : Store) : Prop where
  single : s.inFlight ≤ 1
  idle : s.inFlight = 0 →
    s.posts = s.attempts ∧ (s.answered = true → s.status = some .succeeded)
  reposted : s.reposted = false
  bounded : s.retried = false → s.posts ≤ maxAttempts
  opened : s.retried = false → s.status.any DeliveryStatus.isOpen = true →
    s.attempts < maxAttempts
  absent : s.delivery = none → s.posts = 0 ∧ s.inFlight = 0 ∧ s.answered = false

/-- Nothing but the attempt in flight changes what it has read. -/
def Knows (s : Store) : Call → Prop
  | .post attempts late => s.inFlight = 1 ∧ attempts = s.attempts ∧ s.posts = s.attempts ∧
    s.answered = false ∧ late = false ∧ (s.retried = false → s.attempts < maxAttempts)
  | .record attempts ok => s.inFlight = 1 ∧ attempts = s.attempts ∧ s.posts = s.attempts + 1 ∧
    s.answered = ok
  | _ => True

section Invariant
variable {o : Outcome} {s s' : Store} {call call' : Call}

theorem knows_of_not_inFlight (h : call.inFlight = false) : Knows s call := by
  cases call with
  | post _ _ | record _ _ => cases h
  | _ => exact trivial

theorem status_some {d : Delivery} (h : s.delivery = some d) : s.status = some d.status := by
  rw [Store.status, h]
  rfl

theorem attempts_some {d : Delivery} (h : s.delivery = some d) : s.attempts = d.attempts := by
  rw [Store.attempts, h]
  rfl

/-- What an attempt writes has ended the row, or leaves attempts. -/
theorem recorded_open {now attempts : ℕ} {ok : Bool}
    (h : (recorded now attempts ok).status.isOpen = true) : attempts < maxAttempts := by
  unfold recorded at h
  split at h
  · cases h
  · split at h
    · cases h
    · rename_i hLess
      exact Nat.lt_of_not_le hLess

theorem recorded_attempts (now attempts : ℕ) (ok : Bool) :
    (recorded now attempts ok).attempts = attempts := by
  unfold recorded
  split
  · rfl
  · split <;> rfl

theorem kept_step (h : Kept s) (hKnows : Knows s call) (hHeeds : Heeds o s call)
    (hTook : Took o s call s' call') : Kept s' ∧ Knows s' call' := by
  cases hTook with
  | aside _ hAfter => exact ⟨h, knows_of_not_inFlight hAfter⟩
  | created hNone =>
    obtain ⟨hPosts, hIdle, hAnswered⟩ := h.absent hNone
    refine ⟨⟨h.single, fun _ => ⟨hPosts, ?_⟩, h.reposted, h.bounded, ?_, nofun⟩, trivial⟩
    · intro hTrue
      rw [show s.answered = true from hTrue] at hAnswered
      cases hAnswered
    · exact fun _ _ => Nat.zero_lt_succ _
  | @reopened d hRow =>
    refine ⟨⟨h.single, ?_, h.reposted, nofun, nofun, nofun⟩, trivial⟩
    intro hIdle
    obtain ⟨hPosts, hSucceeded⟩ := h.idle hIdle
    rw [attempts_some hRow] at hPosts
    exact ⟨hPosts, fun hAnswered => absurd (hSucceeded hAnswered) hHeeds⟩
  | @read d hRow hOpen =>
    have hStatus := status_some hRow
    have hLive : s.status.any DeliveryStatus.isOpen = true := by
      rw [hStatus]
      exact hOpen
    have hIdle : s.inFlight = 0 := hHeeds hLive
    obtain ⟨hPosts, hSucceeded⟩ := h.idle hIdle
    have hAnswered : s.answered = false := by
      by_contra hTrue
      rw [Bool.not_eq_false] at hTrue
      have hEnd := hSucceeded hTrue
      rw [hStatus, Option.some.injEq] at hEnd
      rw [hEnd] at hOpen
      cases hOpen
    have hFlight : s.inFlight + 1 = 1 := by omega
    refine ⟨⟨Nat.le_of_eq hFlight, ?_, h.reposted, h.bounded, h.opened, ?_⟩, hFlight,
      (attempts_some hRow).symm, hPosts, hAnswered, hAnswered, fun hRetried => ?_⟩
    · intro hZero
      exact absurd hZero (Nat.succ_ne_zero _)
    · intro hNone
      rw [show s.delivery = none from hNone] at hRow
      cases hRow
    · exact h.opened hRetried hLive
  | @posted attempts late =>
    obtain ⟨hFlight, hRead, hPosts, hAnswered, hLate, hLess⟩ := hKnows
    refine ⟨⟨h.single, ?_, ?_, ?_, h.opened, ?_⟩, hFlight, hRead, ?_, ?_⟩
    · intro hZero
      rw [show s.inFlight = 0 from hZero] at hFlight
      cases hFlight
    · rw [hLate, Bool.or_false]
      exact h.reposted
    · intro hRetried
      have hBound := hLess hRetried
      rw [← hPosts] at hBound
      exact hBound
    · intro hNone
      rw [(h.absent hNone).2.1] at hFlight
      cases hFlight
    · exact congrArg (· + 1) hPosts
    · rw [hAnswered, Bool.false_or]
  | unposted hReady =>
    rw [show o.ready = true from hHeeds] at hReady
    cases hReady
  | @wrote attempts ok =>
    obtain ⟨hFlight, hRead, hPosts, hAnswered⟩ := hKnows
    obtain ⟨d, hRow⟩ : ∃ d, s.delivery = some d := by
      refine Option.ne_none_iff_exists'.mp ?_
      intro hNone
      rw [(h.absent hNone).2.1] at hFlight
      cases hFlight
    rw [hRow, Option.map_some]
    refine ⟨⟨?_, fun _ => ⟨?_, ?_⟩, h.reposted, h.bounded, ?_, nofun⟩, trivial⟩
    · rw [hFlight]
      exact Nat.zero_le _
    · rw [hPosts, ← hRead]
      exact (recorded_attempts _ _ _).symm
    · intro hTrue
      have hOk : ok = true := hAnswered.symm.trans hTrue
      rw [hOk]
      rfl
    · intro _ hOpen
      have hLess := recorded_open hOpen
      rw [← recorded_attempts o.now (attempts + 1) ok] at hLess
      exact hLess

/-- Whoever is not in flight leaves the attempt in flight what it knows. -/
theorem knows_other {other : Call} (h : Kept s) (hOther : Knows s other)
    (hHeeds : Heeds o s call) (hApart : other.inFlight = true → call.inFlight = false)
    (hTook : Took o s call s' call') : Knows s' other := by
  cases hCase : other.inFlight with
  | false => exact knows_of_not_inFlight hCase
  | true =>
    have hOut := hApart hCase
    have hFlight : s.inFlight = 1 := by
      cases other with
      | post _ _ | record _ _ => exact hOther.1
      | _ => cases hCase
    cases hTook with
    | aside _ _ => exact hOther
    | created hNone =>
      rw [(h.absent hNone).2.1] at hFlight
      cases hFlight
    | @reopened d hRow =>
      have hAttempts := attempts_some hRow
      cases other with
      | post attempts late =>
        obtain ⟨-, hRead, hPosts, hAnswered, hLate, -⟩ := hOther
        exact ⟨hFlight, hRead.trans hAttempts, hPosts.trans hAttempts, hAnswered, hLate, nofun⟩
      | record attempts ok =>
        obtain ⟨-, hRead, hPosts, hAnswered⟩ := hOther
        exact ⟨hFlight, hRead.trans hAttempts, hPosts.trans (congrArg (· + 1) hAttempts), hAnswered⟩
      | _ => cases hCase
    | @read d hRow hOpen =>
      have hLive : s.status.any DeliveryStatus.isOpen = true := by
        rw [status_some hRow]
        exact hOpen
      rw [hHeeds hLive] at hFlight
      cases hFlight
    | posted | unposted _ | wrote => cases hOut

end Invariant

section Runs
variable {ok : Guard Store Call Outcome} {c : Config Store Call}

/-- The count of the store is that of the calls, in every run. -/
theorem inFlight_eq (h : program.Reaches ok (Program.idle empty) c) :
    c.store.inFlight = flights c.calls := by
  refine h.invariant (fun c => c.store.inFlight = flights c.calls) rfl ?_ ?_
  · intro request s calls hCount
    have hEnter : (enter request).inFlight = false := by cases request <;> rfl
    have hNew : flights (calls ++ [enter request]) = flights calls := by
      simp [flights, hEnter]
    exact hCount.trans hNew.symm
  · intro o s s' call call' before after hCount _ hStep
    rw [flights_split] at hCount ⊢
    cases took_of_step hStep with
    | aside hBefore hAfter =>
      rw [hBefore] at hCount
      rw [hAfter]
      exact hCount
    | created _ | reopened _ | posted | unposted _ => exact hCount
    | read _ _ =>
      have hCalls : s.inFlight = 0 + (flights before + flights after) := hCount
      simp only [Call.inFlight, Bool.toNat_true]
      omega
    | wrote =>
      have hCalls : s.inFlight = 1 + (flights before + flights after) := hCount
      simp only [Call.inFlight, Bool.toNat_false]
      omega

theorem kept_reaches (h : program.Reaches Heeds (Program.idle empty) c) :
    Kept c.store ∧ ∀ call ∈ c.calls, Knows c.store call := by
  refine h.assertions_among Kept Knows ⟨?_, nofun⟩ ?_ ?_ ?_
  · exact ⟨Nat.zero_le _, fun _ => ⟨rfl, nofun⟩, rfl, fun _ => Nat.zero_le _, nofun,
      fun _ => ⟨rfl, rfl, rfl⟩⟩
  · intro request s _
    cases request <;> exact trivial
  · intro o s s' call call' _ _ _ hKept hKnows hHeeds hStep
    exact kept_step hKept hKnows hHeeds (took_of_step hStep)
  · intro o s s' call call' before after other hRun hMem hKept _ hOther hHeeds hStep
    refine knows_other hKept hOther hHeeds ?_ (took_of_step hStep)
    intro hFlight
    by_contra hOwn
    rw [Bool.not_eq_false] at hOwn
    have hTwo := flights_apart hMem hOwn hFlight
    have hCount : s.inFlight = flights (before ++ call :: after) := inFlight_eq hRun
    have hSingle := hKept.single
    omega

/-- In every run in which attempts do not overlap and post, and nobody retries what has
succeeded. -/
theorem delivered_once (h : program.Reaches Heeds (Program.idle empty) c) : Consistent c := by
  obtain ⟨hKept, hKnows⟩ := kept_reaches h
  have hCount := inFlight_eq h
  refine ⟨?_, hKept.reposted, hKept.bounded, ?_⟩
  · intro hAnswered
    rcases Nat.eq_zero_or_pos c.store.inFlight with hIdle | hFlight
    · exact .inl ((hKept.idle hIdle).2 hAnswered)
    · obtain ⟨call, hMem, hOwn⟩ := exists_flight (hCount ▸ hFlight)
      have hOwnKnows := hKnows call hMem
      refine .inr ⟨call, hMem, ?_⟩
      cases call with
      | post attempts late =>
        rw [hOwnKnows.2.2.2.1] at hAnswered
        cases hAnswered
      | record attempts ok => exact hOwnKnows.2.2.2.symm.trans hAnswered
      | _ => cases hOwn
  · intro _ hNone
    refine (hKept.idle ?_).1
    by_contra hFlight
    obtain ⟨call, hMem, hOwn⟩ := exists_flight (hCount ▸ Nat.pos_of_ne_zero hFlight)
    rw [hNone call hMem] at hOwn
    cases hOwn

end Runs

def answering (status : ℕ) : Outcome := ⟨0, true, some status⟩

/-- The cron attempts the delivery while its first attempt is in flight; the first one is answered
with 200, the other one with 500, and the cron comes again. -/
def overlapping : List (Move Request Outcome) :=
  [.enter .enqueue, .run 0 (answering 200), .run 0 (answering 200), .enter .retryDue,
    .run 1 (answering 500), .run 1 (answering 500), .run 0 (answering 200), .run 1 (answering 500),
    .run 0 (answering 200), .run 1 (answering 500)]

theorem delivered_again :
    ∃ c, program.Reaches anyStep (Program.idle empty) c ∧ c.store.answered = true ∧
      c.store.status = some .retrying ∧ c.store.posts = 2 ∧ c.store.attempts = 1 ∧
      ¬ Consistent c := by
  have hRun : (program.schedule overlapping (Program.idle empty)).any (fun c =>
      c.store.answered && c.store.status == some .retrying && c.store.posts == 2 &&
        c.store.attempts == 1 && !c.calls.any Call.delivers) = true := by
    decide +kernel
  obtain ⟨c, hReach, hEnd⟩ := Program.reaches_of_any hRun
  simp only [Bool.and_eq_true, beq_iff_eq, Bool.not_eq_true', List.any_eq_false,
    Bool.not_eq_true] at hEnd
  obtain ⟨⟨⟨⟨hAnswered, hStatus⟩, hPosts⟩, hAttempts⟩, hNone⟩ := hEnd
  refine ⟨c, hReach, hAnswered, hStatus, hPosts, hAttempts, ?_⟩
  intro hConsistent
  rcases hConsistent.delivered hAnswered with hSucceeded | ⟨call, hMem, hDelivers⟩
  · rw [hStatus] at hSucceeded
    cases hSucceeded
  · rw [hNone call hMem] at hDelivers
    cases hDelivers

/-- The first attempt is answered with 500, the second one with 200. -/
theorem delivered_on_retry :
    ∃ c, program.Reaches Heeds (Program.idle empty) c ∧ c.store.status = some .succeeded ∧
      c.store.posts = 2 ∧ Consistent c := by
  have hRun : ((program.guarded Heeds).schedule
      [.enter .enqueue, .run 0 (answering 500), .run 0 (answering 500), .run 0 (answering 500),
        .run 0 (answering 500), .enter .retryDue, .run 1 ⟨60000, true, none⟩,
        .run 1 (answering 200), .run 1 (answering 200), .run 1 (answering 200)]
      (Program.idle empty)).any (fun c =>
        c.store.status == some .succeeded && c.store.posts == 2) = true := by
    decide +kernel
  obtain ⟨c, hReach, hEnd⟩ := Program.reaches_of_guarded_any hRun
  simp only [Bool.and_eq_true, beq_iff_eq] at hEnd
  exact ⟨c, hReach, hEnd.1, hEnd.2, delivered_once hReach⟩

end FarmBackend.WebhookDeliveries
