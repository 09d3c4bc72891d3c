import FarmBackend.Wallets
import Mathlib.Logic.Relation

/-!
# The life of a deposit reference

What the two rows of a reference are for, without the services: the deposit row with its id and
status, the status of the transaction, and how often the wallet was credited. The steps are those
that respect a settlement: what is `SUCCESS` or `completed` is not marked failed any more.
-/

namespace FarmBackend.Deposits
open Wallets (TransactionStatus)

set_option autoImplicit false

inductive DepositStatus where
  | pending
  | processing
  | success
  | failed
  deriving DecidableEq, Repr

structure Reference where
  deposit : Option (ℕ × DepositStatus)
  transaction : Option TransactionStatus
  credits : ℕ
  nextDepositId : ℕ

namespace Reference

/-- The transaction is neither pending nor processing. -/
def Closed (r : Reference) : Prop :=
  r.transaction ≠ some .pending ∧ r.transaction ≠ some .processing

/-- `named`: the transaction names the user, so that a missing deposit can be rebuilt. `careful`:
the cleanup does not delete a deposit that was settled after it looked. -/
inductive Step (named careful : Bool) : Reference → Reference → Prop where
  | settles (id : ℕ) (status : TransactionStatus) (credits next : ℕ) :
      Step named careful ⟨some (id, .pending), some status, credits, next⟩
        ⟨some (id, .success), some .completed, credits + 1, next⟩
  | settlesAlone (status : TransactionStatus) (credits next : ℕ) (hUnnamed : named = false)
      (hStatus : status ≠ .completed) :
      Step named careful ⟨none, some status, credits, next⟩
        ⟨none, some .completed, credits + 1, next⟩
  | rebuilds (transaction : Option TransactionStatus) (credits next : ℕ) (hNamed : named = true) :
      Step named careful ⟨none, transaction, credits, next⟩
        ⟨some (next, .pending), transaction, credits, next + 1⟩
  | failsTransaction (deposit : Option (ℕ × DepositStatus)) (status : TransactionStatus)
      (credits next : ℕ) (hStatus : status ≠ .completed) :
      Step named careful ⟨deposit, some status, credits, next⟩
        ⟨deposit, some .failed, credits, next⟩
  | failsDeposit (id : ℕ) (status : DepositStatus) (transaction : Option TransactionStatus)
      (credits next : ℕ) (hStatus : status ≠ .success)
      (hClosed : Closed ⟨some (id, status), transaction, credits, next⟩) :
      Step named careful ⟨some (id, status), transaction, credits, next⟩
        ⟨some (id, .failed), transaction, credits, next⟩
  | deletes (id : ℕ) (status : DepositStatus) (transaction : TransactionStatus)
      (credits next : ℕ) (hCareful : careful = true → status ≠ .success) :
      Step named careful ⟨some (id, status), some transaction, credits, next⟩
        ⟨none, none, credits, next⟩
  | deletesFailed (id : ℕ) (transaction : Option TransactionStatus) (credits next : ℕ) :
      Step named careful ⟨some (id, .failed), transaction, credits, next⟩
        ⟨none, transaction, credits, next⟩

abbrev Steps (named careful : Bool) : Reference → Reference → Prop :=
  Relation.ReflTransGen (Step named careful)

/-- The rows of a credited reference, as long as they are there. -/
def Settled (named : Bool) (r : Reference) : Prop :=
  r.transaction = some .completed ∧
    ((∃ id, r.deposit = some (id, .success)) ∨ (named = false ∧ r.deposit = none))

structure Sound (named : Bool) (r : Reference) : Prop where
  credits_le : r.credits ≤ 1
  settled_of_credited : r.credits ≠ 0 → r.transaction = none ∨ Settled named r
  credited_of_completed : r.transaction = some .completed → r.credits ≠ 0
  credited_of_success : ∀ id, r.deposit = some (id, .success) → r.credits ≠ 0
  closed_of_failed : ∀ id, r.deposit = some (id, .failed) → r.Closed
  not_processing : ∀ id, r.deposit ≠ some (id, .processing)
  id_lt : ∀ id status, r.deposit = some (id, status) → id < r.nextDepositId

section Steps
variable {named careful : Bool} {r r' : Reference}

theorem Closed.step (h : r.Closed) (hStep : Step named careful r r') : r'.Closed := by
  cases hStep with
  | settles id status credits next => exact ⟨nofun, nofun⟩
  | settlesAlone status credits next hUnnamed hStatus => exact ⟨nofun, nofun⟩
  | rebuilds transaction credits next hNamed => exact h
  | failsTransaction deposit status credits next hStatus => exact ⟨nofun, nofun⟩
  | failsDeposit id status transaction credits next hStatus hClosed => exact h
  | deletes id status transaction credits next hCareful => exact ⟨nofun, nofun⟩
  | deletesFailed id transaction credits next => exact h

/-- Nothing has been credited while the deposit is pending or, unnamed, while it is missing and the
transaction is not completed. -/
theorem Sound.uncredited (h : Sound named r) (hTransaction : r.transaction ≠ none)
    (hOpen : ¬Settled named r) : r.credits = 0 := by
  by_contra hCredited
  rcases h.settled_of_credited hCredited with hNone | hSettled
  · exact hTransaction hNone
  · exact hOpen hSettled

theorem Sound.step (h : Sound named r) (hStep : Step named careful r r') : Sound named r' := by
  cases hStep with
  | settles id status credits next =>
    have hZero : credits = 0 := h.uncredited nofun (by simp [Settled])
    subst hZero
    exact ⟨le_rfl, fun _ => .inr ⟨rfl, .inl ⟨id, rfl⟩⟩, fun _ => one_ne_zero,
      fun _ _ => one_ne_zero, nofun, nofun, by simpa using h.id_lt⟩
  | settlesAlone status credits next hUnnamed hStatus =>
    have hZero : credits = 0 := h.uncredited nofun (by simp [Settled, hStatus])
    subst hZero
    exact ⟨le_rfl, fun _ => .inr ⟨rfl, .inr ⟨hUnnamed, rfl⟩⟩, fun _ => one_ne_zero,
      nofun, nofun, nofun, nofun⟩
  | rebuilds transaction credits next hNamed =>
    refine ⟨h.credits_le, ?_, h.credited_of_completed, nofun, nofun, nofun, ?_⟩
    · intro hCredited
      rcases h.settled_of_credited hCredited with hNone | ⟨-, ⟨id, hSome⟩ | ⟨hUnnamed, -⟩⟩
      · exact .inl hNone
      · cases hSome
      · rw [hUnnamed] at hNamed
        cases hNamed
    · intro id status hRow
      cases hRow
      exact Nat.lt_succ_self next
  | failsTransaction deposit status credits next hStatus =>
    have hZero : credits = 0 := h.uncredited nofun (by simp [Settled, hStatus])
    exact ⟨h.credits_le, fun hCredited => absurd hZero hCredited, nofun, h.credited_of_success,
      fun _ _ => ⟨nofun, nofun⟩, h.not_processing, h.id_lt⟩
  | failsDeposit id status transaction credits next hStatus hClosed =>
    refine ⟨h.credits_le, ?_, h.credited_of_completed, nofun, fun _ _ => hClosed, nofun, ?_⟩
    · intro hCredited
      rcases h.settled_of_credited hCredited with hNone | ⟨-, ⟨_, hSome⟩ | ⟨-, hMissing⟩⟩
      · exact .inl hNone
      · cases hSome
        exact absurd rfl hStatus
      · cases hMissing
    · intro _ _ hRow
      cases hRow
      exact h.id_lt id status rfl
  | deletes id status transaction credits next hCareful =>
    exact ⟨h.credits_le, fun _ => .inl rfl, nofun, nofun, nofun, nofun, nofun⟩
  | deletesFailed id transaction credits next =>
    refine ⟨h.credits_le, ?_, h.credited_of_completed, nofun, nofun, nofun, nofun⟩
    intro hCredited
    rcases h.settled_of_credited hCredited with hNone | ⟨-, ⟨_, hSome⟩ | ⟨-, hMissing⟩⟩
    · exact .inl hNone
    · cases hSome
    · cases hMissing

theorem Closed.steps (h : r.Closed) (hSteps : Steps named careful r r') : r'.Closed := by
  induction hSteps with
  | refl => exact h
  | tail _ hStep ih => exact ih.step hStep

theorem Sound.steps (h : Sound named r) (hSteps : Steps named careful r r') : Sound named r' := by
  induction hSteps with
  | refl => exact h
  | tail _ hStep ih => exact ih.step hStep

theorem missing_steps (hMissing : r.deposit = none) (hSteps : Steps false careful r r') :
    r'.deposit = none := by
  induction hSteps with
  | refl => exact hMissing
  | tail _ hStep ih =>
    cases hStep with
    | rebuilds transaction credits next hNamed => cases hNamed
    | failsTransaction deposit status credits next hStatus => exact ih
    | _ => first | rfl | cases ih

/-- No step takes the row with this id out of `FAILED`. -/
def FailedAt (id : ℕ) (r : Reference) : Prop :=
  id < r.nextDepositId ∧ ∀ status, r.deposit = some (id, status) → status = .failed

theorem FailedAt.steps {id : ℕ} (h : r.FailedAt id) (hSteps : Steps named careful r r') :
    r'.FailedAt id := by
  induction hSteps with
  | refl => exact h
  | tail _ hStep ih =>
    obtain ⟨hLt, hFailed⟩ := ih
    cases hStep with
    | settles other status credits next =>
      refine ⟨hLt, ?_⟩
      intro status hRow
      cases hRow
      cases hFailed .pending rfl
    | settlesAlone status credits next hUnnamed hStatus => exact ⟨hLt, nofun⟩
    | rebuilds transaction credits next hNamed =>
      refine ⟨Nat.lt_succ_of_lt hLt, ?_⟩
      intro status hRow
      cases hRow
      exact absurd hLt (lt_irrefl _)
    | failsTransaction deposit status credits next hStatus => exact ⟨hLt, hFailed⟩
    | failsDeposit other status transaction credits next hStatus hClosed =>
      refine ⟨hLt, ?_⟩
      intro status hRow
      cases hRow
      rfl
    | deletes other status transaction credits next hCareful => exact ⟨hLt, nofun⟩
    | deletesFailed other transaction credits next => exact ⟨hLt, nofun⟩

/-- Settled rows are final when the cleanup is careful. -/
theorem Settled.not_step (h : Settled named r) : ¬Step named true r r' := by
  obtain ⟨hCompleted, hRow⟩ := h
  intro hStep
  rcases hRow with ⟨id, hSuccess⟩ | ⟨hUnnamed, hMissing⟩
  · cases hStep with
    | failsTransaction deposit status credits next hStatus =>
      exact hStatus (Option.some.inj hCompleted)
    | failsDeposit other status transaction credits next hStatus hClosed =>
      cases hSuccess
      exact hStatus rfl
    | deletes other status transaction credits next hCareful =>
      cases hSuccess
      exact hCareful rfl rfl
    | _ => cases hSuccess
  · cases hStep with
    | settlesAlone status credits next _ hStatus => exact hStatus (Option.some.inj hCompleted)
    | rebuilds transaction credits next hNamed =>
      rw [hUnnamed] at hNamed
      cases hNamed
    | failsTransaction deposit status credits next hStatus =>
      exact hStatus (Option.some.inj hCompleted)
    | _ => cases hMissing

theorem Settled.steps (h : Settled named r) (hSteps : Steps named true r r') : r' = r := by
  induction hSteps with
  | refl => rfl
  | tail _ hStep ih =>
    subst ih
    exact absurd hStep h.not_step

/-- With a careful cleanup the rows of a credited reference are there and settled. -/
theorem settled_of_steps (h : r.credits = 0) (hSteps : Steps named true r r')
    (hCredited : r'.credits ≠ 0) : Settled named r' := by
  induction hSteps with
  | refl => exact absurd h hCredited
  | @tail middle last _ hStep ih =>
    by_cases hBefore : middle.credits = 0
    · cases hStep with
      | settles id status credits next => exact ⟨rfl, .inl ⟨id, rfl⟩⟩
      | settlesAlone status credits next hUnnamed hStatus => exact ⟨rfl, .inr ⟨hUnnamed, rfl⟩⟩
      | _ => exact absurd hBefore hCredited
    · exact absurd hStep (ih hBefore).not_step

end Steps

end Reference

end FarmBackend.Deposits
