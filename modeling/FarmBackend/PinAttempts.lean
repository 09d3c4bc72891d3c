import FarmBackend.Bcrypt
import FarmBackend.Interleaving

/-!
# Guessing a PIN (`auth/auth.service.ts`)

`verifyPin`, `changePin`, `setPin` and `resetForgottenPin` for one user, any number of each at once.
A database call is a step and so is a comparison with the hash. The phone, the password and the OTP
of `resetForgottenPin` are what the world answers.
-/

namespace FarmBackend.PinAttempts
open Interleaving

set_option autoImplicit false

def MAX_PIN_ATTEMPTS : ℕ := 5

/-- `/^\d{4,6}$/`. -/
def isPin (pin : String) : Bool :=
  decide (4 ≤ pin.length) && decide (pin.length ≤ 6) && pin.toList.all Char.isDigit

variable (bcrypt : Bcrypt)

/-- The columns of `users`. -/
structure User where
  pinHash : Option bcrypt.Hash
  failedPinAttempts : Option ℕ

/-- The rest is history: `moment` counts the correct PINs and the resets, `wrong` the wrong PINs that
were compared since the last of them, and `uncounted` those of them that are not yet in the row. -/
structure Store where
  user : User bcrypt
  moment : ℕ
  wrong : ℕ
  uncounted : ℕ

structure ChangePinDto where
  oldPin : String
  newPin : String
  confirmPin : String

structure ResetPinDto where
  newPin : String
  confirmPin : String

inductive Request where
  | verifyPin (pin : String)
  | changePin (dto : ChangePinDto)
  | setPin (pin confirmPin : String)
  | resetForgottenPin (dto : ResetPinDto)

/-- A running call, named after its next step. -/
inductive Call where
  | verifyPin (pin : String)
  | compare (pin : String) (pinHash : bcrypt.Hash) (failedPinAttempts : ℕ)
  | countFailure (moment : ℕ)
  | clearFailures
  | changePin (dto : ChangePinDto)
  | compareOld (dto : ChangePinDto) (pinHash : bcrypt.Hash)
  | changeHash (newPin : String)
  | setPin (pin confirmPin : String)
  | setHash (pin : String)
  | resetForgottenPin (dto : ResetPinDto)
  | resetHash (newPin : String)
  | done

/-- `salt` is that of a new hash; `verified` says that the phone, the password and the OTP are right. -/
structure Outcome where
  salt : ℕ
  verified : Bool

variable {bcrypt}

namespace Store

def setFailures (n : ℕ) (s : Store bcrypt) : Store bcrypt :=
  { s with user := { s.user with failedPinAttempts := some n } }

/-- A new hash comes with the counter at 0. -/
def setHash (o : Outcome) (pin : String) (s : Store bcrypt) : Store bcrypt :=
  { s with user := ⟨some (bcrypt.hash o.salt pin), some 0⟩ }

def atMoment (s : Store bcrypt) : Store bcrypt :=
  { s with moment := s.moment + 1, wrong := 0, uncounted := 0 }

def guessedWrong (s : Store bcrypt) : Store bcrypt :=
  { s with wrong := s.wrong + 1, uncounted := s.uncounted + 1 }

/-- `{ increment: 1 }`, which leaves `NULL` as it is. -/
def increment (moment : ℕ) (s : Store bcrypt) : Store bcrypt :=
  { s with
    user := { s.user with failedPinAttempts := s.user.failedPinAttempts.map (· + 1) }
    uncounted := if moment = s.moment then s.uncounted - 1 else s.uncounted }

end Store

def enter : Request → Call bcrypt
  | .verifyPin pin => .verifyPin pin
  | .changePin dto => .changePin dto
  | .setPin pin confirmPin => .setPin pin confirmPin
  | .resetForgottenPin dto => .resetForgottenPin dto

def step (o : Outcome) (s : Store bcrypt) : Call bcrypt → Option (Store bcrypt × Call bcrypt)
  | .verifyPin pin => do
    let pinHash ← s.user.pinHash
    let failedPinAttempts := s.user.failedPinAttempts.getD 0
    if MAX_PIN_ATTEMPTS ≤ failedPinAttempts then none
    else return (s, .compare pin pinHash failedPinAttempts)
  | .compare pin pinHash _ =>
    if bcrypt.compare pin pinHash then some (s.atMoment, .clearFailures)
    else some (s.guessedWrong, .countFailure s.moment)
  | .countFailure moment => some (s.increment moment, .done)
  | .clearFailures => some (s.setFailures 0, .done)
  | .changePin dto => do
    if dto.newPin = dto.confirmPin ∧ isPin dto.newPin then
      let pinHash ← s.user.pinHash
      return (s, .compareOld dto pinHash)
    else none
  | .compareOld dto pinHash =>
    if bcrypt.compare dto.oldPin pinHash then some (s.atMoment, .changeHash dto.newPin)
    else some (s.guessedWrong, .done)
  | .changeHash newPin => some (s.setHash o newPin, .done)
  | .setPin pin confirmPin =>
    if pin = confirmPin ∧ isPin pin ∧ s.user.pinHash.isNone then some (s, .setHash pin) else none
  | .setHash pin => some (s.setHash o pin, .done)
  | .resetForgottenPin dto =>
    if dto.newPin = dto.confirmPin ∧ isPin dto.newPin ∧ o.verified then
      some (s, .resetHash dto.newPin)
    else none
  | .resetHash newPin => some ((s.setHash o newPin).atMoment, .done)
  | .done => none

variable (bcrypt)

def program : Program (Store bcrypt) (Call bcrypt) Request Outcome := ⟨enter, step⟩

variable {bcrypt}

/-- Every wrong PIN is one of `verifyPin`, and is compared while the row has the counter that its
call has read, with nothing left to count. Whatever sets the counter to 0 finds no wrong PIN since
the last correct one. -/
def Counts : Guard (Store bcrypt) (Call bcrypt) Outcome := fun _ s call =>
  match call with
  | .compare pin pinHash failedPinAttempts => bcrypt.compare pin pinHash = false →
      s.user.failedPinAttempts = some failedPinAttempts ∧ s.uncounted = 0
  | .compareOld dto pinHash => bcrypt.compare dto.oldPin pinHash = true
  | .clearFailures => s.wrong = 0
  | .changeHash _ => s.wrong = 0
  | .setHash _ => s.wrong = 0
  | _ => True

instance : ∀ o s c, Decidable (@Counts bcrypt o s c) := by
  intro o s c
  unfold Counts
  cases c <;> infer_instance

/-- The wrong PINs are in the row or about to be, and there are not too many of them. -/
structure Bounded (s : Store bcrypt) : Prop where
  counted : ∃ n, s.user.failedPinAttempts = some n ∧ s.wrong ≤ n + s.uncounted
  wrong_le : s.wrong ≤ MAX_PIN_ATTEMPTS

/-- Past its read a guess has seen a counter below the limit. -/
def Knows : Call bcrypt → Prop
  | .compare _ _ failedPinAttempts => failedPinAttempts < MAX_PIN_ATTEMPTS
  | _ => True

section Steps
variable {o : Outcome} {s s' : Store bcrypt} {call call' : Call bcrypt}

theorem bounded_atMoment (h : Bounded s) : Bounded s.atMoment := by
  obtain ⟨⟨n, hRow, -⟩, -⟩ := h
  exact ⟨⟨n, hRow, Nat.zero_le _⟩, Nat.zero_le _⟩

theorem bounded_setFailures (h : Bounded s) (hNone : s.wrong = 0) : Bounded (s.setFailures 0) :=
  ⟨⟨0, rfl, Nat.le_trans (Nat.le_of_eq hNone) (Nat.zero_le _)⟩, h.wrong_le⟩

theorem bounded_setHash {pin : String} (h : Bounded s) (hNone : s.wrong = 0) :
    Bounded (s.setHash o pin) :=
  ⟨⟨0, rfl, Nat.le_trans (Nat.le_of_eq hNone) (Nat.zero_le _)⟩, h.wrong_le⟩

theorem bounded_guessedWrong {n : ℕ} (h : Bounded s) (hRow : s.user.failedPinAttempts = some n)
    (hCounted : s.uncounted = 0) (hBelow : n < MAX_PIN_ATTEMPTS) : Bounded s.guessedWrong := by
  obtain ⟨⟨m, hRead, hWrong⟩, -⟩ := h
  obtain rfl : m = n := Option.some.inj (hRead.symm.trans hRow)
  rw [hCounted, add_zero] at hWrong
  refine ⟨⟨m, hRow, ?_⟩, ?_⟩
  · simp only [Store.guessedWrong]
    omega
  · simp only [Store.guessedWrong]
    omega

/-- A late increment of an earlier time counts a wrong PIN too many, never one too few. -/
theorem bounded_increment {moment : ℕ} (h : Bounded s) : Bounded (s.increment moment) := by
  obtain ⟨⟨n, hRow, hWrong⟩, hLe⟩ := h
  refine ⟨⟨n + 1, by simp [Store.increment, hRow], ?_⟩, hLe⟩
  simp only [Store.increment]
  split <;> omega

theorem bounded_step (h : Bounded s) (hKnows : Knows call) (hOk : Counts o s call)
    (hStep : step o s call = some (s', call')) : Bounded s' ∧ Knows call' := by
  cases call with
  | verifyPin pin =>
    simp only [step, Option.bind_eq_bind, Option.bind_eq_some_iff,
      Option.ite_none_left_eq_some, Option.pure_def, Option.some.injEq, Prod.mk.injEq] at hStep
    obtain ⟨pinHash, -, hBelow, rfl, rfl⟩ := hStep
    exact ⟨h, Nat.not_le.mp hBelow⟩
  | compare pin pinHash failedPinAttempts =>
    simp only [step] at hStep
    split at hStep
    · cases hStep
      exact ⟨bounded_atMoment h, trivial⟩
    · rename_i hWrong
      cases hStep
      obtain ⟨hRow, hCounted⟩ := hOk (Bool.not_eq_true _ ▸ hWrong)
      exact ⟨bounded_guessedWrong h hRow hCounted hKnows, trivial⟩
  | countFailure moment =>
    cases hStep
    exact ⟨bounded_increment h, trivial⟩
  | clearFailures =>
    cases hStep
    exact ⟨bounded_setFailures h hOk, trivial⟩
  | changePin dto =>
    simp only [step, Option.ite_none_right_eq_some, Option.bind_eq_bind, Option.bind_eq_some_iff,
      Option.pure_def, Option.some.injEq, Prod.mk.injEq] at hStep
    obtain ⟨-, pinHash, -, rfl, rfl⟩ := hStep
    exact ⟨h, trivial⟩
  | compareOld dto pinHash =>
    simp only [step, if_pos (show bcrypt.compare dto.oldPin pinHash = true from hOk),
      Option.some.injEq, Prod.mk.injEq] at hStep
    obtain ⟨rfl, rfl⟩ := hStep
    exact ⟨bounded_atMoment h, trivial⟩
  | changeHash newPin =>
    cases hStep
    exact ⟨bounded_setHash h hOk, trivial⟩
  | setPin pin confirmPin =>
    simp only [step, Option.ite_none_right_eq_some, Option.some.injEq, Prod.mk.injEq] at hStep
    obtain ⟨-, rfl, rfl⟩ := hStep
    exact ⟨h, trivial⟩
  | setHash pin =>
    cases hStep
    exact ⟨bounded_setHash h hOk, trivial⟩
  | resetForgottenPin dto =>
    simp only [step, Option.ite_none_right_eq_some, Option.some.injEq, Prod.mk.injEq] at hStep
    obtain ⟨-, rfl, rfl⟩ := hStep
    exact ⟨h, trivial⟩
  | resetHash newPin =>
    cases hStep
    exact ⟨⟨⟨0, rfl, Nat.zero_le _⟩, Nat.zero_le _⟩, trivial⟩
  | done => cases hStep

end Steps

/-- In every run whose wrong PINs are counted before the next one is compared, at most
`MAX_PIN_ATTEMPTS` wrong PINs are compared from one correct PIN or reset to the next. -/
theorem wrong_pins_bounded {start : Store bcrypt} {c : Config (Store bcrypt) (Call bcrypt)} {n : ℕ}
    (hCounter : start.user.failedPinAttempts = some n) (hStart : start.wrong = 0)
    (h : (program bcrypt).Reaches Counts (Program.idle start) c) :
    c.store.wrong ≤ MAX_PIN_ATTEMPTS := by
  have hBounded : Bounded c.store ∧ ∀ call ∈ c.calls, Knows call := by
    refine h.assertions Bounded (fun _ => Knows) ⟨?_, ?_⟩ ?_ ?_ ?_
    · exact ⟨⟨n, hCounter, hStart ▸ Nat.zero_le _⟩, hStart ▸ Nat.zero_le _⟩
    · intro call hMem
      cases hMem
    · intro request s _
      cases request <;> trivial
    · intro o s s' call call' hBound hKnows hOk hStep
      exact bounded_step hBound hKnows hOk hStep
    · intro o s s' call call' other _ _ hOther _ _
      exact hOther
  exact hBounded.1.wrong_le

/-- The PIN is 1234, and nobody has guessed yet. -/
def pinSet : Store Bcrypt.plain := ⟨⟨some "1234", some 0⟩, 0, 0, 0⟩

def asked : Outcome := ⟨0, true⟩

/-- Six calls of `changePin`, each up to the comparison. -/
def changedSixTimes : List (Move Request Outcome) :=
  (List.range 6).flatMap fun i =>
    [.enter (.changePin ⟨"0000", "4321", "4321"⟩), .run i asked, .run i asked]

/-- Six calls of `verifyPin` that all read the counter before the first of them compares. -/
def verifiedSixTimes : List (Move Request Outcome) :=
  (List.range 6).flatMap (fun i => [.enter (.verifyPin "0000"), .run i asked]) ++
    (List.range 6).flatMap fun i => [.run i asked, .run i asked]

def guesses : List (List (Move Request Outcome)) := [changedSixTimes, verifiedSixTimes]

theorem six_wrong_pins_compared :
    guesses.length = 2 ∧ ∀ moves ∈ guesses,
      ∃ c, (program Bcrypt.plain).Reaches anyStep (Program.idle pinSet) c ∧
        c.store.moment = pinSet.moment ∧ MAX_PIN_ATTEMPTS < c.store.wrong := by
  refine ⟨rfl, ?_⟩
  have hRuns : guesses.all (fun moves =>
      ((program Bcrypt.plain).schedule moves (Program.idle pinSet)).any fun c =>
        c.store.moment == pinSet.moment && decide (MAX_PIN_ATTEMPTS < c.store.wrong)) = true := by
    decide +kernel
  intro moves hMem
  have hRun := List.all_eq_true.mp hRuns moves hMem
  obtain ⟨c, hReach, hEnd⟩ := Program.reaches_of_any hRun
  rw [Bool.and_eq_true, beq_iff_eq, decide_eq_true_eq] at hEnd
  exact ⟨c, hReach, hEnd.1, hEnd.2⟩

/-- Five wrong PINs one after the other; the sixth is not compared any more. -/
def guessedInTurn : List (Move Request Outcome) :=
  (List.range 5).flatMap fun i =>
    [.enter (.verifyPin "0000"), .run i asked, .run i asked, .run i asked]

theorem five_wrong_pins_compared :
    ∃ c, (program Bcrypt.plain).Reaches Counts (Program.idle pinSet) c ∧ c.store.wrong = 5 ∧
      c.store.wrong ≤ MAX_PIN_ATTEMPTS ∧ step asked c.store (.verifyPin "1234") = none := by
  have hRuns : (((program Bcrypt.plain).guarded Counts).schedule guessedInTurn
      (Program.idle pinSet)).any (fun c => c.store.wrong == 5 &&
        (step asked c.store (.verifyPin "1234")).isNone) = true := by
    decide +kernel
  obtain ⟨c, hRun, hEnd⟩ := Program.reaches_of_guarded_any hRuns
  rw [Bool.and_eq_true, beq_iff_eq, Option.isNone_iff_eq_none] at hEnd
  exact ⟨c, hRun, hEnd.1, wrong_pins_bounded rfl rfl hRun, hEnd.2⟩

end FarmBackend.PinAttempts
