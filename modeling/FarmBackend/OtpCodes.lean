import Mathlib.Data.List.Nodup
import FarmBackend.Interleaving
import FarmBackend.PinAttempts

/-!
# One-time codes (`auth/auth.service.ts`, `common/utils/otp-hash.util.ts`)

`sendOtp` and `verifyOtp`, the latter also on behalf of `resetForgottenPin`, any number of each at
once. A database call is a step, together with what the code does with its answer. Time passes
between the steps.
-/

namespace FarmBackend.OtpCodes
open Interleaving

set_option autoImplicit false

def OTP_EXPIRY_MINUTES : ℕ := 5

def OTP_MAX_ATTEMPTS : ℕ := 3

/-- How long `sendOtp` asks to wait, in milliseconds. -/
def RESEND_MS : ℕ := 60000

/-! ### The hash -/

section Hash
variable (hmac : String → String → String) (secret : String)

/-- Throws without a secret. -/
def hashOtp (code : String) : Option String :=
  if secret = "" then none else some ("h1:" ++ hmac secret code)

/-- A row without the prefix holds the code itself. -/
def verifyOtp (stored code : String) : Option Bool :=
  if "h1:".toList.isPrefixOf stored.toList then (hashOtp hmac secret code).map (stored == ·)
  else some (stored == code)

end Hash

/-! ### The rows -/

structure User where
  id : ℕ
  phone : String
  phoneVerified : Bool

/-- The last three are history: when the row was accepted, the wrong codes that were compared with
it, and those of them that are not yet in `attempts`. -/
structure Otp where
  id : ℕ
  userId : ℕ
  otpCode : String
  purpose : String
  attempts : Option ℕ
  verified : Bool
  expiresAt : Option ℕ
  createdAt : ℕ
  acceptedAt : List ℕ
  wrong : ℕ
  uncounted : ℕ

namespace Otp

/-- `new Date(null)` is the epoch. -/
def expiry (otp : Otp) : ℕ := otp.expiresAt.getD 0

def tried (otp : Otp) : ℕ := otp.attempts.getD 0

/-- What `verifyOtp` asks of a row before it compares the code. -/
def Open (now : ℕ) (otp : Otp) : Prop := now ≤ otp.expiry ∧ otp.tried < OTP_MAX_ATTEMPTS

instance (now : ℕ) (otp : Otp) : Decidable (otp.Open now) := instDecidableAnd

def accept (now : ℕ) (otp : Otp) : Otp :=
  { otp with verified := true, acceptedAt := now :: otp.acceptedAt }

def comparedWrong (otp : Otp) : Otp :=
  { otp with wrong := otp.wrong + 1, uncounted := otp.uncounted + 1 }

/-- `{ increment: 1 }`, which leaves `NULL` as it is. -/
def increment (otp : Otp) : Otp :=
  { otp with attempts := otp.attempts.map (· + 1), uncounted := otp.uncounted - 1 }

def createdIn (userId : ℕ) (purpose : String) (first last : ℕ) (otp : Otp) : Bool :=
  otp.userId == userId && otp.purpose == purpose && decide (first ≤ otp.createdAt) &&
    decide (otp.createdAt ≤ last)

end Otp

/-- The newest code comes first. -/
structure Store where
  users : List User
  otps : List Otp
  now : ℕ

namespace Store

def pass (elapsed : ℕ) (s : Store) : Store := { s with now := s.now + elapsed }

def findPhone (phone : String) (s : Store) : Option User :=
  s.users.find? fun u => u.phone == phone

def findUser (id : ℕ) (s : Store) : Option User := s.users.find? fun u => u.id == id

/-- The row that `verifyOtp` looks at. -/
def newest (userId : ℕ) (purpose : String) (s : Store) : Option Otp :=
  s.otps.find? fun otp => otp.userId == userId && otp.purpose == purpose && !otp.verified

/-- The rows that `sendOtp` looks for. -/
def hasRecent (userId : ℕ) (purpose : String) (s : Store) : Bool :=
  s.otps.any fun otp => otp.userId == userId && otp.purpose == purpose && !otp.verified &&
    decide (s.now - RESEND_MS ≤ otp.createdAt)

def updateOtp (id : ℕ) (f : Otp → Otp) (s : Store) : Store :=
  { s with otps := s.otps.map fun otp => if otp.id = id then f otp else otp }

def create (userId : ℕ) (purpose otpCode : String) (expiresAt : ℕ) (s : Store) : Store :=
  let otp : Otp :=
    ⟨s.otps.length, userId, otpCode, purpose, some 0, false, some expiresAt, s.now, [], 0, 0⟩
  { s with otps := otp :: s.otps }

def verifyPhone (userId : ℕ) (s : Store) : Store :=
  { s with users := s.users.map fun u => if u.id = userId then { u with phoneVerified := true }
      else u }

end Store

/-! ### The calls -/

structure ResetPinDto where
  newPin : String
  confirmPin : String
  otp : String

inductive Request where
  | sendOtp (userId : ℕ) (purpose : String)
  | verifyOtp (phone otpCode purpose : String)
  | resetForgottenPin (userId : ℕ) (dto : ResetPinDto)

/-- A running call, named after its next step. -/
inductive Call where
  | sendOtp (userId : ℕ) (purpose : String)
  | create (userId : ℕ) (purpose otpCode : String) (expiresAt : ℕ)
  | verifyOtp (phone otpCode purpose : String)
  | compare (userId : ℕ) (otpCode purpose : String)
  | countAttempt (id : ℕ)
  | accept (id userId : ℕ) (purpose : String)
  | verifyPhone (userId : ℕ)
  | resetForgottenPin (userId : ℕ) (dto : ResetPinDto)
  | done

/-- How long the step took to come, the code that `generateOtp` makes, and whether the phone and the
password of `resetForgottenPin` are right. -/
structure Outcome where
  elapsed : ℕ
  code : String
  identified : Bool

def enter : Request → Call
  | .sendOtp userId purpose => .sendOtp userId purpose
  | .verifyOtp phone otpCode purpose => .verifyOtp phone otpCode purpose
  | .resetForgottenPin userId dto => .resetForgottenPin userId dto

variable (hmac : String → String → String) (secret : String)

/-- What `resetForgottenPin` does once the code is accepted is in `PinAttempts`. -/
def stepNow (o : Outcome) (s : Store) : Call → Option (Store × Call)
  | .sendOtp userId purpose =>
    if s.hasRecent userId purpose then none
    else do
      let otpCode ← hashOtp hmac secret o.code
      return (s, .create userId purpose otpCode (s.now + OTP_EXPIRY_MINUTES * 60000))
  | .create userId purpose otpCode expiresAt =>
    some (s.create userId purpose otpCode expiresAt, .done)
  | .verifyOtp phone otpCode purpose => do
    let user ← s.findPhone phone
    return (s, .compare user.id otpCode purpose)
  | .compare userId otpCode purpose => do
    let otp ← s.newest userId purpose
    if otp.Open s.now then
      let right ← verifyOtp hmac secret otp.otpCode otpCode
      if right then return (s, .accept otp.id userId purpose)
      else return (s.updateOtp otp.id Otp.comparedWrong, .countAttempt otp.id)
    else none
  | .countAttempt id => some (s.updateOtp id Otp.increment, .done)
  | .accept id userId purpose =>
    some (s.updateOtp id (Otp.accept s.now),
      if purpose = "phone_verification" then .verifyPhone userId else .done)
  | .verifyPhone userId => some (s.verifyPhone userId, .done)
  | .resetForgottenPin userId dto =>
    if dto.newPin = dto.confirmPin ∧ PinAttempts.isPin dto.newPin ∧ o.identified then do
      let user ← s.findUser userId
      return (s, .verifyOtp user.phone dto.otp "forgot_pin")
    else none
  | .done => none

def step (o : Outcome) (s : Store) (call : Call) : Option (Store × Call) :=
  stepNow hmac secret o (s.pass o.elapsed) call

def program : Program Store Call Request Outcome := ⟨enter, step hmac secret⟩

/-! ### The bounds -/

structure Otp.Bounded (otp : Otp) : Prop where
  accepted_le : otp.acceptedAt.length ≤ 1
  wrong_le : otp.wrong ≤ OTP_MAX_ATTEMPTS
  in_time : ∀ t ∈ otp.acceptedAt, t ≤ otp.expiry

structure Store.Bounded (s : Store) : Prop where
  otps : ∀ otp ∈ s.otps, otp.Bounded
  window : ∀ userId purpose t,
    (s.otps.filter (Otp.createdIn userId purpose t (t + RESEND_MS))).length ≤ 1

/-- At the time of the step: a wrong code is compared while those that are not in the row yet leave
room for it, a row is accepted while it is neither verified nor expired, and a row is created when
none of the user and purpose, verified or not, is from the last 60 seconds. -/
def Undisturbed : Guard Store Call Outcome := fun o s call =>
  match call with
  | .compare userId otpCode purpose => ∀ otp ∈ s.newest userId purpose,
      otp.Open (s.now + o.elapsed) →
      verifyOtp hmac secret otp.otpCode otpCode = some false →
      otp.tried + otp.uncounted < OTP_MAX_ATTEMPTS
  | .accept id _ _ => ∀ otp ∈ s.otps, otp.id = id →
      otp.verified = false ∧ s.now + o.elapsed ≤ otp.expiry
  | .create userId purpose _ _ => ∀ otp ∈ s.otps, otp.userId = userId → otp.purpose = purpose →
      otp.createdAt + RESEND_MS < s.now + o.elapsed
  | _ => True

instance : ∀ o s call, Decidable (Undisturbed hmac secret o s call) := by
  intro o s call
  unfold Undisturbed
  cases call <;> infer_instance

/-- The wrong codes are in the row or about to be, and a row that was accepted is verified. -/
structure Otp.Sound (otp : Otp) : Prop extends otp.Bounded where
  counted : ∃ n, otp.attempts = some n ∧ otp.wrong ≤ n + otp.uncounted
  unaccepted : otp.verified = false → otp.acceptedAt = []

def Otp.Apart (new old : Otp) : Prop :=
  new.userId = old.userId → new.purpose = old.purpose → old.createdAt + RESEND_MS < new.createdAt

structure Store.Sound (s : Store) : Prop where
  otps : ∀ otp ∈ s.otps, otp.Sound
  apart : s.otps.Pairwise Otp.Apart
  ids : (s.otps.map Otp.id).Nodup
  id_lt : ∀ otp ∈ s.otps, otp.id < s.otps.length

/-! ### One row -/

namespace Otp
variable {otp : Otp}

theorem sound_new (id userId : ℕ) (otpCode purpose : String) (expiresAt createdAt : ℕ) :
    Sound ⟨id, userId, otpCode, purpose, some 0, false, some expiresAt, createdAt, [], 0, 0⟩ := by
  refine ⟨⟨Nat.zero_le _, Nat.zero_le _, ?_⟩, ⟨0, rfl, Nat.le_refl _⟩, fun _ => rfl⟩
  intro t hMem
  cases hMem

theorem sound_accept {now : ℕ} (h : otp.Sound) (hOpen : otp.verified = false)
    (hTime : now ≤ otp.expiry) : (otp.accept now).Sound := by
  have hNone : otp.acceptedAt = [] := h.unaccepted hOpen
  refine ⟨⟨?_, h.wrong_le, ?_⟩, h.counted, ?_⟩
  · simp [accept, hNone]
  · intro t hMem
    rw [show (otp.accept now).acceptedAt = [now] by simp [accept, hNone],
      List.mem_singleton] at hMem
    subst hMem
    exact hTime
  · intro hVerified
    cases hVerified

theorem sound_comparedWrong (h : otp.Sound) (hRoom : otp.tried + otp.uncounted < OTP_MAX_ATTEMPTS) :
    otp.comparedWrong.Sound := by
  obtain ⟨n, hRow, hWrong⟩ := h.counted
  rw [tried, hRow, Option.getD_some] at hRoom
  refine ⟨⟨h.accepted_le, ?_, h.in_time⟩, ⟨n, hRow, ?_⟩, h.unaccepted⟩
  · simp only [comparedWrong]
    omega
  · simp only [comparedWrong]
    omega

theorem sound_increment (h : otp.Sound) : otp.increment.Sound := by
  obtain ⟨n, hRow, hWrong⟩ := h.counted
  refine ⟨⟨h.accepted_le, h.wrong_le, h.in_time⟩, ⟨n + 1, ?_, ?_⟩, h.unaccepted⟩
  · simp [increment, hRow]
  · simp only [increment]
    omega

end Otp

/-! ### One step -/

section Steps
variable {hmac secret} {o : Outcome} {s s' : Store} {call call' : Call}

/-- An update of the row `id` that leaves the other columns alone. -/
theorem sound_updateOtp {id : ℕ} {f : Otp → Otp} (h : s.Sound)
    (hSound : ∀ otp ∈ s.otps, otp.id = id → (f otp).Sound)
    (hKeep : ∀ otp, (f otp).id = otp.id ∧ (f otp).userId = otp.userId ∧
      (f otp).purpose = otp.purpose ∧ (f otp).createdAt = otp.createdAt) :
    (s.updateOtp id f).Sound := by
  have hSame : ∀ otp : Otp, ∀ updated, updated = (if otp.id = id then f otp else otp) →
      updated.id = otp.id ∧ updated.userId = otp.userId ∧ updated.purpose = otp.purpose ∧
        updated.createdAt = otp.createdAt := by
    rintro otp updated rfl
    split
    · exact hKeep otp
    · exact ⟨rfl, rfl, rfl, rfl⟩
  refine ⟨?_, ?_, ?_, ?_⟩
  · intro updated hMem
    obtain ⟨otp, hOtp, rfl⟩ := List.mem_map.mp hMem
    split
    · rename_i hId
      exact hSound otp hOtp hId
    · exact h.otps otp hOtp
  · apply List.pairwise_map.mpr
    apply h.apart.imp
    intro new old hApart
    obtain ⟨-, hUser, hPurpose, hCreated⟩ := hSame new _ rfl
    obtain ⟨-, hUser', hPurpose', hCreated'⟩ := hSame old _ rfl
    rw [Otp.Apart, hUser, hPurpose, hCreated, hUser', hPurpose', hCreated']
    exact hApart
  · have hIds : (s.updateOtp id f).otps.map Otp.id = s.otps.map Otp.id := by
      rw [Store.updateOtp, List.map_map]
      apply List.map_congr_left
      intro otp _
      exact (hSame otp _ rfl).1
    rw [hIds]
    exact h.ids
  · intro updated hMem
    obtain ⟨otp, hOtp, rfl⟩ := List.mem_map.mp hMem
    rw [(hSame otp _ rfl).1, Store.updateOtp, List.length_map]
    exact h.id_lt otp hOtp

theorem sound_create {userId expiresAt : ℕ} {purpose otpCode : String} (h : s.Sound)
    (hApart : ∀ otp ∈ s.otps, otp.userId = userId → otp.purpose = purpose →
      otp.createdAt + RESEND_MS < s.now) :
    (s.create userId purpose otpCode expiresAt).Sound := by
  refine ⟨?_, ?_, ?_, ?_⟩
  · intro otp hMem
    rcases List.mem_cons.mp hMem with rfl | hOld
    · exact Otp.sound_new ..
    · exact h.otps otp hOld
  · apply List.pairwise_cons.mpr
    refine ⟨?_, h.apart⟩
    intro old hOld hUser hPurpose
    exact hApart old hOld hUser.symm hPurpose.symm
  · apply List.nodup_cons.mpr
    refine ⟨?_, h.ids⟩
    intro hMem
    obtain ⟨otp, hOld, hId⟩ := List.mem_map.mp hMem
    exact Nat.lt_irrefl _ (hId ▸ h.id_lt otp hOld)
  · intro otp hMem
    rcases List.mem_cons.mp hMem with rfl | hOld
    · exact Nat.lt_succ_self _
    · exact Nat.lt_succ_of_lt (h.id_lt otp hOld)

/-- Under one id there is one row. -/
theorem eq_newest {userId : ℕ} {purpose : String} {otp other : Otp} (h : s.Sound)
    (hNewest : s.newest userId purpose = some otp) (hOther : other ∈ s.otps)
    (hId : other.id = otp.id) : other = otp :=
  List.inj_on_of_nodup_map h.ids hOther (List.mem_of_find?_eq_some hNewest) hId

theorem sound_pass {elapsed : ℕ} (h : s.Sound) : (s.pass elapsed).Sound :=
  ⟨h.otps, h.apart, h.ids, h.id_lt⟩

theorem sound_step (h : s.Sound) (hOk : Undisturbed hmac secret o s call)
    (hStep : step hmac secret o s call = some (s', call')) : s'.Sound := by
  have hPass : (s.pass o.elapsed).Sound := sound_pass h
  unfold step at hStep
  cases call with
  | sendOtp userId purpose =>
    simp only [stepNow, Option.ite_none_left_eq_some, Option.bind_eq_bind, Option.bind_eq_some_iff,
      Option.pure_def, Option.some.injEq, Prod.mk.injEq] at hStep
    obtain ⟨-, -, -, rfl, -⟩ := hStep
    exact hPass
  | create userId purpose otpCode expiresAt =>
    cases hStep
    exact sound_create hPass hOk
  | verifyOtp phone otpCode purpose =>
    simp only [stepNow, Option.bind_eq_bind, Option.bind_eq_some_iff, Option.pure_def,
      Option.some.injEq, Prod.mk.injEq] at hStep
    obtain ⟨-, -, rfl, -⟩ := hStep
    exact hPass
  | compare userId otpCode purpose =>
    simp only [stepNow, Option.bind_eq_bind, Option.bind_eq_some_iff,
      Option.ite_none_right_eq_some] at hStep
    obtain ⟨otp, hNewest, hOpen, right, hRight, hEnd⟩ := hStep
    cases right with
    | true =>
      cases hEnd
      exact hPass
    | false =>
      cases hEnd
      apply sound_updateOtp hPass
      · intro other hMem hId
        rw [eq_newest hPass hNewest hMem hId]
        exact Otp.sound_comparedWrong (hPass.otps otp (List.mem_of_find?_eq_some hNewest))
          (hOk otp hNewest hOpen hRight)
      · intro other
        exact ⟨rfl, rfl, rfl, rfl⟩
  | countAttempt id =>
    cases hStep
    apply sound_updateOtp hPass
    · intro otp hMem _
      exact Otp.sound_increment (hPass.otps otp hMem)
    · intro other
      exact ⟨rfl, rfl, rfl, rfl⟩
  | accept id userId purpose =>
    cases hStep
    apply sound_updateOtp hPass
    · intro otp hMem hId
      obtain ⟨hVerified, hTime⟩ := hOk otp hMem hId
      exact Otp.sound_accept (hPass.otps otp hMem) hVerified hTime
    · intro other
      exact ⟨rfl, rfl, rfl, rfl⟩
  | verifyPhone userId =>
    cases hStep
    exact ⟨hPass.otps, hPass.apart, hPass.ids, hPass.id_lt⟩
  | resetForgottenPin userId dto =>
    simp only [stepNow, Option.ite_none_right_eq_some, Option.bind_eq_bind, Option.bind_eq_some_iff,
      Option.pure_def, Option.some.injEq, Prod.mk.injEq] at hStep
    obtain ⟨-, -, -, rfl, -⟩ := hStep
    exact hPass
  | done => cases hStep

/-- Two rows of one user and purpose that are apart do not lie in one window. -/
theorem bounded_of_sound (h : s.Sound) : s.Bounded := by
  refine ⟨fun otp hMem => (h.otps otp hMem).toBounded, ?_⟩
  intro userId purpose t
  have hApart := h.apart.filter (Otp.createdIn userId purpose t (t + RESEND_MS))
  have hIn : ∀ otp ∈ s.otps.filter (Otp.createdIn userId purpose t (t + RESEND_MS)),
      otp.userId = userId ∧ otp.purpose = purpose ∧ t ≤ otp.createdAt ∧
        otp.createdAt ≤ t + RESEND_MS := by
    intro otp hMem
    have hCreated := (List.mem_filter.mp hMem).2
    simp only [Otp.createdIn, Bool.and_eq_true, beq_iff_eq, decide_eq_true_eq] at hCreated
    tauto
  generalize s.otps.filter (Otp.createdIn userId purpose t (t + RESEND_MS)) = rows at hApart hIn ⊢
  cases rows with
  | nil => exact Nat.zero_le _
  | cons new rows =>
    cases rows with
    | nil => exact Nat.le_refl _
    | cons old rows =>
      obtain ⟨hUser, hPurpose, -, hLast⟩ := hIn new (by simp)
      obtain ⟨hUser', hPurpose', hFirst, -⟩ := hIn old (by simp)
      have hLater := (List.pairwise_cons.mp hApart).1 old (by simp) (hUser.trans hUser'.symm)
        (hPurpose.trans hPurpose'.symm)
      omega

end Steps

variable {hmac secret}

/-- In every run whose steps find what `Undisturbed` asks, each row is accepted at most once and in
time, at most `OTP_MAX_ATTEMPTS` wrong codes are compared with it, and no 60 seconds have two of
them. -/
theorem otp_bounds_kept {start : Store} {c : Config Store Call} (hEmpty : start.otps = [])
    (h : (program hmac secret).Reaches (Undisturbed hmac secret) (Program.idle start) c) :
    c.store.Bounded := by
  have hSound : c.store.Sound := by
    refine h.store_invariant Store.Sound ?_ ?_
    · refine ⟨?_, ?_, ?_, ?_⟩ <;> simp [Program.idle, hEmpty]
    · intro o s s' call call' hSound hOk hStep
      exact sound_step hSound hOk hStep
  exact bounded_of_sound hSound

/-- A digest that is the secret and the code. -/
def plain (secret code : String) : String := secret ++ "/" ++ code

def registered : Store := ⟨[⟨0, "+254700000000", false⟩], [], 1000⟩

/-- The code is 123456, and `ms` pass before the step. -/
def after (ms : ℕ) : Outcome := ⟨ms, "123456", true⟩

def sent (index : ℕ) : List (Move Request Outcome) :=
  [.enter (.sendOtp 0 "forgot_pin"), .run index (after 0), .run index (after 0)]

/-- A code is given and compared, directly. -/
def given (index : ℕ) (code : String) : List (Move Request Outcome) :=
  [.enter (.verifyOtp "+254700000000" code "forgot_pin"), .run index (after 0),
    .run index (after 0)]

/-- The same from `resetForgottenPin`. -/
def givenForReset (index : ℕ) (code : String) : List (Move Request Outcome) :=
  [.enter (.resetForgottenPin 0 ⟨"1234", "1234", code⟩), .run index (after 0),
    .run index (after 0), .run index (after 0)]

/-- Two calls compare the right code before the first of them marks the row. -/
def acceptedTwice : List (Move Request Outcome) :=
  sent 0 ++ given 1 "123456" ++ givenForReset 2 "123456" ++ [.run 1 (after 0), .run 2 (after 0)]

/-- Four calls compare a wrong code before the first of them counts it. -/
def guessedFourTimes : List (Move Request Outcome) :=
  sent 0 ++ (List.range 4).flatMap fun i => given (i + 1) "000000"

/-- Six minutes go by between the comparison and the mark. -/
def acceptedLate : List (Move Request Outcome) :=
  sent 0 ++ given 1 "123456" ++ [.run 1 (after 360000)]

/-- Both calls look for a row before either of them creates its own. -/
def sentTwice : List (Move Request Outcome) :=
  [.enter (.sendOtp 0 "forgot_pin"), .enter (.sendOtp 0 "forgot_pin"), .run 0 (after 0),
    .run 1 (after 0), .run 0 (after 0), .run 1 (after 0)]

/-- One call after the other: `sendOtp` does not look at the row that was accepted. -/
def sentAgain : List (Move Request Outcome) :=
  sent 0 ++ given 1 "123456" ++ [.run 1 (after 0)] ++ sent 2

theorem otp_bounds_exceeded :
    (∃ c, (program plain "s3cret").Reaches anyStep (Program.idle registered) c ∧
      ∃ otp ∈ c.store.otps, 1 < otp.acceptedAt.length) ∧
    (∃ c, (program plain "s3cret").Reaches anyStep (Program.idle registered) c ∧
      ∃ otp ∈ c.store.otps, OTP_MAX_ATTEMPTS < otp.wrong) ∧
    (∃ c, (program plain "s3cret").Reaches anyStep (Program.idle registered) c ∧
      ∃ otp ∈ c.store.otps, ∃ t ∈ otp.acceptedAt, otp.expiry < t) ∧
    [sentTwice, sentAgain].length = 2 ∧ ∀ moves ∈ [sentTwice, sentAgain],
      ∃ c, (program plain "s3cret").Reaches anyStep (Program.idle registered) c ∧ 1 <
        (c.store.otps.filter (Otp.createdIn 0 "forgot_pin" 1000 (1000 + RESEND_MS))).length := by
  have hAny : ∀ (moves : List (Move Request Outcome)) (p : Store → Bool),
      ((program plain "s3cret").schedule moves (Program.idle registered)).any
        (fun c => p c.store) = true →
      ∃ c, (program plain "s3cret").Reaches anyStep (Program.idle registered) c ∧
        p c.store = true :=
    fun moves p hRun => Program.reaches_of_any hRun
  refine ⟨?_, ?_, ?_, rfl, ?_⟩
  · obtain ⟨c, hReach, hEnd⟩ := hAny acceptedTwice
      (fun s => s.otps.any fun otp => decide (1 < otp.acceptedAt.length)) (by decide +kernel)
    exact ⟨c, hReach, by simpa using hEnd⟩
  · obtain ⟨c, hReach, hEnd⟩ := hAny guessedFourTimes
      (fun s => s.otps.any fun otp => decide (OTP_MAX_ATTEMPTS < otp.wrong)) (by decide +kernel)
    exact ⟨c, hReach, by simpa using hEnd⟩
  · obtain ⟨c, hReach, hEnd⟩ := hAny acceptedLate
      (fun s => s.otps.any fun otp => otp.acceptedAt.any fun t => decide (otp.expiry < t))
      (by decide +kernel)
    exact ⟨c, hReach, by simpa using hEnd⟩
  · intro moves hMem
    obtain ⟨c, hReach, hEnd⟩ := hAny moves (fun s => decide (1 <
      (s.otps.filter (Otp.createdIn 0 "forgot_pin" 1000 (1000 + RESEND_MS))).length)) (by
        rcases List.mem_cons.mp hMem with rfl | hMem
        · decide +kernel
        · rw [List.mem_singleton.mp hMem]
          decide +kernel)
    exact ⟨c, hReach, of_decide_eq_true hEnd⟩

/-- A wrong code, then the right one, and another code 61 seconds later. -/
def sentInTurn : List (Move Request Outcome) :=
  sent 0 ++ given 1 "000000" ++ [.run 1 (after 0)] ++ givenForReset 2 "123456" ++
    [.run 2 (after 61000)] ++ sent 3

theorem otp_bounds_kept_in_turn :
    ∃ c, (program plain "s3cret").Reaches (Undisturbed plain "s3cret") (Program.idle registered) c ∧
      c.store.otps.map (fun otp => (otp.acceptedAt, otp.attempts)) =
        [([], some 0), ([62000], some 1)] ∧ c.store.Bounded := by
  have hRuns : (((program plain "s3cret").guarded (Undisturbed plain "s3cret")).schedule sentInTurn
      (Program.idle registered)).any (fun c =>
        decide (c.store.otps.map (fun otp => (otp.acceptedAt, otp.attempts)) =
          [([], some 0), ([62000], some 1)])) = true := by
    decide +kernel
  obtain ⟨c, hRun, hEnd⟩ := Program.reaches_of_guarded_any hRuns
  exact ⟨c, hRun, of_decide_eq_true hEnd, otp_bounds_kept rfl hRun⟩

end FarmBackend.OtpCodes
