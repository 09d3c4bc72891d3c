import FarmBackend.Leases
import FarmBackend.Ticket

/-!
# The locks of the webhooks and of `IdempotencyMiddleware`

One key. A webhook stores the constant `'locked'`, here `none`; the middleware stores a fresh uuid,
here the number of its acquisition. A process without a client sends no command.
-/

namespace FarmBackend.RedisLocks
open Interleaving Leases

set_option autoImplicit false

abbrev Key := Cell (Option ℕ)

/-- How far one `cleanup` of the middleware has come: it has sent nothing, it has found its own
value, or it is over. -/
inductive Cleanup where
  | waiting
  | found
  | over
  deriving DecidableEq

inductive Request where
  | webhook (lockTtl : ℕ)
  | use (ttl : ℕ)

/-- `elapsed` is the time since the step before. A command that `fails` is not executed, and the
answer of one that is executed may get `lost`; both throw. `close` says which cleanup moves on. -/
structure Outcome where
  elapsed : ℕ
  fails : Bool
  lost : Bool
  close : Bool

/-- A running call, named after its next step. `handling` is a request that has its lock, with the
cleanups of its events `finish` and `close`. -/
inductive Call where
  | acquireLock (lockTtl : ℕ)
  | releaseLock (holder expiresAt : ℕ)
  | use (ttl : ℕ)
  | handling (holder expiresAt : ℕ) (finish close : Cleanup)
  | done

def Outcome.moves (o : Outcome) (finish close : Cleanup) : Cleanup :=
  if o.close then close else finish

def Outcome.moved (o : Outcome) (holder expiresAt : ℕ) (finish close next : Cleanup) : Call :=
  if o.close then .handling holder expiresAt finish next else .handling holder expiresAt next close

/-- The command `DEL`. -/
def Outcome.del (o : Outcome) (holder : ℕ) (s : Key) : Key := if o.fails then s else s.del holder

/-- The next command, at its time. -/
def command (o : Outcome) (s : Key) : Call → Option (Key × Call)
  | .acquireLock lockTtl =>
    if o.fails ∨ s.lease.isSome then some (s, .done)
    else some (s.set none lockTtl,
      if o.lost then .done else .releaseLock s.serial (s.now + lockTtl))
  | .releaseLock holder _ => some (o.del holder s, .done)
  | .use ttl =>
    if o.fails ∨ s.lease.isSome then some (s, .done)
    else some (s.set (some s.serial) ttl,
      if o.lost then .done else .handling s.serial (s.now + ttl) .waiting .waiting)
  | .handling holder expiresAt finish close =>
    match o.moves finish close with
    | .waiting =>
      if o.fails = false ∧ o.lost = false ∧ s.get = some (some holder) then
        some (s, o.moved holder expiresAt finish close .found)
      else some (s, o.moved holder expiresAt finish close .over)
    | .found => some (o.del holder s, o.moved holder expiresAt finish close .over)
    | .over => none
  | .done => none

def program : Program Key Call Request Outcome where
  enter
    | .webhook lockTtl => .acquireLock lockTtl
    | .use ttl => .use ttl
  step o s call := command o (s.tick o.elapsed) call

/-- When a `DEL` is sent, the key is free; or the lock of the call has not expired yet and, in the
middleware, its other cleanup has not removed it. -/
def InTime (o : Outcome) (s : Key) : Call → Prop
  | .releaseLock _ expiresAt => o.fails = false → s.lease = none ∨ s.now < expiresAt
  | .handling holder expiresAt finish close =>
    o.moves finish close = .found → o.fails = false →
      s.lease = none ∨ s.now < expiresAt ∧ holder ∉ s.released
  | .acquireLock _ | .use _ | .done => True

def Timely : Guard Key Call Outcome := fun o s call => InTime o (s.tick o.elapsed) call

instance (s : Key) : Decidable (s.lease = none) := decidable_of_iff (s.lease.isNone = true) (by simp)

instance : ∀ o s call, Decidable (InTime o s call)
  | _, _, .releaseLock _ _ => inferInstanceAs (Decidable (_ → _ ∨ _))
  | _, _, .handling _ _ _ _ => inferInstanceAs (Decidable (_ → _ → _ ∨ _ ∧ _))
  | _, _, .acquireLock _ | _, _, .use _ | _, _, .done => isTrue trivial

instance (o : Outcome) (s : Key) (call : Call) : Decidable (Timely o s call) :=
  inferInstanceAs (Decidable (InTime o _ call))

/-! ## A holder and its lock -/

def Call.holder : Call → Option ℕ
  | .releaseLock holder _ | .handling holder _ _ _ => some holder
  | .acquireLock _ | .use _ | .done => none

/-- What a call knows of its lock; a webhook releases it once. -/
def Knows (s : Key) : Call → Prop
  | .releaseLock holder expiresAt =>
    holder < s.serial ∧ s.Owns holder expiresAt ∧ holder ∉ s.released
  | .handling holder expiresAt _ _ => holder < s.serial ∧ s.Owns holder expiresAt
  | .acquireLock _ | .use _ | .done => True

/-- No acquisition has two holders. -/
def ticket (holder : ℕ) : Ticket Key Call where
  isOpen s := s.serial ≤ holder
  fired _ := 0
  holds call := if call.holder = some holder then 1 else 0

section Commands
variable {o : Outcome} {s s' : Key} {call call' other : Call} {holder expiresAt : ℕ}
  {finish close next : Cleanup}

theorem holder_moved : (o.moved holder expiresAt finish close next).holder = some holder := by
  unfold Outcome.moved
  split <;> rfl

theorem knows_moved (h : holder < s.serial ∧ s.Owns holder expiresAt) :
    Knows s (o.moved holder expiresAt finish close next) := by
  unfold Outcome.moved
  split <;> exact h

theorem Knows.tick (h : Knows s call) (elapsed : ℕ) : Knows (s.tick elapsed) call := by
  cases call with
  | releaseLock holder expiresAt =>
    obtain ⟨hPast, hOwns, hNot⟩ := h
    exact ⟨by rwa [Cell.tick_serial], hOwns.tick elapsed, by rwa [Cell.tick_released]⟩
  | handling holder expiresAt finish close =>
    obtain ⟨hPast, hOwns⟩ := h
    exact ⟨by rwa [Cell.tick_serial], hOwns.tick elapsed⟩
  | acquireLock _ | use _ | done => exact trivial

/-- What a command does to the key: a `SET` finds it free, and a `DEL` that is in time finds the
lock of its call or none. -/
inductive Effect (s : Key) (call : Call) : Key → Prop where
  | none : Effect s call s
  | set (value : Option ℕ) (ttl : ℕ) (hFree : s.lease = .none) (hCall : call.holder = .none) :
      Effect s call (s.set value ttl)
  | del (holder : ℕ) (hCall : call.holder = some holder) (hPast : holder < s.serial)
      (hOwn : ∀ l, s.lease = some l → l.holder = holder) : Effect s call (s.del holder)

theorem effect_command (hKnows : Knows s call) (hTime : InTime o s call)
    (hStep : command o s call = some (s', call')) : Effect s call s' := by
  cases call with
  | acquireLock lockTtl | use lockTtl =>
    simp only [command] at hStep
    split at hStep
    · cases hStep
      exact .none
    · rename_i hFree
      cases hStep
      simp only [not_or, Option.not_isSome_iff_eq_none] at hFree
      exact .set _ _ hFree.2 rfl
  | releaseLock holder expiresAt =>
    cases hStep
    unfold Outcome.del
    split
    · exact .none
    · rename_i hFails
      obtain ⟨hPast, hOwns, hNot⟩ := hKnows
      refine .del holder rfl hPast (hOwns.holder_eq ?_)
      rcases hTime (Bool.not_eq_true _ ▸ hFails) with hFree | hNow
      · exact .inl hFree
      · exact .inr ⟨hNow, hNot⟩
  | handling holder expiresAt finish close =>
    simp only [command] at hStep
    split at hStep
    · split at hStep <;> cases hStep <;> exact .none
    · rename_i hFound
      cases hStep
      unfold Outcome.del
      split
      · exact .none
      · rename_i hFails
        exact .del holder rfl hKnows.1
          (hKnows.2.holder_eq (hTime hFound (Bool.not_eq_true _ ▸ hFails)))
    · cases hStep
  | done => cases hStep

theorem Effect.sound (h : Effect s call s') (hSound : s.Sound) : s'.Sound := by
  cases h with
  | none => exact hSound
  | set value ttl hFree hCall => exact hSound.set hFree
  | del holder hCall hPast hOwn => exact hSound.del hPast hOwn

/-- What another call knows is left. -/
theorem Effect.knows (h : Effect s call s') (hKnows : Knows s other)
    (hApart : ∀ holder, call.holder = some holder → other.holder ≠ some holder) : Knows s' other := by
  cases h with
  | none => exact hKnows
  | set value ttl hFree hCall =>
    cases other with
    | releaseLock holder expiresAt =>
      obtain ⟨hPast, hOwns, hNot⟩ := hKnows
      exact ⟨hPast.trans (Nat.lt_succ_self _), hOwns.set hFree, hNot⟩
    | handling holder expiresAt finish close =>
      exact ⟨hKnows.1.trans (Nat.lt_succ_self _), hKnows.2.set hFree⟩
    | acquireLock _ | use _ | done => exact trivial
  | del holder hCall hPast hOwn =>
    have hNe := hApart holder hCall
    cases other with
    | releaseLock name expiresAt =>
      obtain ⟨hName, hOwns, hNot⟩ := hKnows
      have hName' : name ≠ holder := fun hSame => hNe (congrArg some hSame)
      exact ⟨by rwa [Cell.del_serial], hOwns.del hOwn hName', Cell.released_del hNot hName'⟩
    | handling name expiresAt finish close =>
      have hName' : name ≠ holder := fun hSame => hNe (congrArg some hSame)
      exact ⟨by rw [Cell.del_serial]; exact hKnows.1, hKnows.2.del hOwn hName'⟩
    | acquireLock _ | use _ | done => exact trivial

/-- What a call knows after its own command. -/
theorem knows_command (hSound : s.Sound) (hKnows : Knows s call)
    (hStep : command o s call = some (s', call')) : Knows s' call' := by
  cases call with
  | acquireLock lockTtl =>
    simp only [command] at hStep
    split at hStep
    · cases hStep
      exact trivial
    · cases hStep
      split
      · exact trivial
      · refine ⟨Nat.lt_succ_self _, Cell.owns_set, ?_⟩
        intro hMem
        exact (hSound.past _ hMem).ne rfl
  | use ttl =>
    simp only [command] at hStep
    split at hStep
    · cases hStep
      exact trivial
    · cases hStep
      split
      · exact trivial
      · exact ⟨Nat.lt_succ_self _, Cell.owns_set⟩
  | releaseLock holder expiresAt => cases hStep; exact trivial
  | handling holder expiresAt finish close =>
    simp only [command] at hStep
    split at hStep
    · split at hStep <;> cases hStep <;> exact knows_moved hKnows
    · cases hStep
      apply knows_moved
      unfold Outcome.del
      split
      · exact hKnows
      · exact ⟨by rw [Cell.del_serial]; exact hKnows.1, hKnows.2.del_self⟩
    · cases hStep
  | done => cases hStep

theorem keeps_of_serial (number : ℕ) (hSerial : s'.serial = s.serial)
    (hNext : call'.holder = none ∨ call'.holder = call.holder) :
    (ticket number).Keeps s call s' call' := by
  refine ⟨?_, fun hOpen => .inl (hSerial.ge.trans hOpen)⟩
  rcases hNext with hNone | hSame
  · simp [ticket, hNone]
  · simp [ticket, hSame]

theorem took_set (number : ℕ) {value : Option ℕ} {ttl : ℕ}
    (hNext : call'.holder = none ∨ call'.holder = some s.serial) :
    (ticket number).Keeps s call (s.set value ttl) call' ∨
      (ticket number).Takes s call (s.set value ttl) call' := by
  by_cases hNumber : s.serial = number
  · right
    refine ⟨hNumber.le, ?_, ?_⟩
    · intro hOpen
      exact absurd hOpen (by simp [ticket, Cell.set, hNumber])
    · simp only [ticket]
      split <;> split <;> omega
  · left
    refine ⟨?_, fun hOpen => .inl (Nat.le_of_succ_le hOpen)⟩
    rcases hNext with hNone | hSame
    · simp [ticket, hNone]
    · simp [ticket, hSame, hNumber]

/-- A lock is handed to one call. -/
theorem took_of_command (number : ℕ) (hStep : command o s call = some (s', call')) :
    (ticket number).Keeps s call s' call' ∨ (ticket number).Takes s call s' call' := by
  have hDel : ∀ holder, (o.del holder s).serial = s.serial := by
    intro holder
    unfold Outcome.del
    split
    · rfl
    · exact Cell.del_serial
  cases call with
  | acquireLock lockTtl | use lockTtl =>
    simp only [command] at hStep
    split at hStep <;> cases hStep
    · exact .inl (keeps_of_serial number rfl (.inl rfl))
    · apply took_set
      split
      · exact .inl rfl
      · exact .inr rfl
  | releaseLock holder expiresAt =>
    cases hStep
    exact .inl (keeps_of_serial number (hDel holder) (.inl rfl))
  | handling holder expiresAt finish close =>
    simp only [command] at hStep
    split at hStep
    · split at hStep <;> cases hStep <;>
        exact .inl (keeps_of_serial number rfl (.inr holder_moved))
    · cases hStep
      exact .inl (keeps_of_serial number (hDel holder) (.inr holder_moved))
    · cases hStep
  | done => cases hStep

end Commands

/-! ## Runs -/

section Runs
variable {c : Config Key Call}

theorem ticket_reaches (number : ℕ) (h : program.Reaches Timely (Program.idle Cell.empty) c) :
    (ticket number).Sound c := by
  refine Ticket.Sound.reaches h ⟨Nat.zero_le _, fun _ => rfl⟩ ?_ ?_
  · intro request
    cases request <;> rfl
  · intro o s s' call call' before after _ _ hStep
    have hTook := took_of_command number hStep
    simp only [Ticket.Keeps, Ticket.Takes, ticket, Cell.tick_serial] at hTook ⊢
    exact hTook

theorem sound_reaches (h : program.Reaches Timely (Program.idle Cell.empty) c) :
    c.store.Sound ∧ ∀ call ∈ c.calls, Knows c.store call := by
  refine h.assertions_among Cell.Sound Knows ⟨Cell.sound_empty, by simp [Program.idle]⟩ ?_ ?_ ?_
  · intro request s _
    cases request <;> exact trivial
  · intro o s s' call call' before after _ hSound hKnows hTime hStep
    have hTick := hSound.tick o.elapsed
    have hKnow := hKnows.tick o.elapsed
    exact ⟨(effect_command hKnow hTime hStep).sound hTick, knows_command hTick hKnow hStep⟩
  · intro o s s' call call' before after other hReach hMem _ hKnows hOther hTime hStep
    have hEffect := effect_command (hKnows.tick o.elapsed) hTime hStep
    apply hEffect.knows (hOther.tick o.elapsed)
    intro holder hCall hSame
    have hApart := (ticket_reaches holder hReach).apart hMem
    simp [ticket, hCall, hSame] at hApart

/-- In every run whose releases are in time, no release removes the lock of another, and at most one
holder has acquired the key since its last expiry or own release. -/
theorem locks_exclude (h : program.Reaches Timely (Program.idle Cell.empty) c) :
    c.store.stolen = false ∧ c.store.since ≤ 1 :=
  ⟨(sound_reaches h).1.kept, (sound_reaches h).1.once⟩

end Runs

def after (elapsed : ℕ) : Outcome := ⟨elapsed, false, false, false⟩

/-- A webhook outlives its lock, another acquires it, the first deletes it and a third acquires it. -/
def slowWebhook : List (Move Request Outcome) :=
  [.enter (.webhook 60000), .run 0 (after 0), .enter (.webhook 60000), .run 1 (after 60001),
    .run 0 (after 0), .enter (.webhook 60000), .run 2 (after 0)]

/-- Both cleanups of a request find its value; between their deletions another request acquires the
key, and after them a third. Nothing expires. -/
def twoCleanups : List (Move Request Outcome) :=
  [.enter (.use 60000), .run 0 (after 0), .run 0 (after 5), .run 0 ⟨0, false, false, true⟩,
    .run 0 (after 0), .enter (.use 60000), .run 1 (after 0), .run 0 ⟨0, false, false, true⟩,
    .enter (.use 60000), .run 2 (after 0)]

theorem release_removes_others :
    (∃ c, program.Reaches anyStep (Program.idle Cell.empty) c ∧ c.store.stolen = true ∧
      c.store.since = 2) ∧
    ∃ c, program.Reaches anyStep (Program.idle Cell.empty) c ∧ c.store.now < 60000 ∧
      c.store.stolen = true ∧ c.store.since = 2 := by
  constructor
  · have hRun : (program.schedule slowWebhook (Program.idle Cell.empty)).any (fun c =>
        c.store.stolen && c.store.since == 2) = true := by
      decide +kernel
    obtain ⟨c, hReach, hEnd⟩ := Program.reaches_of_any hRun
    simp only [Bool.and_eq_true, beq_iff_eq] at hEnd
    exact ⟨c, hReach, hEnd⟩
  · have hRun : (program.schedule twoCleanups (Program.idle Cell.empty)).any (fun c =>
        decide (c.store.now < 60000) && c.store.stolen && c.store.since == 2) = true := by
      decide +kernel
    obtain ⟨c, hReach, hEnd⟩ := Program.reaches_of_any hRun
    simp only [Bool.and_eq_true, beq_iff_eq, decide_eq_true_eq] at hEnd
    exact ⟨c, hReach, hEnd.1.1, hEnd.1.2, hEnd.2⟩

/-- A webhook crashes and its lock expires; a request cleans up twice, one after the other; then
another webhook acquires the key. -/
theorem crashed_webhook_excluded :
    ∃ c, program.Reaches Timely (Program.idle Cell.empty) c ∧ c.store.serial = 3 ∧
      c.store.lease.isSome = true ∧ c.store.stolen = false ∧ c.store.since ≤ 1 := by
  have hRun : ((program.guarded Timely).schedule
      [.enter (.webhook 60000), .run 0 (after 0), .enter (.use 60000), .run 1 (after 60001),
        .run 1 (after 5), .run 1 (after 0), .run 1 ⟨0, false, false, true⟩,
        .enter (.webhook 60000), .run 2 (after 0)]
      (Program.idle Cell.empty)).any (fun c =>
        c.store.serial == 3 && c.store.lease.isSome) = true := by
    decide +kernel
  obtain ⟨c, hReach, hEnd⟩ := Program.reaches_of_guarded_any hRun
  simp only [Bool.and_eq_true, beq_iff_eq] at hEnd
  exact ⟨c, hReach, hEnd.1, hEnd.2, locks_exclude hReach⟩

end FarmBackend.RedisLocks
