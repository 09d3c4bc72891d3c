import FarmBackend.ChainOutbox

/-!
# When a transfer of the outbox is confirmed once

A worker that goes on to a new transfer supersedes the one that the row names by then. The other
transfers of the row are dead as long as that one is: not confirmed, and past their last round.
-/

namespace FarmBackend.ChainOutbox
open Interleaving

set_option autoImplicit false

variable (lastValid : TxId → ℕ)

/-- Not confirmed, and too late to be. -/
def dead (s : Store) (txId : TxId) : Bool :=
  decide (txId ∉ s.confirmed) && decide (lastValid txId < s.round)

/-- The transfer that the row names is dead, if it names one. -/
def superseded (s : Store) : Bool := s.row.txId.all (dead lastValid s)

/-- Whether the step goes on to a new transfer only where the row's transfer is dead. -/
def resendsSafely (o : Outcome) (s : Store) : Call → Bool
  | .claim r _ =>
    o.throws || s.row.status != r.status || r.txId.isSome || superseded lastValid s
  | .currentRound r => o.throws || decide (s.round ≤ r.lastValid.getD 0) || superseded lastValid s
  | _ => true

abbrev ResendsSafely : Guard Store Call Outcome :=
  fun o s call => resendsSafely lastValid o s call = true

def Call.holds : Call → ℕ
  | .txStatus _ _ | .currentRound _ | .checks _ | .prepare _ | .storeTx _ _ | .sendRaw _ _
  | .wait _ _ | .markSent _ | .fail _ _ _ => 1
  | _ => 0

def rowTicket : Ticket Store Call where
  isOpen s := s.row.status.isWaiting = true
  fired _ := 0
  holds := Call.holds

structure Sound (s : Store) : Prop where
  nodup : s.confirmed.Nodup
  broadcast : ∀ txId ∈ s.confirmed, txId ∈ s.broadcast
  others : ∀ txId ∈ s.broadcast, s.row.txId ≠ some txId → dead lastValid s txId = true

def Call.Knows (s : Store) : Call → Prop
  | .checks _ | .prepare _ | .storeTx _ _ => superseded lastValid s = true
  | .sendRaw _ txId => s.row.txId = some txId
  | _ => True

/-- A step that leaves the transfers of the row to those who hold it. -/
structure Passes (s s' : Store) : Prop where
  txId : s'.row.txId = s.row.txId
  broadcast : s'.broadcast = s.broadcast
  round : s.round ≤ s'.round
  nodup : s.confirmed.Nodup → s'.confirmed.Nodup
  confirmed : ∀ txId ∈ s'.confirmed,
    txId ∈ s.confirmed ∨ (txId ∈ s.broadcast ∧ s.round ≤ lastValid txId)

section Steps
variable {lastValid} {o : Outcome} {s s' : Store} {call call' : Call} {txId : TxId}

theorem dead_iff : dead lastValid s txId = true ↔ txId ∉ s.confirmed ∧ lastValid txId < s.round := by
  simp [dead]

theorem superseded_iff : superseded lastValid s = true ↔
    ∀ txId, s.row.txId = some txId → dead lastValid s txId = true := by
  simp [superseded, Option.all_eq_true]

theorem Passes.refl (s : Store) : Passes lastValid s s :=
  ⟨rfl, rfl, le_refl _, id, fun _ h => .inl h⟩

theorem passes_row {row : OutboxRow} (hTxId : row.txId = s.row.txId) :
    Passes lastValid s { s with row := row } :=
  ⟨hTxId, rfl, le_refl _, id, fun _ h => .inl h⟩

theorem Passes.dead (h : Passes lastValid s s') (hDead : dead lastValid s txId = true) :
    dead lastValid s' txId = true := by
  obtain ⟨hNot, hLate⟩ := dead_iff.mp hDead
  have hRound := h.round
  apply dead_iff.mpr
  refine ⟨?_, by omega⟩
  intro hMem
  rcases h.confirmed txId hMem with hOld | ⟨-, hInTime⟩
  · exact hNot hOld
  · omega

theorem Passes.sound (h : Passes lastValid s s') (hSound : Sound lastValid s) :
    Sound lastValid s' := by
  refine ⟨h.nodup hSound.nodup, ?_, ?_⟩
  · intro txId hMem
    rw [h.broadcast]
    rcases h.confirmed txId hMem with hOld | ⟨hSent, -⟩
    · exact hSound.broadcast txId hOld
    · exact hSent
  · intro txId hMem hOther
    rw [h.broadcast] at hMem
    rw [h.txId] at hOther
    exact h.dead (hSound.others txId hMem hOther)

theorem Passes.superseded (h : Passes lastValid s s') (hDead : superseded lastValid s = true) :
    superseded lastValid s' = true := by
  rw [superseded_iff] at hDead ⊢
  intro txId hTxId
  rw [h.txId] at hTxId
  exact h.dead (hDead txId hTxId)

theorem Passes.knows (h : Passes lastValid s s') (hKnows : call.Knows lastValid s) :
    call.Knows lastValid s' := by
  cases call with
  | checks | prepare | storeTx => exact h.superseded hKnows
  | sendRaw r txId => exact h.txId.trans hKnows
  | _ => trivial

theorem superseded_of_none {row : OutboxRow} (h : superseded lastValid s = true)
    (hTxId : row.txId = s.row.txId) : superseded lastValid { s with row := row } = true :=
  (passes_row hTxId).superseded h

end Steps

inductive Took (o : Outcome) (s : Store) : Call → Store → Call → Prop where
  | passed {s' : Store} {call call' : Call} (hPasses : Passes lastValid s s')
      (hStatus : s'.row.status = s.row.status) (hHolds : call'.holds = call.holds)
      (hKnows : call.Knows lastValid s → ResendsSafely lastValid o s call →
        call'.Knows lastValid s') : Took o s call s' call'
  | claimed {row : OutboxRow} {call call' : Call} (hOpen : s.row.status.isWaiting = true)
      (hStatus : row.status = .sending) (hTxId : row.txId = s.row.txId) (hFree : call.holds = 0)
      (hHolds : call'.holds = 1)
      (hKnows : ResendsSafely lastValid o s call → call'.Knows lastValid { s with row := row }) :
      Took o s call { s with row := row } call'
  | stored {r : OutboxRow} {txId : TxId} :
      Took o s (.storeTx r txId) { s with row := { s.row with
        txId := some txId, lastValid := some (lastValid txId) } } (.sendRaw r txId)
  | sent {r : OutboxRow} {txId : TxId} {call' : Call} (hHolds : call'.holds = 1)
      (hKnows : ∀ s, call'.Knows lastValid s) :
      Took o s (.sendRaw r txId) { s with broadcast := s.broadcast ++ [txId] } call'
  | released {row : OutboxRow} {call : Call} (hTxId : row.txId = s.row.txId)
      (hHolds : call.holds = 1) : Took o s call { s with row := row } .done

section Took
variable {lastValid} {o : Outcome} {s s' : Store} {call call' : Call}

theorem took_still (hHolds : call'.holds = call.holds)
    (hKnows : call.Knows lastValid s → ResendsSafely lastValid o s call → call'.Knows lastValid s) :
    Took lastValid o s call s call' :=
  .passed (.refl s) rfl hHolds hKnows

theorem took_of_step (hStep : step lastValid o s call = some (s', call')) :
    Took lastValid o s call s' call' := by
  cases call with
  | findMany =>
    simp only [step] at hStep
    split at hStep
    · cases hStep
    · split at hStep
      · split at hStep
        all_goals
          cases hStep
          exact took_still rfl fun _ _ => trivial
      · cases hStep
        exact took_still rfl fun _ _ => trivial
  | claim r h =>
    simp only [step] at hStep
    split at hStep
    · cases hStep
    · rename_i hThrows
      split at hStep
      · rename_i hStatus
        cases hStep
        refine .claimed (hStatus ▸ h) rfl rfl rfl ?_ ?_
        · split <;> rfl
        · intro hOk
          split
          · trivial
          · rename_i hNone
            apply superseded_of_none _ rfl
            simpa [ResendsSafely, resendsSafely, hThrows, hStatus, hNone] using hOk
      · cases hStep
        exact took_still rfl fun _ _ => trivial
  | txStatus r txId =>
    simp only [step] at hStep
    split at hStep
    all_goals
      cases hStep
      exact took_still rfl fun _ _ => trivial
  | currentRound r =>
    simp only [step] at hStep
    split at hStep
    · cases hStep
      exact took_still rfl fun _ _ => trivial
    · rename_i hThrows
      split at hStep
      · cases hStep
        exact took_still rfl fun _ _ => trivial
      · rename_i hLate
        cases hStep
        refine took_still rfl fun _ hOk => ?_
        have hDead : superseded lastValid s = true := by
          simpa [ResendsSafely, resendsSafely, hThrows, hLate] using hOk
        exact hDead
  | checks r =>
    simp only [step] at hStep
    split at hStep
    · cases hStep
      exact took_still rfl fun _ _ => trivial
    · split at hStep
      · cases hStep
        exact took_still rfl fun _ _ => trivial
      · split at hStep
        · cases hStep
          exact took_still rfl fun _ _ => trivial
        · cases hStep
          exact took_still rfl fun hKnows _ => hKnows
  | prepare r =>
    simp only [step] at hStep
    split at hStep
    · cases hStep
      exact took_still rfl fun _ _ => trivial
    · cases hStep
      exact took_still rfl fun hKnows _ => hKnows
  | storeTx r txId =>
    simp only [step] at hStep
    split at hStep
    · cases hStep
      exact took_still rfl fun _ _ => trivial
    · cases hStep
      exact .stored
  | sendRaw r txId =>
    simp only [step] at hStep
    cases hAccepted : o.accepted with
    | false =>
      simp only [hAccepted, or_true, if_true, Bool.false_eq_true, if_false, Option.some.injEq,
        Prod.mk.injEq] at hStep
      obtain ⟨rfl, rfl⟩ := hStep
      exact took_still rfl fun _ _ => trivial
    | true =>
      simp only [hAccepted, Bool.true_eq_false, or_false, if_true] at hStep
      split at hStep
      all_goals
        cases hStep
        exact .sent rfl fun _ => trivial
  | wait r txId =>
    simp only [step] at hStep
    split at hStep
    · cases hStep
      exact took_still rfl fun _ _ => trivial
    · rw [Option.ite_none_right_eq_some] at hStep
      obtain ⟨-, hStep⟩ := hStep
      cases hStep
      exact took_still rfl fun _ _ => trivial
  | markSent r =>
    simp only [step] at hStep
    split at hStep
    · cases hStep
      exact took_still rfl fun _ _ => trivial
    · cases hStep
      exact .released rfl rfl
  | fail r status inTry =>
    simp only [step] at hStep
    split at hStep
    · rw [Option.ite_none_right_eq_some] at hStep
      obtain ⟨-, hStep⟩ := hStep
      cases hStep
      exact took_still rfl fun _ _ => trivial
    · cases hStep
      exact .released rfl rfl
  | retryNow =>
    simp only [step] at hStep
    split at hStep
    · cases hStep
    · split at hStep
      · cases hStep
        exact .passed (passes_row rfl) rfl rfl fun _ _ => trivial
      · cases hStep
        exact took_still rfl fun _ _ => trivial
  | tick =>
    cases hStep
    exact .passed ⟨rfl, rfl, Nat.le_succ _, id, fun _ h => .inl h⟩ rfl rfl fun _ _ => trivial
  | confirm txId =>
    simp only [step] at hStep
    rw [Option.ite_none_right_eq_some] at hStep
    obtain ⟨⟨hSent, hNew, hInTime⟩, hStep⟩ := hStep
    cases hStep
    refine .passed ⟨rfl, rfl, le_refl _, ?_, ?_⟩ rfl rfl fun _ _ => trivial
    · intro hNodup
      exact List.Nodup.append hNodup (List.nodup_singleton txId) (by simpa using hNew)
    · intro other hMem
      rcases List.mem_append.mp hMem with hOld | hAdded
      · exact .inl hOld
      · rw [List.mem_singleton.mp hAdded]
        exact .inr ⟨hSent, hInTime⟩
  | done => cases hStep

/-- A worker keeps the row's ticket, takes it, or gives it back. -/
theorem ticket_of_took (hTook : Took lastValid o s call s' call') :
    rowTicket.Keeps s call s' call' ∨ rowTicket.Takes s call s' call' := by
  cases hTook with
  | passed _ hStatus hHolds =>
    left
    refine ⟨?_, fun hOpen => .inl ?_⟩
    · simp only [rowTicket, hHolds, le_refl]
    · simp only [rowTicket] at hOpen ⊢
      rwa [hStatus] at hOpen
  | claimed hOpen hStatus _ _ hHolds =>
    right
    refine ⟨hOpen, ?_, ?_⟩
    · simp [rowTicket, hStatus, OutboxStatus.isWaiting]
    · simp only [rowTicket, hHolds]
      omega
  | stored =>
    left
    exact ⟨le_refl _, fun hOpen => .inl hOpen⟩
  | sent hHolds =>
    left
    refine ⟨?_, fun hOpen => .inl hOpen⟩
    simp only [rowTicket, hHolds]
    exact le_refl _
  | released _ hHolds =>
    left
    refine ⟨?_, fun _ => .inr ?_⟩
    all_goals
      simp only [rowTicket, hHolds]
      simp [Call.holds]

/-- A step keeps the row's transfers in order, and what its worker knows. -/
theorem sound_of_took (hSound : Sound lastValid s) (hKnows : call.Knows lastValid s)
    (hOk : ResendsSafely lastValid o s call) (hTook : Took lastValid o s call s' call') :
    Sound lastValid s' ∧ call'.Knows lastValid s' := by
  cases hTook with
  | passed hPasses _ _ hNext => exact ⟨hPasses.sound hSound, hNext hKnows hOk⟩
  | claimed _ _ hTxId _ _ hNext => exact ⟨(passes_row hTxId).sound hSound, hNext hOk⟩
  | @stored r txId =>
    -- the transfer that the row named is one of the others now, and it is dead
    refine ⟨⟨hSound.nodup, hSound.broadcast, ?_⟩, rfl⟩
    intro other hMem _
    by_cases hOld : s.row.txId = some other
    · exact superseded_iff.mp hKnows other hOld
    · exact hSound.others other hMem hOld
  | @sent r txId call' _ hNext =>
    refine ⟨⟨hSound.nodup, ?_, ?_⟩, hNext _⟩
    · intro other hMem
      exact List.mem_append_left _ (hSound.broadcast other hMem)
    · intro other hMem hOther
      rcases List.mem_append.mp hMem with hOld | hNew
      · exact hSound.others other hOld hOther
      · rw [List.mem_singleton.mp hNew] at hOther
        exact absurd hKnows hOther
  | released hTxId => exact ⟨(passes_row hTxId).sound hSound, trivial⟩

theorem knows_of_took {other : Call} (hOther : other.Knows lastValid s)
    (hApart : call.holds + other.holds ≤ 1) (hTook : Took lastValid o s call s' call') :
    other.Knows lastValid s' := by
  have hFree : call.holds = 1 → ∀ s, other.Knows lastValid s := by
    intro hHolds s
    have hNone : other.holds = 0 := by omega
    cases other <;> trivial
  cases hTook with
  | passed hPasses => exact hPasses.knows hOther
  | claimed _ _ hTxId => exact (passes_row hTxId).knows hOther
  | stored => exact hFree rfl _
  | sent => exact hFree rfl _
  | released hTxId => exact (passes_row hTxId).knows hOther

end Took

section Runs
variable {lastValid} {start : Store} {c : Config Store Call}

theorem rowTicket_sound {ok : Guard Store Call Outcome}
    (h : (program lastValid).Reaches ok (Program.idle start) c) : rowTicket.Sound c := by
  refine Ticket.Sound.reaches h ⟨by simp [Ticket.spent, Program.idle, rowTicket],
    fun _ => by simp [Ticket.spent, Program.idle, rowTicket]⟩ ?_ ?_
  · intro request
    cases request <;> rfl
  · intro o s s' call call' _ _ _ _ hStep
    exact ticket_of_took (took_of_step hStep)

theorem sound_of_reaches (hStart : Sound lastValid start)
    (h : (program lastValid).Reaches (ResendsSafely lastValid) (Program.idle start) c) :
    Sound lastValid c.store := by
  refine (h.assertions_among (Sound lastValid) (fun s call => call.Knows lastValid s)
    ⟨hStart, by simp [Program.idle]⟩ ?_ ?_ ?_).1
  · intro request s _
    cases request <;> trivial
  · intro o s s' call call' _ _ _ hSound hKnows hOk hStep
    exact sound_of_took hSound hKnows hOk (took_of_step hStep)
  · intro o s s' call call' before after other hRun hMem _ _ hOther _ hStep
    have hApart := (rowTicket_sound hRun).apart hMem
    simp only [rowTicket] at hApart
    exact knows_of_took hOther (by omega) (took_of_step hStep)

theorem Sound.length_confirmed_le {s : Store} (h : Sound lastValid s) : s.confirmed.length ≤ 1 := by
  have hNamed : ∀ txId ∈ s.confirmed, s.row.txId = some txId := by
    intro txId hMem
    by_contra hOther
    have hDead := dead_iff.mp (h.others txId (h.broadcast txId hMem) hOther)
    exact hDead.1 hMem
  rcases hConfirmed : s.confirmed with - | ⟨first, - | ⟨second, rest⟩⟩
  · simp
  · simp
  · have hFirst := hNamed first (by simp [hConfirmed])
    have hSecond := hNamed second (by simp [hConfirmed])
    have hNodup := h.nodup
    rw [hFirst, Option.some.injEq] at hSecond
    rw [hConfirmed, hSecond] at hNodup
    simp at hNodup

/-- Where every worker that goes on to a new transfer supersedes a dead one, the row's transfer is
confirmed at most once. -/
theorem transfer_confirmed_once (hSent : start.broadcast = []) (hConfirmed : start.confirmed = [])
    (h : (program lastValid).Reaches (ResendsSafely lastValid) (Program.idle start) c) :
    c.store.confirmed.length ≤ 1 := by
  have hSound : Sound lastValid c.store → c.store.confirmed.length ≤ 1 := Sound.length_confirmed_le
  apply hSound
  apply sound_of_reaches _ h
  refine ⟨?_, ?_, ?_⟩
  · simp [hConfirmed]
  · simp [hConfirmed]
  · simp [hSent]

end Runs

/-! A row of 5.00 FARM; the transfers' last rounds are 10 and 20. -/

namespace Sample

def start : Store := ⟨⟨.pending, 500, none, none, 0, 0⟩, 1, [], []⟩

def lastRound (txId : TxId) : ℕ := 10 * (txId + 1)

/-- Everything answers; `txId` is the transfer that is built. -/
def outcome (txId : TxId) : Outcome := ⟨10 ^ 9, false, true, true, true, 500, true, txId, true⟩

/-- The await throws, and so do the two lookups. -/
def outage : Outcome := ⟨10 ^ 8, true, false, false, true, 500, true, 0, true⟩

/-- A first attempt that loses the node while it waits. -/
def firstAttempt : List (Move Request Outcome) :=
  .enter .process :: List.replicate 6 (.run 0 (outcome 0)) ++
    [.run 0 outage, .run 0 { outage with throws := false }]

def confirmFirst : List (Move Request Outcome) := [.enter (.confirm 0), .run 1 (outcome 0)]

def rounds (index : ℕ) : List (Move Request Outcome) :=
  (List.range 10).flatMap fun i => [.enter .tick, .run (index + i) (outcome 0)]

end Sample

/-- The first transfer is confirmed while the node is lost; after its last round both lookups are
out, and a second transfer is sent and confirmed. -/
theorem transfer_confirmed_twice : ∃ c,
    (program Sample.lastRound).Reaches anyStep (Program.idle Sample.start) c ∧
      c.store.confirmed.length = 2 := by
  have hRun : ((program Sample.lastRound).schedule (Sample.firstAttempt ++ Sample.confirmFirst ++
      Sample.rounds 2 ++ [.enter .process, .run 12 (Sample.outcome 1), .run 12 (Sample.outcome 1),
        .run 12 Sample.outage] ++ List.replicate 5 (.run 12 (Sample.outcome 1)) ++
      [.enter (.confirm 1), .run 13 (Sample.outcome 1)]) (Program.idle Sample.start)).any
        (fun c => decide (c.store.confirmed.length = 2)) = true := by
    decide +kernel
  obtain ⟨c, hReach, hTwo⟩ := Program.reaches_of_any hRun
  exact ⟨c, hReach, of_decide_eq_true hTwo⟩

/-- A first transfer that dies in the outage, and a second one that is confirmed. -/
theorem second_transfer_confirmed_once : ∃ c : Config Store Call,
    c.store.broadcast = [0, 1] ∧ c.store.confirmed = [1] ∧ c.store.confirmed.length ≤ 1 := by
  have hRun : (((program Sample.lastRound).guarded (ResendsSafely Sample.lastRound)).schedule
      (Sample.firstAttempt ++ Sample.rounds 1 ++ [.enter .process, .run 11 (Sample.outcome 1),
        .run 11 (Sample.outcome 1), .run 11 Sample.outage] ++
        List.replicate 5 (.run 11 (Sample.outcome 1)) ++
        [.enter (.confirm 1), .run 12 (Sample.outcome 1)]) (Program.idle Sample.start)).any
        (fun c => decide (c.store.broadcast = [0, 1] ∧ c.store.confirmed = [1])) = true := by
    decide +kernel
  obtain ⟨c, hReach, hEnd⟩ := Program.reaches_of_guarded_any hRun
  obtain ⟨hSent, hConfirmed⟩ := of_decide_eq_true hEnd
  exact ⟨c, hSent, hConfirmed, transfer_confirmed_once rfl rfl hReach⟩

end FarmBackend.ChainOutbox
