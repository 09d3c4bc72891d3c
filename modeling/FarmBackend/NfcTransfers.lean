import FarmBackend.NfcPayments
import FarmBackend.Ticket

/-!
# Who has claimed a tap-to-pay request

A claim is a ticket: it is given back only by the call that has taken it and has not transferred
anything. So there is one transfer, and the row names its payer from then on; whether an answer agrees
with it is a question of the reference that the payer's call has written.
-/

namespace FarmBackend.NfcPayments
open Interleaving

set_option autoImplicit false

/-- The payer for whom the call has claimed the request and not transferred anything. -/
def Call.claimant : Call → Option String
  | .findWallet payer _ | .sendFunds payer _ | .release payer => some payer
  | _ => none

def Owns (s : Store) (payer : String) : Prop :=
  s.row.usedAt ≠ none ∧ s.row.payer = some payer

/-! What the store keeps, and what a call knows. -/

structure Kept (terms : Terms) (s : Store) : Prop where
  owned : ∀ t ∈ s.transfers, Owns s t.payer
  other : ∀ t ∈ s.transfers, terms.payee ≠ t.payer
  inTime : ∀ t ∈ s.transfers, t.claimedAt < terms.expiresAt
  reference : ∀ reference, s.row.reference = some reference →
    ∃ t ∈ s.transfers, t.reference = reference

def Knows (terms : Terms) (s : Store) : Call → Prop
  | .claim payer => terms.payee ≠ payer
  | .findWallet payer claimedAt | .sendFunds payer claimedAt =>
    Owns s payer ∧ terms.payee ≠ payer ∧ claimedAt < terms.expiresAt
  | .recordReference payer reference =>
    ∃ t ∈ s.transfers, t.payer = payer ∧ t.reference = reference
  | _ => True

/-! What a step can do. -/

inductive Took (terms : Terms) (o : Outcome) (s : Store) : Call → Store → Call → Prop where
  | aside {call call' : Call} (hBefore : call.claimant = none) (hAfter : call'.claimant = none)
      (hKnows : Knows terms s call') : Took terms o s call s call'
  | told {call : Call} {payer : String} (hFree : call.claimant = none)
      (hSettled : Heeds terms o s call → Settled s payer) :
      Took terms o s call (s.reply payer (s.row.receiptFor payer)) .done
  | refused {call : Call} {payer : String} (hFree : call.claimant = none)
      (hOther : terms.payee = payer ∨
        (Heeds terms o s call → ∀ t ∈ s.transfers, t.payer ≠ payer)) :
      Took terms o s call (s.reply payer none) .done
  | claimed {payer : String} (hOpen : s.row.usedAt = none) (hTime : o.now < terms.expiresAt) :
      Took terms o s (.claim payer) (s.claim payer o.now) (.findWallet payer o.now)
  | found {payer : String} {claimedAt : ℕ} :
      Took terms o s (.findWallet payer claimedAt) s (.sendFunds payer claimedAt)
  | failed {call : Call} {payer : String} (hClaim : call.claimant = some payer) :
      Took terms o s call s (.release payer)
  | sent {payer reference : String} {claimedAt : ℕ} :
      Took terms o s (.sendFunds payer claimedAt) (s.transfer ⟨payer, reference, claimedAt⟩)
        (.recordReference payer reference)
  | released {payer : String} :
      Took terms o s (.release payer) ((s.release payer).reply payer none) .done
  | recorded {payer reference : String} :
      Took terms o s (.recordReference payer reference)
        ((s.recordReference reference).reply payer (some reference)) .done
  | reported : Took terms o s .status
      (s.answer (.status s.transfers.head? (paymentStatus terms o s.row))) .done

section Steps
variable {terms : Terms} {o : Outcome} {s s' : Store} {call call' : Call} {payer : String}

theorem took_loaded (hFree : call.claimant = none)
    (hSettled : Heeds terms o s call → Settled s payer)
    (h : loaded terms s payer = (s', call')) : Took terms o s call s' call' := by
  unfold loaded at h
  split at h
  · cases h
    exact .told hFree hSettled
  · split at h <;> cases h
    · rename_i hPayee
      exact .refused hFree (.inl hPayee)
    · rename_i hPayee
      exact .aside hFree rfl hPayee

/-- A payer whose token is compared with white space is refused whatever the row says. -/
theorem took_refused {token : Token} (hNone : hasPrior s.row payer token = false) :
    Took terms o s (.priorReceipt payer token) (s.reply payer none) .done := by
  cases hPadded : token.padded with
  | true =>
    refine .refused rfl (.inr fun hHeeds t hMem hPayer => ?_)
    rw [hHeeds.2 t hMem hPayer] at hPadded
    cases hPadded
  | false =>
    have hReceipt : s.row.receiptFor payer = none := by
      simpa [hasPrior, hPadded] using hNone
    have hTold : Took terms o s (.priorReceipt payer token)
        (s.reply payer (s.row.receiptFor payer)) .done := .told rfl (fun hHeeds => hHeeds.1)
    rwa [hReceipt] at hTold

theorem took_of_step (h : step terms o s call = some (s', call')) :
    Took terms o s call s' call' := by
  cases call with
  | verify payer token =>
    simp only [step] at h
    split at h <;> cases h <;> exact .aside rfl rfl trivial
  | load payer token =>
    simp only [step] at h
    split at h
    · cases h
      exact .aside rfl rfl trivial
    · rename_i hLoads
      exact took_loaded rfl (fun hHeeds => hHeeds (Bool.not_eq_true _ ▸ hLoads)) (Option.some.inj h)
  | priorReceipt payer token =>
    simp only [step] at h
    split at h
    · cases h
    · split at h
      · exact took_loaded rfl (fun hHeeds => hHeeds.1) (Option.some.inj h)
      · rename_i hNone
        cases h
        exact took_refused (Bool.not_eq_true _ ▸ hNone)
  | claim payer =>
    simp only [step] at h
    split at h
    · cases h
    · split at h <;> cases h
      · rename_i hOpen
        exact .claimed hOpen.1 hOpen.2
      · exact .aside rfl rfl trivial
  | reread payer =>
    simp only [step] at h
    split at h <;> cases h
    exact .told rfl id
  | findWallet payer claimedAt =>
    simp only [step] at h
    split at h
    · cases h
    · split at h <;> cases h
      · exact .found
      · exact .failed rfl
  | sendFunds payer claimedAt =>
    simp only [step] at h
    split at h <;> cases h
    · exact .failed rfl
    · exact .sent
  | release payer =>
    simp only [step] at h
    split at h <;> cases h
    exact .released
  | recordReference payer reference =>
    simp only [step] at h
    split at h <;> cases h
    exact .recorded
  | status =>
    simp only [step] at h
    split at h <;> cases h
    exact .reported
  | done => cases h

/-! The claim on the request. -/

def claims : Ticket Store Call where
  isOpen s := s.row.usedAt = none
  fired s := s.transfers.length
  holds call := call.claimant.isSome.toNat

theorem release_transfers (s : Store) (payer : String) :
    (s.release payer).transfers = s.transfers := by
  unfold Store.release
  split <;> rfl

theorem claims_step (hTook : Took terms o s call s' call') :
    claims.Keeps s call s' call' ∨ claims.Takes s call s' call' := by
  cases hTook with
  | aside hBefore hAfter _ =>
    refine .inl ⟨?_, fun hOpen => .inl hOpen⟩
    simp only [claims, hBefore, hAfter]
    exact Nat.le_refl _
  | told _ _ | refused _ _ => exact .inl ⟨Nat.add_le_add_left (Nat.zero_le _) _, .inl⟩
  | claimed hOpen _ => exact .inr ⟨hOpen, nofun, Nat.le_refl _⟩
  | found => exact .inl ⟨Nat.le_refl _, .inl⟩
  | failed hClaim =>
    refine .inl ⟨?_, .inl⟩
    simp only [claims, hClaim]
    exact Nat.le_refl _
  | sent => exact .inl ⟨Nat.le_refl _, .inl⟩
  | @released payer =>
    have hLess : claims.fired ((s.release payer).reply payer none) + claims.holds .done <
        claims.fired s + claims.holds (.release payer) := by
      change (s.release payer).transfers.length + 0 < s.transfers.length + 1
      rw [release_transfers]
      exact Nat.lt_succ_self _
    exact .inl ⟨Nat.le_of_lt hLess, fun _ => .inr hLess⟩
  | recorded => exact .inl ⟨Nat.le_refl _, .inl⟩
  | reported => exact .inl ⟨Nat.le_refl _, .inl⟩

end Steps

section Invariant
variable {terms : Terms} {o : Outcome} {s s' : Store} {call call' : Call} {payer : String}

theorem release_reference (s : Store) (payer : String) :
    (s.release payer).row.reference = s.row.reference := by
  unfold Store.release
  split <;> rfl

/-- Whoever holds the claim has not transferred anything. -/
theorem transfers_nil (hClaim : call.claimant = some payer)
    (hOnce : s.transfers.length + call.claimant.isSome.toNat ≤ 1) : s.transfers = [] := by
  rw [hClaim, Option.isSome_some, Bool.toNat_true] at hOnce
  exact List.length_eq_zero_iff.mp (Nat.le_zero.mp (Nat.le_of_succ_le_succ hOnce))

/-- A row without a transfer keeps nothing but its own fields. -/
theorem kept_nil (hTransfers : s.transfers = []) (hReference : s.row.reference = none) :
    Kept terms s := by
  refine ⟨?_, ?_, ?_, ?_⟩
  · rw [hTransfers]
    exact nofun
  · rw [hTransfers]
    exact nofun
  · rw [hTransfers]
    exact nofun
  · rw [hReference]
    exact nofun

theorem reference_nil (h : Kept terms s) (hNil : s.transfers = []) : s.row.reference = none := by
  refine Option.eq_none_iff_forall_not_mem.mpr ?_
  intro reference hReference
  obtain ⟨t, hMem, -⟩ := h.reference reference hReference
  rw [hNil] at hMem
  cases hMem

theorem kept_step (h : Kept terms s) (hKnows : Knows terms s call)
    (hOnce : s.transfers.length + call.claimant.isSome.toNat ≤ 1)
    (hTook : Took terms o s call s' call') : Kept terms s' ∧ Knows terms s' call' := by
  cases hTook with
  | aside _ _ hNext => exact ⟨h, hNext⟩
  | told _ _ | refused _ _ | reported =>
    exact ⟨⟨h.owned, h.other, h.inTime, h.reference⟩, trivial⟩
  | @claimed payer hOpen hTime =>
    refine ⟨⟨?_, h.other, h.inTime, h.reference⟩, ⟨nofun, rfl⟩, hKnows, hTime⟩
    intro t hMem
    exact absurd hOpen (h.owned t hMem).1
  | found => exact ⟨h, hKnows⟩
  | failed _ => exact ⟨h, trivial⟩
  | @sent payer reference claimedAt =>
    obtain ⟨hOwns, hPayee, hTime⟩ := hKnows
    have hNil : s.transfers = [] := transfers_nil rfl hOnce
    have hOne : (s.transfer ⟨payer, reference, claimedAt⟩).transfers =
        [⟨payer, reference, claimedAt⟩] := congrArg (List.cons _) hNil
    refine ⟨⟨?_, ?_, ?_, ?_⟩, ⟨_, List.mem_cons_self, rfl, rfl⟩⟩
    · rw [hOne]
      exact List.forall_mem_singleton.mpr hOwns
    · rw [hOne]
      exact List.forall_mem_singleton.mpr hPayee
    · rw [hOne]
      exact List.forall_mem_singleton.mpr hTime
    · intro old hOld
      obtain ⟨t, hMem, hSame⟩ := h.reference old hOld
      exact ⟨t, List.mem_cons_of_mem _ hMem, hSame⟩
  | @released payer =>
    have hNil : s.transfers = [] := transfers_nil rfl hOnce
    refine ⟨kept_nil ?_ ?_, trivial⟩
    · exact (release_transfers s payer).trans hNil
    · exact (release_reference s payer).trans (reference_nil h hNil)
  | @recorded payer reference =>
    refine ⟨⟨h.owned, h.other, h.inTime, ?_⟩, trivial⟩
    intro written hWritten
    obtain ⟨t, hMem, -, hReference⟩ := hKnows
    exact ⟨t, hMem, hReference.trans (Option.some.inj hWritten)⟩

/-- Only a release takes the row from whom it names. -/
theorem owns_step (h : Owns s payer) (hClaim : call.claimant = none ∨ call'.claimant ≠ none)
    (hTook : Took terms o s call s' call') : Owns s' payer := by
  cases hTook with
  | aside _ _ _ | told _ _ | refused _ _ | found | failed _ | sent | recorded | reported => exact h
  | claimed hOpen _ => exact absurd hOpen h.1
  | released =>
    rcases hClaim with hNone | hSome
    · cases hNone
    · exact absurd rfl hSome

theorem transfer_stays {t : Transfer} (h : t ∈ s.transfers) (hTook : Took terms o s call s' call') :
    t ∈ s'.transfers := by
  cases hTook with
  | aside _ _ _ | told _ _ | refused _ _ | claimed _ _ | found | failed _ | recorded | reported =>
    exact h
  | sent => exact List.mem_cons_of_mem _ h
  | @released payer => exact (release_transfers s payer).symm ▸ h

theorem knows_other {other : Call} (h : Knows terms s other)
    (hApart : other.claimant ≠ none → call.claimant = none)
    (hTook : Took terms o s call s' call') : Knows terms s' other := by
  cases other with
  | findWallet payer claimedAt | sendFunds payer claimedAt =>
    obtain ⟨hOwns, hRest⟩ := h
    exact ⟨owns_step hOwns (.inl (hApart nofun)) hTook, hRest⟩
  | recordReference payer reference =>
    obtain ⟨t, hMem, hRest⟩ := h
    exact ⟨t, transfer_stays hMem hTook, hRest⟩
  | claim payer => exact h
  | _ => exact trivial

end Invariant

/-! The answers. -/

section Answers
variable {terms : Terms} {o : Outcome} {s s' : Store} {call call' : Call} {payer : String}

theorem head_of_mem {t : Transfer} (hOnce : s.transfers.length ≤ 1) (hMem : t ∈ s.transfers) :
    s.transfers.head? = some t := by
  obtain ⟨first, hFirst⟩ | hNil : (∃ first, s.transfers = [first]) ∨ s.transfers = [] := by
    cases hList : s.transfers with
    | nil => exact .inr rfl
    | cons first rest =>
      rw [hList, List.length_cons] at hOnce
      have hRest : rest = [] := List.length_eq_zero_iff.mp (by omega)
      exact .inl ⟨first, by rw [hRest]⟩
  · rw [hFirst] at hMem ⊢
    rw [List.mem_singleton.mp hMem]
    rfl
  · rw [hNil] at hMem
    cases hMem

theorem agrees_receipt (h : Kept terms s) (hOnce : s.transfers.length ≤ 1)
    (hSettled : Settled s payer) :
    (Answer.pay s.transfers.head? payer (s.row.receiptFor payer)).Agrees := by
  cases hHead : s.transfers.head? with
  | none =>
    have hNone := reference_nil h (List.head?_eq_none_iff.mp hHead)
    simp only [Answer.Agrees, Row.receiptFor, hNone, ite_self, Option.bind_none]
  | some t =>
    have hMem : t ∈ s.transfers := List.mem_of_mem_head? hHead
    have hPayer := (h.owned t hMem).2
    simp only [Answer.Agrees, Row.receiptFor, hPayer, Option.some.injEq, Option.bind_some]
    split
    · rename_i hSame
      obtain ⟨reference, hReference⟩ := Option.isSome_iff_exists.mp (hSettled t hMem hSame)
      obtain ⟨other, hOther, hWritten⟩ := h.reference reference hReference
      have hOne : some t = some other := hHead.symm.trans (head_of_mem hOnce hOther)
      rw [hReference, ← hWritten, Option.some.inj hOne]
    · rfl

theorem agrees_refused (h : ∀ t ∈ s.transfers, t.payer ≠ payer) :
    (Answer.pay s.transfers.head? payer none).Agrees := by
  cases hHead : s.transfers.head? with
  | none => rfl
  | some t =>
    have hOther := h t (List.mem_of_mem_head? hHead)
    simp only [Answer.Agrees, Option.bind_some, if_neg hOther]

theorem agrees_status (h : Kept terms s)
    (hSettled : s.transfers ≠ [] → s.row.reference.isSome = true) :
    (Answer.status s.transfers.head? (paymentStatus terms o s.row)).Agrees := by
  simp only [Answer.Agrees, List.isSome_head?, paymentStatus]
  constructor
  · intro hPaid
    split at hPaid
    · rename_i hSome
      obtain ⟨reference, hReference⟩ := Option.isSome_iff_exists.mp hSome
      obtain ⟨t, hMem, -⟩ := h.reference reference hReference
      exact List.ne_nil_of_mem hMem
    · split at hPaid <;> cases hPaid
  · intro hTransfers
    rw [if_pos (hSettled hTransfers)]

theorem answered_step (h : Kept terms s) (hAnswered : ∀ a ∈ s.answers, a.Agrees)
    (hKnows : Knows terms s call) (hOnce : s.transfers.length + call.claimant.isSome.toNat ≤ 1)
    (hHeeds : Heeds terms o s call) (hTook : Took terms o s call s' call') :
    ∀ a ∈ s'.answers, a.Agrees := by
  have hLength : s.transfers.length ≤ 1 := Nat.le_trans (Nat.le_add_right _ _) hOnce
  cases hTook with
  | aside _ _ _ | claimed _ _ | found | failed _ | sent => exact hAnswered
  | told _ hSettled =>
    exact List.forall_mem_cons.mpr ⟨agrees_receipt h hLength (hSettled hHeeds), hAnswered⟩
  | @refused _ payer _ hOther =>
    refine List.forall_mem_cons.mpr ⟨agrees_refused ?_, hAnswered⟩
    rcases hOther with hPayee | hOther
    · intro t hMem hPayer
      exact h.other t hMem (hPayee.trans hPayer.symm)
    · exact hOther hHeeds
  | @released payer =>
    have hNil : s.transfers = [] := transfers_nil rfl hOnce
    have hKeeps : (s.release payer).answers = s.answers := by
      unfold Store.release
      split <;> rfl
    refine List.forall_mem_cons.mpr ⟨agrees_refused ?_, hKeeps.symm ▸ hAnswered⟩
    rw [release_transfers, hNil]
    exact nofun
  | @recorded payer reference =>
    obtain ⟨t, hMem, hPayer, hReference⟩ := hKnows
    have hHead : (s.recordReference reference).transfers.head? = some t := head_of_mem hLength hMem
    refine List.forall_mem_cons.mpr ⟨?_, hAnswered⟩
    rw [Answer.Agrees, hHead, Option.bind_some, if_pos hPayer, hReference]
  | reported => exact List.forall_mem_cons.mpr ⟨agrees_status h hHeeds, hAnswered⟩

end Answers

section Runs
variable {terms : Terms} {ok : Guard Store Call Outcome} {c : Config Store Call}

theorem claims_sound (h : (program terms).Reaches ok (Program.idle start) c) : claims.Sound c := by
  refine Ticket.Sound.reaches h ⟨Nat.zero_le _, fun _ => rfl⟩ ?_ ?_
  · intro request
    cases request <;> rfl
  · intro o s s' call call' _ _ _ _ hStep
    exact claims_step (took_of_step hStep)

theorem kept_reaches (h : (program terms).Reaches ok (Program.idle start) c) :
    Kept terms c.store ∧ ∀ call ∈ c.calls, Knows terms c.store call := by
  refine h.assertions_among (Kept terms) (Knows terms) ⟨kept_nil rfl rfl, nofun⟩ ?_ ?_ ?_
  · intro request s _
    cases request <;> exact trivial
  · intro o s s' call call' before after hRun hKept hKnows _ hStep
    exact kept_step hKept hKnows (claims_sound hRun).fired_add_le (took_of_step hStep)
  · intro o s s' call call' before after other hRun hMem _ _ hOther _ hStep
    refine knows_other hOther ?_ (took_of_step hStep)
    intro hClaim
    have hApart : s.transfers.length + call.claimant.isSome.toNat +
        other.claimant.isSome.toNat ≤ 1 := (claims_sound hRun).apart hMem
    rw [Option.isSome_iff_ne_none.mpr hClaim, Bool.toNat_true] at hApart
    by_contra hOwn
    rw [Option.isSome_iff_ne_none.mpr hOwn, Bool.toNat_true] at hApart
    omega

/-- In every run. -/
theorem claimed_once (h : (program terms).Reaches ok (Program.idle start) c) :
    c.store.transfers.length ≤ 1 ∧ (∀ t ∈ c.store.transfers, t.claimedAt < terms.expiresAt) ∧
      (c.store.transfers ≠ [] → c.store.row.usedAt ≠ none) := by
  obtain ⟨hKept, -⟩ := kept_reaches h
  refine ⟨(claims_sound h).fired_le, hKept.inTime, ?_⟩
  intro hTransfers
  obtain ⟨t, hMem⟩ := List.exists_mem_of_ne_nil _ hTransfers
  exact (hKept.owned t hMem).1

theorem answered_reaches (h : (program terms).Reaches (Heeds terms) (Program.idle start) c) :
    ∀ a ∈ c.store.answers, a.Agrees := by
  refine (h.assertions_among (fun s => ∀ a ∈ s.answers, a.Agrees) (fun _ _ => True)
    ⟨nofun, fun _ _ => trivial⟩ (fun _ _ _ => trivial) ?_ ?_).1
  · intro o s s' call call' before after hRun hAnswered _ hHeeds hStep
    obtain ⟨hKept, hCalls⟩ := kept_reaches hRun
    have hKnows : Knows terms s call := hCalls call (by simp)
    have hOnce := (claims_sound hRun).fired_add_le
    exact ⟨answered_step hKept hAnswered hKnows hOnce hHeeds (took_of_step hStep), trivial⟩
  · intros
    exact trivial

/-- In every run in which the reference is written before the payer and the payee read the row
again. -/
theorem transferred_once (h : (program terms).Reaches (Heeds terms) (Program.idle start) c) :
    Consistent terms c.store := by
  obtain ⟨hOnce, hTime, hClosed⟩ := claimed_once h
  exact ⟨hOnce, hTime, hClosed, answered_reaches h⟩

end Runs

/-- Bob asks for a payment within a minute. -/
def tapped : Terms := ⟨"bob", 60000⟩

def tap : Token := ⟨60, false⟩

def atTime (now : ℕ) : Outcome := ⟨now, false, true, some "TX1"⟩

/-- Alice's transfer commits; the update that writes its reference throws. She taps again, and Bob
asks a minute later. -/
def unrecorded : List (Move Request Outcome) :=
  [.enter (.pay "alice" tap), .run 0 (atTime 1000), .run 0 (atTime 1000), .run 0 (atTime 1000),
    .run 0 (atTime 1000), .run 0 (atTime 1000), .enter (.pay "alice" tap), .run 1 (atTime 2000),
    .run 1 (atTime 2000), .enter .status, .run 2 (atTime 61000)]

def sentTransfer : Transfer := ⟨"alice", "TX1", 1000⟩

theorem paid_reported_expired :
    ∃ c, (program tapped).Reaches anyStep (Program.idle start) c ∧
      c.store.transfers = [sentTransfer] ∧
      c.store.answers = [.status (some sentTransfer) .expired,
        .pay (some sentTransfer) "alice" none] ∧ ¬ Consistent tapped c.store := by
  have hRun : ((program tapped).schedule unrecorded (Program.idle start)).any (fun c =>
      c.store.transfers == [sentTransfer] && c.store.answers ==
        [.status (some sentTransfer) .expired, .pay (some sentTransfer) "alice" none]) = true := by
    decide +kernel
  obtain ⟨c, hReach, hEnd⟩ := Program.reaches_of_any hRun
  simp only [Bool.and_eq_true, beq_iff_eq] at hEnd
  obtain ⟨hTransfers, hAnswers⟩ := hEnd
  refine ⟨c, hReach, hTransfers, hAnswers, ?_⟩
  intro hConsistent
  have hAgrees := hConsistent.answered (.pay (some sentTransfer) "alice" none) (by simp [hAnswers])
  cases hAgrees

/-- Alice's first PIN is wrong. Then she pays, Carol is refused, and after a minute Alice gets the
receipt again and Bob is told that he was paid. -/
theorem paid_after_retry :
    ∃ c, (program tapped).Reaches (Heeds tapped) (Program.idle start) c ∧
      c.store.answers = [.status (some ⟨"alice", "TX1", 2000⟩) .paid,
        .pay (some ⟨"alice", "TX1", 2000⟩) "alice" (some "TX1"),
        .pay (some ⟨"alice", "TX1", 2000⟩) "carol" none,
        .pay (some ⟨"alice", "TX1", 2000⟩) "alice" (some "TX1"), .pay none "alice" none] ∧
      Consistent tapped c.store := by
  have hRun : (((program tapped).guarded (Heeds tapped)).schedule
      [.enter (.pay "alice" tap), .run 0 (atTime 1000), .run 0 (atTime 1000), .run 0 (atTime 1000),
        .run 0 (atTime 1000), .run 0 ⟨1000, false, true, none⟩, .run 0 (atTime 1000),
        .enter (.pay "alice" tap), .run 1 (atTime 2000), .run 1 (atTime 2000), .run 1 (atTime 2000),
        .run 1 (atTime 2000), .run 1 (atTime 2000), .run 1 (atTime 2000),
        .enter (.pay "carol" tap), .run 2 (atTime 3000), .run 2 (atTime 3000),
        .enter (.pay "alice" tap), .run 3 (atTime 61000), .run 3 (atTime 61000),
        .enter .status, .run 4 (atTime 61000)]
      (Program.idle start)).any (fun c =>
        c.store.answers == [.status (some ⟨"alice", "TX1", 2000⟩) .paid,
          .pay (some ⟨"alice", "TX1", 2000⟩) "alice" (some "TX1"),
          .pay (some ⟨"alice", "TX1", 2000⟩) "carol" none,
          .pay (some ⟨"alice", "TX1", 2000⟩) "alice" (some "TX1"), .pay none "alice" none]) = true := by
    decide +kernel
  obtain ⟨c, hReach, hEnd⟩ := Program.reaches_of_guarded_any hRun
  exact ⟨c, hReach, beq_iff_eq.mp hEnd, transferred_once hReach⟩

end FarmBackend.NfcPayments
