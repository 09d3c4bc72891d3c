import FarmBackend.ApiPayouts

/-!
# One withdrawal for a key

The claim of the key is a ticket for one withdrawal, which the `catch` gives back; that is sound as
long as the `catch` is not reached after the withdrawal. The hash of the row is that of the request
that claimed the key, so nobody else gets past it.
-/

namespace FarmBackend.ApiPayouts
open Decimal Interleaving Wallets Withdrawals
open WithdrawCalls (NewWithdrawal)

set_option autoImplicit false

/-! Different requests have different entries. -/

theorem key_of_mem_present {fields : List (String × Option Value)} {key : String} {value : Value}
    (h : (key, value) ∈ present fields) : key ∈ fields.map (·.1) := by
  obtain ⟨field, hMem, hField⟩ := List.mem_filterMap.mp h
  obtain ⟨_, _, hPair⟩ := Option.map_eq_some_iff.mp hField
  rw [← (Prod.mk.inj hPair).1]
  exact List.mem_map_of_mem hMem

/-- Fields with the same keys are told apart by those that are present. -/
theorem present_injective {fields others : List (String × Option Value)}
    (hKeys : fields.map (·.1) = others.map (·.1)) (hNodup : (fields.map (·.1)).Nodup)
    (h : present fields = present others) : fields = others := by
  induction fields generalizing others with
  | nil => exact (List.map_eq_nil_iff.mp hKeys.symm).symm
  | cons field fields ih =>
    cases others with
    | nil => cases hKeys
    | cons other others =>
      obtain ⟨key, value⟩ := field
      obtain ⟨key', value'⟩ := other
      rw [List.map_cons, List.map_cons, List.cons.injEq] at hKeys
      obtain ⟨rfl, hKeys⟩ := hKeys
      rw [List.map_cons, List.nodup_cons] at hNodup
      obtain ⟨hFresh, hNodup⟩ := hNodup
      have hFresh' : key ∉ others.map (·.1) := hKeys ▸ hFresh
      cases value with
      | none =>
        cases value' with
        | none => rw [ih hKeys hNodup h]
        | some value' =>
          have hMem : (key, value') ∈ present fields := h ▸ List.mem_cons_self
          exact absurd (key_of_mem_present hMem) hFresh
      | some value =>
        cases value' with
        | none =>
          have hMem : (key, value) ∈ present others := h ▸ List.mem_cons_self
          exact absurd (key_of_mem_present hMem) hFresh'
        | some value' =>
          have hCons : (key, value) :: present fields = (key, value') :: present others := h
          rw [List.cons.injEq, Prod.mk.injEq] at hCons
          rw [hCons.1.2, ih hKeys hNodup hCons.2]

theorem map_text_injective {a b : Option String} (h : a.map Value.text = b.map Value.text) :
    a = b :=
  Option.map_injective (fun _ _ hText => Value.text.inj hText) h

theorem entries_injective {dto other : ApiPayoutDto} (h : dto.entries = other.entries) :
    dto = other := by
  have hFields : dto.fields = other.fields := present_injective rfl (by simp [ApiPayoutDto.fields]) h
  simp only [ApiPayoutDto.fields, List.cons.injEq, Prod.mk.injEq, true_and, Option.some.injEq,
    Value.number.injEq, Value.method.injEq, and_true] at hFields
  obtain ⟨hName, hNumber, hAmount, hBank, hAddress, hCurrency, hExtra, hMethod, hNetwork, hPhone⟩ :=
    hFields
  cases dto
  cases other
  simp only [ApiPayoutDto.mk.injEq]
  exact ⟨hAmount, hMethod, map_text_injective hName, map_text_injective hNumber,
    map_text_injective hBank, map_text_injective hPhone, map_text_injective hCurrency,
    map_text_injective hAddress, map_text_injective hNetwork, map_text_injective hExtra⟩

section Calls
variable {Digest : Type} {digest : List (String × Value) → Digest}

theorem same_or_collides {dto other : ApiPayoutDto} (h : hash digest dto = hash digest other) :
    dto = other ∨ Collides digest dto other := by
  by_cases hEntries : dto.entries = other.entries
  · exact .inl (entries_injective hEntries)
  · exact .inr ⟨hEntries, h⟩

end Calls

/-- The call may make a withdrawal. -/
def Call.holds : Call → Bool
  | .createWithdrawal _ | .withdrawalTx _ _ | .fail => true
  | _ => false

/-- The request that the call has brought past the hash. -/
def Call.passed : Call → Option ApiPayoutDto
  | .retry dto | .createWithdrawal dto | .withdrawalTx dto _ => some dto
  | _ => none

/-! What a step can do. -/

inductive Took {Digest : Type} (digest : List (String × Value) → Digest) (o : Outcome)
    (s : Store Digest) : Call → Store Digest → Call → Prop where
  | aside {call call' : Call} (hHolds : call'.holds = call.holds)
      (hPassed : call'.passed = none ∨ call'.passed = call.passed) : Took digest o s call s call'
  | claimed {dto : ApiPayoutDto} (hNone : s.record = none) :
      Took digest o s (.create dto)
        { s with record := some ⟨hash digest dto, .processing⟩, claimed := some dto }
        (.createWithdrawal dto)
  | matched {dto : ApiPayoutDto} {record : Record Digest} (hRecord : s.record = some record)
      (hHash : record.requestHash = hash digest dto) :
      Took digest o s (.findExisting dto) s (.retry dto)
  | replayed {dto : ApiPayoutDto} {record : Record Digest} (hRecord : s.record = some record)
      (hHash : record.requestHash = hash digest dto) :
      Took digest o s (.findExisting dto) { s with replayed := s.replayed ++ [dto] } .done
  | retried {dto : ApiPayoutDto} {record : Record Digest} (hRecord : s.record = some record)
      (hFailed : record.status = .failed) :
      Took digest o s (.retry dto) (s.setStatus .processing) (.createWithdrawal dto)
  | withdrew {dto : ApiPayoutDto} {new : NewWithdrawal} {db : WithdrawDb} {call' : Call}
      (hCall : call' = if o.throws then .fail else .invalidateCaches)
      (hCommitted : o.throws = true → o.written = true) :
      Took digest o s (.withdrawalTx dto new) { s with db := db, created := s.created ++ [dto] } call'
  | threw {call : Call} {s' : Store Digest} (hHeeds : ¬ Heeds o s call)
      (hStore : s' = s ∨ s' = s.setStatus .submitted) :
      Took digest o s call s' .fail
  | submitted : Took digest o s .submit (s.setStatus .submitted) .done
  | failed : Took digest o s .fail (s.setStatus .failed) .done
  | others {db : WithdrawDb} : Took digest o s (.others db) { s with db := db } .done

section Steps
variable {Digest : Type} {digest : List (String × Value) → Digest} {o : Outcome}
  {s s' : Store Digest} {call call' : Call}

theorem took_of_step [DecidableEq Digest] (h : step digest o s call = some (s', call')) :
    Took digest o s call s' call' := by
  cases call with
  | create dto =>
    simp only [step] at h
    split at h
    · rename_i hNone
      cases h
      exact .claimed hNone
    · cases h
      exact .aside rfl (.inl rfl)
  | findExisting dto =>
    simp only [step] at h
    split at h
    · cases h
      exact .aside rfl (.inl rfl)
    · rename_i record hRecord
      split at h
      · cases h
        exact .aside rfl (.inl rfl)
      · rename_i hHash
        rw [not_not] at hHash
        split at h <;> cases h
        · exact .replayed hRecord hHash
        · exact .aside rfl (.inl rfl)
        · exact .matched hRecord hHash
  | retry dto =>
    simp only [step] at h
    split at h
    · rename_i hAny
      cases h
      obtain ⟨record, hRecord, hFailed⟩ := Option.any_eq_true _ _ |>.mp hAny
      exact .retried hRecord (beq_iff_eq.mp hFailed)
    · cases h
      exact .aside rfl (.inl rfl)
  | createWithdrawal dto =>
    simp only [step] at h
    split at h <;> cases h
    · exact .aside rfl (.inl rfl)
    · exact .aside rfl (.inr rfl)
  | withdrawalTx dto new =>
    simp only [step] at h
    split at h
    · cases h
      exact .aside rfl (.inl rfl)
    · split at h
      · cases h
        exact .aside rfl (.inl rfl)
      · rename_i hCommitted
        cases h
        refine .withdrew rfl ?_
        intro hThrows
        by_contra hWritten
        exact hCommitted ⟨hThrows, Bool.not_eq_true _ ▸ hWritten⟩
  | invalidateCaches =>
    simp only [step] at h
    split at h
    · rename_i hThrows
      cases h
      refine .threw ?_ (.inl rfl)
      simp [Heeds, hThrows]
    · cases h
      exact .aside rfl (.inl rfl)
  | submit =>
    simp only [step] at h
    split at h
    · rename_i hThrows
      cases h
      refine .threw ?_ ?_
      · simp [Heeds, hThrows]
      · split
        · exact .inr rfl
        · exact .inl rfl
    · cases h
      exact .submitted
  | fail =>
    cases h
    exact .failed
  | others db =>
    cases h
    exact .others
  | done => cases h

/-! The claim of the key. -/

def keyClaim (Digest : Type) : Ticket (Store Digest) Call where
  isOpen s := ∀ record ∈ s.record, record.status = .failed
  fired s := s.created.length
  holds call := call.holds.toNat

theorem not_open_setStatus {record : Record Digest} {status : RecordStatus}
    (hRecord : s.record = some record) (hStatus : status ≠ .failed) :
    ¬ (keyClaim Digest).isOpen (s.setStatus status) := by
  intro hOpen
  exact hStatus (hOpen { record with status := status } (by simp [Store.setStatus, hRecord]))

theorem keyClaim_step (hHeeds : Heeds o s call) (hTook : Took digest o s call s' call') :
    (keyClaim Digest).Keeps s call s' call' ∨ (keyClaim Digest).Takes s call s' call' := by
  cases hTook with
  | aside hHolds _ =>
    refine .inl ⟨?_, fun hOpen => .inl hOpen⟩
    simp [keyClaim, hHolds]
  | claimed hNone =>
    refine .inr ⟨?_, ?_, le_refl _⟩
    · intro record hMem
      rw [hNone] at hMem
      cases hMem
    · intro hOpen
      cases hOpen _ rfl
  | matched _ _ | replayed _ _ | others => exact .inl ⟨le_refl _, fun hOpen => .inl hOpen⟩
  | retried hRecord hFailed =>
    refine .inr ⟨?_, not_open_setStatus hRecord (by simp), le_refl _⟩
    intro record hMem
    rw [hRecord, Option.mem_some_iff] at hMem
    rw [← hMem]
    exact hFailed
  | withdrew hCall hCommitted =>
    have hThrows : o.throws = false := by
      by_contra hThrows
      rw [Bool.not_eq_false] at hThrows
      have hWritten := hCommitted hThrows
      rw [hHeeds hThrows] at hWritten
      cases hWritten
    refine .inl ⟨?_, fun hOpen => .inl hOpen⟩
    simp [keyClaim, hCall, hThrows, Call.holds]
  | threw hNot _ => exact absurd hHeeds hNot
  | submitted =>
    refine .inl ⟨le_refl _, fun hOpen => .inl ?_⟩
    intro record hRecord
    exact absurd hOpen (not_open_setStatus hRecord (by simp))
  | failed => exact .inl ⟨Nat.le_succ _, fun _ => .inr (Nat.lt_succ_self _)⟩

/-! The hash of the row. -/

structure Matching (digest : List (String × Value) → Digest) (s : Store Digest) : Prop where
  record : ∀ record ∈ s.record, ∃ claimed, s.claimed = some claimed ∧
    record.requestHash = hash digest claimed
  created : ∀ dto ∈ s.created, ∃ claimed, s.claimed = some claimed ∧
    hash digest dto = hash digest claimed
  replayed : ∀ dto ∈ s.replayed, ∃ claimed, s.claimed = some claimed ∧
    hash digest dto = hash digest claimed
  fresh : s.record = none → s.claimed = none

/-- What a call has brought past the hash has the hash of the request that claimed the key. -/
def Knows (digest : List (String × Value) → Digest) (s : Store Digest) (call : Call) : Prop :=
  ∀ dto ∈ call.passed, ∃ claimed, s.claimed = some claimed ∧ hash digest dto = hash digest claimed

theorem knows_none (h : call.passed = none) : Knows digest s call := by
  intro dto hMem
  rw [h] at hMem
  cases hMem

theorem Matching.setStatus (h : Matching digest s) (status : RecordStatus) :
    Matching digest (s.setStatus status) := by
  refine ⟨?_, h.created, h.replayed, ?_⟩
  · intro record' hMem
    obtain ⟨record, hRecord, rfl⟩ := Option.mem_map.mp hMem
    exact h.record record hRecord
  · intro hNone
    exact h.fresh (Option.map_eq_none_iff.mp hNone)

theorem Matching.of_record {dto : ApiPayoutDto} {record : Record Digest} (h : Matching digest s)
    (hRecord : s.record = some record) (hHash : record.requestHash = hash digest dto) :
    ∃ claimed, s.claimed = some claimed ∧ hash digest dto = hash digest claimed := by
  obtain ⟨claimed, hClaimed, hSame⟩ := h.record record hRecord
  exact ⟨claimed, hClaimed, hHash.symm.trans hSame⟩

theorem claimed_step (h : Matching digest s) (hTook : Took digest o s call s' call')
    {claimed : ApiPayoutDto} (hClaimed : s.claimed = some claimed) : s'.claimed = some claimed := by
  cases hTook with
  | claimed hNone =>
    rw [h.fresh hNone] at hClaimed
    cases hClaimed
  | threw _ hStore => rcases hStore with rfl | rfl <;> exact hClaimed
  | _ => exact hClaimed

theorem knows_other {other : Call} (h : Matching digest s) (hOther : Knows digest s other)
    (hTook : Took digest o s call s' call') : Knows digest s' other := by
  intro dto hMem
  obtain ⟨claimed, hClaimed, hSame⟩ := hOther dto hMem
  exact ⟨claimed, claimed_step h hTook hClaimed, hSame⟩

theorem matching_step (h : Matching digest s) (hKnows : Knows digest s call)
    (hTook : Took digest o s call s' call') : Matching digest s' ∧ Knows digest s' call' := by
  cases hTook with
  | aside _ hPassed =>
    refine ⟨h, ?_⟩
    rcases hPassed with hNone | hSame
    · exact knows_none hNone
    · rw [Knows, hSame]
      exact hKnows
  | @claimed dto hNone =>
    have hClaimed := h.fresh hNone
    refine ⟨⟨?_, ?_, ?_, nofun⟩, ?_⟩
    · intro record hMem
      rw [← Option.mem_some_iff.mp hMem]
      exact ⟨dto, rfl, rfl⟩
    · intro other hMem
      obtain ⟨claimed, hOld, -⟩ := h.created other hMem
      rw [hClaimed] at hOld
      cases hOld
    · intro other hMem
      obtain ⟨claimed, hOld, -⟩ := h.replayed other hMem
      rw [hClaimed] at hOld
      cases hOld
    · intro other hMem
      rw [← Option.mem_some_iff.mp hMem]
      exact ⟨dto, rfl, rfl⟩
  | matched hRecord hHash =>
    refine ⟨h, ?_⟩
    intro other hMem
    rw [← Option.mem_some_iff.mp hMem]
    exact h.of_record hRecord hHash
  | @replayed dto record hRecord hHash =>
    refine ⟨⟨h.record, h.created, ?_, h.fresh⟩, knows_none rfl⟩
    intro other hMem
    rcases List.mem_append.mp hMem with hOld | hNew
    · exact h.replayed other hOld
    · rw [List.mem_singleton.mp hNew]
      exact h.of_record hRecord hHash
  | retried _ _ => exact ⟨h.setStatus _, hKnows⟩
  | @withdrew dto _ _ _ hCall _ =>
    refine ⟨⟨h.record, ?_, h.replayed, h.fresh⟩, ?_⟩
    · intro other hMem
      rcases List.mem_append.mp hMem with hOld | hNew
      · exact h.created other hOld
      · rw [List.mem_singleton.mp hNew]
        exact hKnows dto rfl
    · rw [hCall]
      split <;> exact knows_none rfl
  | threw _ hStore =>
    refine ⟨?_, knows_none rfl⟩
    rcases hStore with rfl | rfl
    · exact h
    · exact h.setStatus _
  | submitted | failed => exact ⟨h.setStatus _, knows_none rfl⟩
  | others => exact ⟨⟨h.record, h.created, h.replayed, h.fresh⟩, knows_none rfl⟩

theorem guarded_of_matching (h : Matching digest s) : Guarded digest s := by
  constructor
  · intro dto hMem claimed hClaimed
    obtain ⟨other, hOther, hSame⟩ := h.created dto hMem
    rw [Option.mem_unique hClaimed hOther]
    exact same_or_collides hSame
  · intro dto hMem claimed hClaimed
    obtain ⟨other, hOther, hSame⟩ := h.replayed dto hMem
    rw [Option.mem_unique hClaimed hOther]
    exact same_or_collides hSame

theorem matching_unused {db : WithdrawDb} : Matching digest (unused db) := by
  refine ⟨?_, ?_, ?_, fun _ => rfl⟩
  · intro record hMem
    cases hMem
  · intro dto hMem
    cases hMem
  · intro dto hMem
    cases hMem

end Steps

section Runs
variable {Digest : Type} [DecidableEq Digest] {digest : List (String × Value) → Digest}
  {ok : Guard (Store Digest) Call Outcome} {db : WithdrawDb} {c : Config (Store Digest) Call}

/-- In every run, whatever throws. -/
theorem matching_reaches (h : (program digest).Reaches ok (Program.idle (unused db)) c) :
    Matching digest c.store := by
  refine (h.assertions (Matching digest) (Knows digest) ⟨matching_unused, ?_⟩ ?_ ?_ ?_).1
  · intro call hMem
    cases hMem
  · intro request s _
    cases request <;> exact knows_none rfl
  · intro o s s' call call' hMatching hKnows _ hStep
    exact matching_step hMatching hKnows (took_of_step hStep)
  · intro o s s' call call' other hMatching _ hOther _ hStep
    exact knows_other hMatching hOther (took_of_step hStep)

theorem keyClaim_sound (h : (program digest).Reaches Heeds (Program.idle (unused db)) c) :
    (keyClaim Digest).Sound c := by
  refine Ticket.Sound.reaches h ⟨Nat.zero_le _, fun _ => rfl⟩ ?_ ?_
  · intro request
    cases request <;> rfl
  · intro o s s' call call' _ _ _ hHeeds hStep
    exact keyClaim_step hHeeds (took_of_step hStep)

/-- In every run in which nothing throws between a withdrawal and its record. -/
theorem withdrawn_once (h : (program digest).Reaches Heeds (Program.idle (unused db)) c) :
    Consistent digest c.store :=
  ⟨guarded_of_matching (matching_reaches h), (keyClaim_sound h).fired_le⟩

end Runs

/-- A wallet of 100 FARM. -/
def funded : WithdrawDb where
  bank := ⟨fun _ => some ⟨toUnits 100, 0, false⟩, none, [], []⟩
  activeWallet := fun _ => some 0
  userNames := fun _ => ⟨none, none⟩
  rows := []

def payout (amount : ℚ) : ApiPayoutDto :=
  ⟨amount, .mobileMoney, none, none, none, some "0712345678", none, none, none, none⟩

def newWithdrawal : NewWithdrawal where
  walletId := 0
  userId := 0
  amount := 20
  fee := 0
  settlement := 20
  method := .mobileMoney
  accountName := none
  accountNumber := none
  bankName := none
  phoneNumber := some "0712345678"
  metadata := PayoutCalls.paystackMetadata ⟨none, none⟩

def answering (throws : Bool) : Outcome := ⟨some newWithdrawal, ⟨0, 0⟩, 0, throws, false⟩

def runs (index n : ℕ) (throws : Bool) : List (Move Request Outcome) :=
  List.replicate n (.run index (answering throws))

/-- The withdrawal is committed, the caches cannot be invalidated, and the same request is sent
again. -/
def failsAfterCommit : List (Move Request Outcome) :=
  .enter (.create (payout 20)) :: runs 0 3 false ++ runs 0 1 true ++ runs 0 1 false ++
    .enter (.create (payout 20)) :: runs 1 5 false

theorem withdrawn_twice :
    ∃ c, (program id).Reaches anyStep (Program.idle (unused funded)) c ∧
      c.store.created = [payout 20, payout 20] ∧ ¬ Consistent id c.store := by
  have hRun : ((program id).schedule failsAfterCommit (Program.idle (unused funded))).any (fun c =>
      c.store.created == [payout 20, payout 20]) = true := by
    decide +kernel
  obtain ⟨c, hReach, hEnd⟩ := Program.reaches_of_any hRun
  have hCreated : c.store.created = [payout 20, payout 20] := beq_iff_eq.mp hEnd
  refine ⟨c, hReach, hCreated, ?_⟩
  intro hConsistent
  have hOnce := hConsistent.once
  simp [hCreated] at hOnce

/-- A withdrawal that is refused is tried again, and a repetition is answered with the response. -/
theorem withdrawn_after_retry :
    ∃ c, (program id).Reaches Heeds (Program.idle (unused funded)) c ∧
      c.store.created = [payout 20] ∧ c.store.replayed = [payout 20] ∧ Consistent id c.store := by
  have hRun : (((program id).guarded Heeds).schedule
      (.enter (.create (payout 20)) :: runs 0 2 false ++ runs 0 1 true ++ runs 0 1 false ++
        .enter (.create (payout 20)) :: runs 1 7 false ++ .enter (.create (payout 20)) ::
        runs 2 2 false) (Program.idle (unused funded))).any (fun c =>
      c.store.created == [payout 20] && c.store.replayed == [payout 20]) = true := by
    decide +kernel
  obtain ⟨c, hReach, hEnd⟩ := Program.reaches_of_guarded_any hRun
  simp only [Bool.and_eq_true, beq_iff_eq] at hEnd
  exact ⟨c, hReach, hEnd.1, hEnd.2, withdrawn_once hReach⟩

end FarmBackend.ApiPayouts
