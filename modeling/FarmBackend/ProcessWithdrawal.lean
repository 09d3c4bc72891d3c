import FarmBackend.WithdrawCalls

/-!
# What `processWithdrawal` does after Paystack accepted the transfer

Every await of an execution may be answered in any way or throw.
-/

namespace FarmBackend.ProcessWithdrawal
open Decimal Wallets Withdrawals Awaiting WithdrawCalls

set_option autoImplicit false

variable {γ : Type}

/-- `initiateTransfer` returned normally. -/
def accepts (event : Event Op) : Bool :=
  match event with
  | ⟨.initiateTransfer _, .ok _⟩ => true
  | _ => false

/-- `rejectWithdrawal` is called. -/
def rejects (event : Event Op) : Bool :=
  match event with
  | ⟨.rejectWithdrawal _ _, _⟩ => true
  | _ => false

/-- An update of the metadata threw. -/
def bookkeepingThrows (event : Event Op) : Bool :=
  match event with
  | ⟨.updateMetadata _ _, .error _⟩ => true
  | _ => false

/-- What an execution has seen. -/
structure Seen where
  accepted : Bool
  threw : Bool
  rejected : Bool

def Seen.after (seen : Seen) (op : Op γ) (answer : γ) : Seen where
  accepted := seen.accepted || accepts ⟨op, answer⟩
  threw := seen.threw || bookkeepingThrows ⟨op, answer⟩
  rejected := seen.rejected || rejects ⟨op, answer⟩

/-- Who rejects after an acceptance has had its bookkeeping throw. -/
def Explained (seen : Seen) : Prop :=
  seen.accepted = true → seen.rejected = true → seen.threw = true

def watch : Monitor Op Seen := .keeping Seen.after Explained

theorem run_watch (seen : Seen) (trace : List (Event Op)) :
    watch.run seen trace = ⟨seen.accepted || trace.any accepts,
      seen.threw || trace.any bookkeepingThrows, seen.rejected || trace.any rejects⟩ := by
  induction trace generalizing seen with
  | nil => simp [Monitor.run]
  | cons event trace ih =>
    have hStep : watch.run seen (event :: trace) =
        watch.run (seen.after event.op event.answer) trace := rfl
    rw [hStep, ih]
    simp [Seen.after, Bool.or_assoc]

@[simp] theorem watch_allows {seen : Seen} {op : Op γ} :
    watch.allows seen op ↔ ∀ answer, Explained (seen.after op answer) := Iff.rfl

@[simp] theorem watch_after (seen : Seen) (op : Op γ) (answer : γ) :
    watch.after seen op answer = seen.after op answer := rfl

section After
variable (seen : Seen)

attribute [local simp] Seen.after accepts bookkeepingThrows rejects

@[simp] theorem after_query (query : Query γ) (answer : Reply γ) :
    seen.after (.query query) answer = seen := by
  simp

@[simp] theorem after_service (call : ServiceCall γ) (answer : Reply γ) :
    seen.after (.service call) answer = seen := by
  simp

@[simp] theorem after_claimProcessing (reference : ℕ) (answer : Reply ℕ) :
    seen.after (.claimProcessing reference) answer = seen := by
  simp

@[simp] theorem after_rejectWithdrawalTx (reference : ℕ) (withdrawal : Withdrawal)
    (transaction : Option WithdrawalTransaction) (walletId : WalletId) (answer : Reply Bool) :
    seen.after (.rejectWithdrawalTx reference withdrawal transaction walletId) answer = seen := by
  simp

@[simp] theorem after_updateMetadata (reference : ℕ) (metadata : Metadata) (answer : Reply Unit) :
    seen.after (.updateMetadata reference metadata) answer =
      { seen with threw := seen.threw || !answer.isOk } := by
  cases answer <;> simp [Except.isOk, Except.toBool]

@[simp] theorem after_initiateTransfer (payload : TransferPayload)
    (answer : Except Thrown TransferData) :
    seen.after (.initiateTransfer payload) answer =
      { seen with accepted := seen.accepted || answer.isOk } := by
  cases answer <;> simp [Except.isOk, Except.toBool]

@[simp] theorem after_rejectWithdrawal (reference : ℕ) (reason : String) (answer : Unit) :
    seen.after (.rejectWithdrawal reference reason) answer = { seen with rejected := true } := by
  simp

end After

section Executions
variable {seen : Seen} {reference : ℕ} {withdrawal : Withdrawal} {user : UserNames}

theorem ensures_createRecipient (hSeen : Explained seen) :
    watch.Ensures (fun _ s => s = seen) seen (createRecipient withdrawal user) := by
  unfold createRecipient
  cases withdrawal.method with
  | bankTransfer => simp [hSeen]
  | mobileMoney => simp [hSeen]
  | crypto => simp

theorem ensures_payoutAmountOf (hSeen : Explained seen) (settlement : ℚ)
    (snapshot : Option ConversionSnapshot) :
    watch.Ensures (fun _ s => s = seen) seen (payoutAmountOf settlement snapshot) := by
  unfold payoutAmountOf
  cases snapshotSettlementKes settlement snapshot with
  | none => simp [hSeen]
  | some settlementKes => by_cases hPos : 0 < settlementKes <;> simp [hPos, hSeen]

/-- How the `try` block may end: nothing was sent, or the transfer was accepted and then the
bookkeeping throws or not. -/
def PaidOut (outcome : Except Thrown Unit) (s : Seen) : Prop :=
  s = ⟨false, false, false⟩ ∨ (s = ⟨true, false, false⟩ ∧ outcome = .ok ()) ∨
    (s = ⟨true, true, false⟩ ∧ ∃ e, outcome = .error (.failure e))

theorem ensures_payOut :
    watch.Ensures PaidOut ⟨false, false, false⟩ (payOut reference withdrawal user) := by
  have hFresh : Explained ⟨false, false, false⟩ := by simp [Explained]
  unfold payOut
  refine (Monitor.ensures_bind _ _).mpr ((ensures_createRecipient hFresh).mono ?_)
  rintro (e | recipient) s rfl
  · exact .inl rfl
  cases recipient with
  | none => exact .inl rfl
  | some recipient =>
    simp only [Monitor.ensures_bind, ensures_find, watch_allows, watch_after, after_query]
    refine ⟨fun _ => hFresh, ?_, fun _ => .inl rfl⟩
    intro transaction
    refine (ensures_payoutAmountOf hFresh _ _).mono ?_
    rintro (e | payoutAmount) s rfl
    · exact .inl rfl
    cases payoutAmount with
    | none => exact .inl rfl
    | some payoutAmount =>
      simp only [Monitor.ensures_ite, Monitor.ensures_bind, ensures_initiateTransfer, watch_allows,
        watch_after, after_initiateTransfer]
      refine ⟨fun _ => .inl rfl, fun _ => ⟨fun _ => by simp [Explained], ?_⟩⟩
      rintro (e | transferData)
      · exact .inl rfl
      -- From here on the money is on its way.
      cases transaction with
      | none => exact .inr (.inl ⟨rfl, rfl⟩)
      | some transaction =>
        refine ensures_await.mpr ⟨fun _ => by simp [Explained], ?_, ?_⟩
        · exact fun _ => .inr (.inl ⟨rfl, rfl⟩)
        · exact fun e => .inr (.inr ⟨rfl, e, rfl⟩)

theorem ensures_rejectWithdrawal (hSeen : seen.accepted = true → seen.threw = true)
    (reason : String) :
    watch.Ensures (fun _ s => s = { seen with rejected := true }) seen
      (rejectWithdrawal reference reason) := by
  have hAfter : Explained { seen with rejected := true } := fun hAccepted _ => hSeen hAccepted
  unfold rejectWithdrawal
  simp only [Monitor.ensures_bind, Monitor.ensures_perform, watch_allows, watch_after,
    after_rejectWithdrawal]
  generalize ({ seen with rejected := true } : Seen) = after at hAfter
  refine ⟨fun _ => hAfter, fun _ => ensures_find.mpr ⟨fun _ => by simpa using hAfter, ?_, by simp⟩⟩
  rintro (_ | withdrawal)
  · simp
  · simp only [Monitor.ensures_ite, Monitor.ensures_bind, ensures_find, watch_allows, watch_after,
      after_query]
    refine ⟨fun _ => rfl, fun _ => ⟨fun _ => rfl, fun _ => ⟨fun _ => hAfter, ?_, fun _ => trivial⟩⟩⟩
    refine fun transaction => ⟨fun _ => hAfter, ?_, fun _ => trivial⟩
    rintro (_ | ⟨walletId, wallet⟩)
    · rfl
    · simp [Monitor.ensures_ite, hAfter]

def Settled (s : Seen) : Prop := s.accepted = true → (s.rejected = true ↔ s.threw = true)

theorem ensures_payOutFailed {e : Thrown} (hPaid : PaidOut (.error e) seen) :
    watch.Ensures (fun _ s => Settled s) seen (payOutFailed reference e) := by
  unfold payOutFailed
  cases hUnknown : e.outcomeUnknown with
  | true =>
    -- An unknown outcome is thrown by the transfer itself, before anything is seen.
    have hSeen : seen = ⟨false, false, false⟩ := by
      rcases hPaid with hSeen | ⟨_, hOk⟩ | ⟨_, failure, hFailure⟩
      · exact hSeen
      · cases hOk
      · cases hFailure
        cases hUnknown
    subst hSeen
    simp only [if_true, Monitor.ensures_bind, ensures_find, watch_allows, watch_after, after_query]
    refine ⟨fun _ => by simp [Explained], ?_, fun _ => by simp [Settled]⟩
    rintro (_ | transaction)
    · simp [Settled]
    · simp [Settled, Explained]
  | false =>
    have hSeen : seen.accepted = true → seen.threw = true := by
      rcases hPaid with rfl | ⟨_, hOk⟩ | ⟨rfl, _⟩
      · simp
      · cases hOk
      · simp
    simp only [Bool.false_eq_true, if_false, Monitor.ensures_bind]
    refine (ensures_rejectWithdrawal hSeen _).mono ?_
    rintro (_ | _) s rfl <;> exact fun hAccepted => by simp [hSeen hAccepted]

theorem ensures_processWithdrawal :
    watch.Ensures (fun _ s => Settled s) ⟨false, false, false⟩ (processWithdrawal reference) := by
  have hFresh : Explained ⟨false, false, false⟩ := by simp [Explained]
  unfold processWithdrawal
  simp only [Monitor.ensures_bind, ensures_find, watch_allows, watch_after, after_query]
  refine ⟨fun _ => hFresh, ?_, fun _ => by simp [Settled]⟩
  rintro (_ | ⟨withdrawal, user⟩)
  · simp [Settled]
  simp only [Monitor.ensures_ite, Monitor.ensures_bind, ensures_await, watch_allows, watch_after,
    after_claimProcessing]
  refine ⟨fun _ => by simp [Settled], fun _ => ⟨fun _ => hFresh, ?_, fun _ => by simp [Settled]⟩⟩
  intro claimCount
  refine ⟨fun _ => by simp [Settled], fun _ => ?_⟩
  refine (Monitor.ensures_tryCatch _ _).mpr (ensures_payOut.mono ?_)
  rintro (e | _) s hPaid
  · exact ensures_payOutFailed hPaid
  · rcases hPaid with rfl | ⟨rfl, _⟩ | ⟨_, e, hError⟩
    · simp [Settled]
    · simp [Settled]
    · cases hError


/-- A rejection after an acceptance is the work of a bookkeeping update that threw; an execution
that ends keeps the two apart exactly when no such update did. -/
theorem accepted_transfer_rejected_iff {trace : List (Event Op)} {rest : AsyncFn Unit}
    (hRun : Runs (processWithdrawal reference) trace rest) :
    (¬ (trace.any accepts = true ∧ trace.any bookkeepingThrows = true) →
      (trace.any accepts = true → trace.any rejects = false)) ∧
    (rest.finished = true →
      ((trace.any accepts = true → trace.any rejects = false) ↔
        ¬ (trace.any accepts = true ∧ trace.any bookkeepingThrows = true))) := by
  have hKept := ensures_processWithdrawal.kept (by simp [Explained]) hRun
  have hEnd := (@ensures_processWithdrawal reference).runs hRun
  change Explained (watch.run _ trace) at hKept
  rw [run_watch] at hKept hEnd
  simp only [Bool.false_or] at hKept hEnd
  have hSafe : ¬ (trace.any accepts = true ∧ trace.any bookkeepingThrows = true) →
      trace.any accepts = true → trace.any rejects = false := by
    intro hQuiet hAccepts
    by_contra hRejects
    exact hQuiet ⟨hAccepts, hKept hAccepts (by simpa using hRejects)⟩
  refine ⟨hSafe, fun hFinished => ⟨?_, hSafe⟩⟩
  rintro hApart ⟨hAccepts, hThrows⟩
  have hSettled : Settled ⟨trace.any accepts, trace.any bookkeepingThrows, trace.any rejects⟩ := by
    cases rest with
    | pure _ => exact hEnd
    | throw _ => exact hEnd
    | await _ _ => cases hFinished
  have hRejects := (hSettled hAccepts).mpr hThrows
  rw [hApart hAccepts] at hRejects
  cases hRejects

end Executions

/-! A mobile-money withdrawal of 2000 FARM whose transfer is accepted. -/

namespace Sample

def withdrawal : Withdrawal :=
  ⟨0, 2000, 30, 1970, .mobileMoney, none, none, none, some "+254712345678", .pending, 0⟩

def transaction : WithdrawalTransaction where
  senderWalletId := 0
  status := .pending
  amount := toUnits 2000
  fee := toUnits 30
  netAmount := toUnits 1970
  metadata := ⟨some .paystack, none, none, none, none, 0, "", "", some ⟨some 1, some 1970⟩, none,
    none, false, none⟩
  createdAt := 0

def answers : {γ : Type} → Query γ → γ
  | _, .withdrawalFindUnique _ => some withdrawal
  | _, .withdrawalWithUser _ => some (withdrawal, ⟨some "Jane", some "Doe"⟩)
  | _, .transactionFindUnique _ => some transaction
  | _, .activeWallet _ => some (0, ⟨toUnits 2000, toUnits 2000, false⟩)
  | _, .transactionByPayoutId _ => none
  | _, .payoutCandidates => []

/-- `bookkeeping` is what the update of the metadata does. -/
def oracle (bookkeeping : Reply Unit) : {γ : Type} → Op γ → γ
  | _, .query query => .ok (answers query)
  | _, .service (.createTransferRecipient _) => .ok (some ⟨some "RCP_1"⟩)
  | _, .service _ => .error (.other "not asked")
  | _, .createWithdrawalTx _ => .ok 0
  | _, .claimProcessing _ => .ok 1
  | _, .claimPayoutTx _ _ => .ok true
  | _, .updateMetadata _ _ => bookkeeping
  | _, .markAsSuccessTx _ _ _ _ => .ok true
  | _, .rejectWithdrawalTx _ _ _ _ => .ok true
  | _, .initiateTransfer _ => .ok ⟨some "TRF_1", none, some "pending"⟩
  | _, .createPayout _ => .error (.other "not asked")
  | _, .rejectWithdrawal _ _ => ()

def execution (bookkeeping : Reply Unit) : List (Event Op) × AsyncFn Unit :=
  (processWithdrawal 0).follow (oracle bookkeeping)

end Sample

/-- The transfer is accepted and its bookkeeping written: nothing is rejected. -/
theorem accepted_transfer_not_rejected :
    (Sample.execution (.ok ())).1.any accepts = true ∧
      (Sample.execution (.ok ())).1.any rejects = false := by
  have hAccepts : (Sample.execution (.ok ())).1.any accepts = true := by decide +kernel
  refine ⟨hAccepts, (accepted_transfer_rejected_iff (runs_follow _ _)).1 ?_ hAccepts⟩
  decide +kernel

/-- The transfer is accepted, the update of the metadata throws, and the withdrawal is rejected. -/
theorem accepted_transfer_rejected :
    ∃ trace rest, Runs (processWithdrawal 0) trace rest ∧ rest.finished = true ∧
      trace.any accepts = true ∧ trace.any rejects = true := by
  refine ⟨_, _, runs_follow (Sample.oracle (.error (.other "connection lost"))) _,
    finished_follow _ _, ?_, ?_⟩
  · decide +kernel
  · decide +kernel

end FarmBackend.ProcessWithdrawal
