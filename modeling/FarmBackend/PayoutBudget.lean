import FarmBackend.Payouts

/-!
# Who pays has claimed

For one withdrawal, a call's budget is the number of its claims less the number of its payments.
No function pays out of an empty budget, whatever its awaits answer.
-/

namespace FarmBackend.PayoutBudget
open Wallets Withdrawals Awaiting WithdrawCalls PayoutCalls Payouts

set_option autoImplicit false

variable {α γ : Type}

/-- The provider's payout-creating call for the withdrawal. -/
def pays (reference : ℕ) (op : Op γ) : Bool :=
  match op with
  | .initiateTransfer payload => payload.reference == reference
  | .createPayout payload => payload.reference == reference
  | _ => false

/-- A claim of the withdrawal that succeeded. -/
def claims (reference : ℕ) (event : Event Op) : Bool :=
  match event with
  | ⟨.claimProcessing claimed, .ok count⟩ => claimed == reference && count == 1
  | ⟨.claimPayoutTx claimed _, .ok done⟩ => claimed == reference && done
  | _ => false

def spend (reference : ℕ) (n : ℕ) (op : Op γ) (answer : γ) : ℕ :=
  n + (claims reference ⟨op, answer⟩).toNat - (pays reference op).toNat

def budget (reference : ℕ) : Monitor Op ℕ where
  allows n op := pays reference op = true → 1 ≤ n
  after n op answer := spend reference n op answer

section Rules
variable {reference n : ℕ}

attribute [local simp] pays claims spend

@[simp] theorem budget_allows {op : Op γ} :
    (budget reference).allows n op ↔ (pays reference op = true → 1 ≤ n) := Iff.rfl

@[simp] theorem budget_after (op : Op γ) (answer : γ) :
    (budget reference).after n op answer = spend reference n op answer := rfl

@[simp] theorem spend_query (query : Query α) (answer : Reply α) :
    spend reference n (.query query) answer = n := by
  simp

@[simp] theorem spend_service (call : ServiceCall α) (answer : Reply α) :
    spend reference n (.service call) answer = n := by
  simp

@[simp] theorem spend_claimProcessing (claimed : ℕ) (count : ℕ) :
    spend reference n (.claimProcessing claimed) (.ok count) =
      n + if claimed = reference ∧ count = 1 then 1 else 0 := by
  by_cases hClaimed : claimed = reference <;> by_cases hCount : count = 1 <;>
    simp [hClaimed, hCount]

@[simp] theorem spend_claimPayoutTx (claimed : ℕ) (metadata : Metadata) (done : Bool) :
    spend reference n (.claimPayoutTx claimed metadata) (.ok done) =
      n + if claimed = reference ∧ done = true then 1 else 0 := by
  by_cases hClaimed : claimed = reference <;> cases done <;>
    simp [hClaimed]

theorem permits_find (query : Query α) : (budget reference).Permits (find query) :=
  permits_await fun _ => by simp

theorem permits_ask (call : ServiceCall α) : (budget reference).Permits (ask call) :=
  permits_await fun _ => by simp

theorem permits_updateMetadata (updated : ℕ) (metadata : Metadata) :
    (budget reference).Permits (await (.updateMetadata updated metadata)) :=
  permits_await fun _ => by simp

end Rules

open Monitor

section Functions
variable {reference : ℕ}

theorem permits_markAsSuccess (settled : ℕ) :
    (budget reference).Permits (markAsSuccess settled) := by
  refine (permits_find _).bind ?_
  rintro (_ | withdrawal)
  · exact permits_pure _
  dsimp only
  split
  · exact permits_pure _
  split
  · exact permits_pure _
  refine (permits_find _).bind fun transaction => (permits_find _).bind ?_
  rintro (_ | ⟨walletId, wallet⟩)
  · exact permits_pure _
  refine (permits_await fun _ => by simp [pays]).bind ?_
  intro finalized
  split
  · exact permits_pure _
  exact (permits_ask _).bind fun _ => (permits_ask _).bind fun _ => permits_pure _

theorem permits_rejectWithdrawal (settled : ℕ) (reason : String) :
    (budget reference).Permits (rejectWithdrawal settled reason) := by
  have hCall : (budget reference).Permits
      (Async.perform (.rejectWithdrawal settled reason) : AsyncFn Unit) :=
    fun n => ensures_perform.mpr ⟨by simp [pays], fun _ => trivial⟩
  refine hCall.bind fun _ => (permits_find _).bind ?_
  rintro (_ | withdrawal)
  · exact permits_pure _
  dsimp only
  split
  · exact permits_pure _
  split
  · exact permits_pure _
  refine (permits_find _).bind fun transaction => (permits_find _).bind ?_
  rintro (_ | ⟨walletId, wallet⟩)
  · exact permits_pure _
  refine (permits_await fun _ => by simp [pays]).bind ?_
  intro rejected
  split
  · exact permits_pure _
  exact (permits_ask _).bind fun _ => (permits_ask _).bind fun _ => permits_pure _

/-! Paystack: what comes before the transfer keeps the budget, what comes after needs none. -/

section Paystack
variable {withdrawal : Withdrawal} {user : UserNames} {n : ℕ}

theorem keeps_createRecipient :
    (budget reference).Ensures (fun _ m => m = n) n (createRecipient withdrawal user) := by
  unfold createRecipient
  cases withdrawal.method <;> simp [pays]

theorem keeps_payoutAmountOf (settlement : ℚ) (snapshot : Option ConversionSnapshot) :
    (budget reference).Ensures (fun _ m => m = n) n (payoutAmountOf settlement snapshot) := by
  unfold payoutAmountOf
  cases snapshotSettlementKes settlement snapshot with
  | none => simp [pays]
  | some settlementKes => by_cases hPos : 0 < settlementKes <;> simp [hPos, pays]

theorem ensures_payOut {paid : ℕ} (hBudget : paid = reference → 1 ≤ n) :
    (budget reference).Ensures (fun _ _ => True) n (payOut paid withdrawal user) := by
  refine (ensures_bind _ _).mpr (keeps_createRecipient.mono ?_)
  rintro (e | _ | recipient) m rfl
  · trivial
  · trivial
  refine (ensures_bind _ _).mpr (ensures_find.mpr ⟨by simp [pays], ?_, fun _ => trivial⟩)
  intro transaction
  refine (ensures_bind _ _).mpr ((keeps_payoutAmountOf _ _).mono ?_)
  rintro (e | _ | payoutAmount) m' rfl
  · trivial
  · trivial
  dsimp only
  split
  · trivial
  refine (ensures_bind _ _).mpr (ensures_initiateTransfer.mpr ⟨by simpa [pays] using hBudget, ?_⟩)
  rintro (e | transferData)
  · trivial
  cases transaction with
  | none => trivial
  | some transaction => exact permits_updateMetadata _ _ _

theorem permits_payOutFailed (paid : ℕ) (e : Thrown) :
    (budget reference).Permits (payOutFailed paid e) := by
  unfold payOutFailed
  split
  · refine (permits_find _).bind ?_
    rintro (_ | transaction)
    · exact permits_pure _
    · exact permits_updateMetadata _ _
  · exact (permits_rejectWithdrawal _ _).bind fun _ => permits_pure _

theorem permits_processWithdrawal (paid : ℕ) :
    (budget reference).Permits (processWithdrawal paid) := by
  refine (permits_find _).bind ?_
  rintro (_ | ⟨withdrawal, user⟩)
  · exact permits_pure _
  dsimp only
  split
  · exact permits_pure _
  intro n
  refine (ensures_bind _ _).mpr (ensures_await.mpr ⟨by simp [pays], ?_, fun _ => trivial⟩)
  intro count
  dsimp only
  split
  · trivial
  rename_i hCount
  refine (ensures_tryCatch _ _).mpr ((ensures_payOut ?_).mono ?_)
  · intro hPaid
    simp [hPaid, not_not.mp hCount]
  · rintro (e | _) m _
    · exact permits_payOutFailed paid e m
    · trivial

end Paystack

/-! NOWPayments. -/

section Nowpayments

theorem permits_verify (verified : ℕ) (code : String) :
    (budget reference).Permits (verifyNowpaymentsCryptoWithdrawal verified code) := by
  refine (permits_find _).bind fun transaction => ?_
  split
  · exact permits_throw _
  dsimp only
  split
  · exact permits_throw _
  exact (permits_ask _).bind fun _ => (permits_updateMetadata _ _).bind fun _ => permits_pure _

theorem permits_verifiedStatus (verified : ℕ) (payoutStatus : String) :
    (budget reference).Permits (verifiedStatus verified payoutStatus) := by
  unfold verifiedStatus
  split
  · refine (permits_ask _).bind fun code => ?_
    split
    · exact permits_pure _
    · exact ((permits_verify _ _).bind fun _ => permits_pure _).tryCatch fun _ => permits_pure _
  · exact permits_pure _

theorem permits_recordPayoutCreated (recorded : ℕ) (payout : PayoutResponse) (adminId : String) :
    (budget reference).Permits (recordPayoutCreated recorded payout adminId) := by
  unfold recordPayoutCreated
  dsimp only
  split
  · exact permits_throw _
  refine (permits_find _).bind ?_
  rintro (_ | current)
  · exact permits_throw _
  exact (permits_updateMetadata _ _).bind fun _ =>
    (permits_verifiedStatus _ _).bind fun _ => permits_pure _

theorem permits_lookUpPayout (sought : ℕ) (metadata : Metadata) (adminId : String) :
    (budget reference).Permits (lookUpPayout sought metadata adminId) := by
  refine (permits_ask _).bind ?_
  rintro (_ | found)
  · exact (permits_updateMetadata _ _).bind fun _ => permits_throw _
  · exact permits_recordPayoutCreated _ _ _

theorem permits_payoutUnknown (unknown : ℕ) (metadata : Metadata) :
    (budget reference).Permits (payoutUnknown unknown metadata) :=
  (permits_find _).bind fun _ => (permits_updateMetadata _ _).bind fun _ => permits_throw _

/-- The one submission spends what the claim has put in. -/
theorem permits_claimAndCreatePayout (paid : ℕ) (metadata : Metadata) (adminId : String) :
    (budget reference).Permits (claimAndCreatePayout paid metadata adminId) := by
  intro n
  refine (ensures_bind _ _).mpr (ensures_await.mpr ⟨by simp [pays], ?_, fun _ => trivial⟩)
  rintro (_ | _)
  · trivial
  refine (ensures_bind _ _).mpr ((ensures_tryCatch _ _).mpr (ensures_await.mpr ⟨?_, ?_, ?_⟩))
  · intro hPays
    have hPaid : paid = reference := by simpa [pays] using hPays
    simp [hPaid]
  · exact fun payout => permits_recordPayoutCreated _ _ _ _
  · intro e
    refine (permits_payoutUnknown _ _ _).mono ?_
    rintro (e | payout) m _
    · trivial
    · exact permits_recordPayoutCreated _ _ _ _

theorem permits_submit (submitted : ℕ) (adminId : String) :
    (budget reference).Permits (submitNowpaymentsPayout submitted adminId) := by
  refine (permits_find _).bind fun withdrawal => (permits_find _).bind fun transaction => ?_
  split
  · dsimp only
    split
    · exact permits_throw _
    split
    · exact permits_pure _
    split
    · exact permits_lookUpPayout _ _ _
    split
    · exact permits_throw _
    · exact permits_claimAndCreatePayout _ _ _
  · exact permits_throw _

theorem permits_webhook (payload : PayoutWebhook) :
    (budget reference).Permits (reconcileNowpaymentsPayoutWebhook payload) := by
  unfold reconcileNowpaymentsPayoutWebhook
  dsimp only
  split
  · exact permits_pure _
  refine (permits_find _).bind ?_
  rintro (_ | ⟨found, transaction⟩)
  · exact permits_pure _
  refine (permits_ask _).bind fun verified => (permits_updateMetadata _ _).bind fun _ => ?_
  split
  · exact permits_markAsSuccess _
  split
  · exact permits_rejectWithdrawal _ _
  · exact permits_pure _

theorem permits_reconcileCandidate (candidate : ℕ × Metadata) :
    (budget reference).Permits (reconcileCandidate candidate) := by
  obtain ⟨sought, metadata⟩ := candidate
  refine Permits.tryCatch ?_ fun _ => permits_pure _
  split
  · exact (permits_webhook _).bind fun _ => permits_pure _
  split
  · exact (permits_submit _ _).bind fun _ => permits_pure _
  refine (permits_ask _).bind ?_
  rintro (_ | found)
  · exact permits_pure _
  refine (permits_find _).bind ?_
  rintro (_ | transaction)
  · exact permits_pure _
  · exact (permits_recordPayoutCreated _ _ _).bind fun _ => permits_pure _

theorem permits_reconcile : (budget reference).Permits reconcileNowpaymentsPayouts :=
  ((permits_find _).bind fun candidates =>
    Permits.forEach permits_reconcileCandidate candidates).tryCatch fun _ => permits_pure _

end Nowpayments

/-! Creating a withdrawal and going on with its payout. -/

section Create

theorem permits_orThrow (checked : Except String Unit) :
    (budget reference).Permits (orThrow checked) := by
  rcases checked with message | ⟨⟨⟩⟩
  · exact permits_throw _
  · exact permits_pure _

theorem permits_walletFor (userId : UserId) (amount : ℚ) :
    (budget reference).Permits (walletFor userId amount) := by
  refine (permits_find _).bind ?_
  rintro (_ | ⟨walletId, wallet⟩)
  · exact permits_throw _
  dsimp only
  split
  · exact permits_throw _
  · exact permits_pure _

theorem permits_authorize (userId : UserId) (preAuthorized : Bool) :
    (budget reference).Permits (authorize userId preAuthorized) := by
  unfold authorize
  split
  · exact permits_pure _
  · exact permits_ask _

theorem permits_createWithdrawalTx (new : NewWithdrawal) :
    (budget reference).Permits (await (.createWithdrawalTx new)) :=
  permits_await fun _ => by simp [pays]

theorem permits_createPaystackWithdrawal (userId : UserId) (dto : CreateWithdrawDto)
    (preAuthorized : Bool) :
    (budget reference).Permits (createPaystackWithdrawal userId dto preAuthorized) := by
  refine (permits_authorize userId preAuthorized).bind fun _ => ?_
  refine (permits_orThrow _).bind fun _ => (permits_walletFor _ _).bind fun walletId => ?_
  refine (permits_orThrow _).bind fun _ => (permits_ask _).bind fun rule => ?_
  refine (permits_ask _).bind fun rate => ?_
  dsimp only
  split
  · exact permits_throw _
  · exact (permits_createWithdrawalTx _).bind fun created => permits_processWithdrawal created

theorem permits_estimatePayout (settlementUsd : ℚ) (currency : String) :
    (budget reference).Permits (estimatePayout settlementUsd currency) := by
  refine (permits_ask _).bind fun payoutAmount => (permits_ask _).bind fun minimumPayout => ?_
  split
  · exact permits_throw _
  · exact (permits_ask _).bind fun _ => permits_pure _

theorem permits_createNowpayments (userId : UserId) (dto : CreateWithdrawDto)
    (preAuthorized : Bool) :
    (budget reference).Permits (createNowpaymentsCryptoWithdrawal userId dto preAuthorized) := by
  refine (permits_authorize userId preAuthorized).bind fun _ => ?_
  dsimp only
  split
  · exact permits_throw _
  split
  · exact permits_throw _
  refine (permits_ask _).bind fun supportedCurrencies => ?_
  split
  · exact permits_throw _
  refine (permits_walletFor _ _).bind fun walletId => (permits_ask _).bind fun rule => ?_
  refine (permits_ask _).bind fun rate => ?_
  split
  · exact permits_throw _
  refine (permits_estimatePayout _ _).bind fun payoutAmount => (permits_ask _).bind ?_
  intro addressValid
  split
  · exact permits_throw _
  refine (permits_createWithdrawalTx _).bind fun created => (permits_ask _).bind fun _ => ?_
  exact ((permits_submit _ _).bind fun _ => permits_pure _).tryCatch fun _ => permits_pure _

theorem permits_createWithdrawal (userId : UserId) (dto : CreateWithdrawDto)
    (preAuthorized : Bool) :
    (budget reference).Permits (createWithdrawal userId dto preAuthorized) := by
  unfold createWithdrawal
  split
  · exact permits_createNowpayments _ _ _
  · exact permits_createPaystackWithdrawal _ _ _

end Create

/-- Whatever is asked for, no call pays a withdrawal out that it has not claimed. -/
theorem permits_entry (request : Request) : (budget reference).Permits (entry request) := by
  cases request with
  | createWithdrawal userId dto preAuthorized => exact permits_createWithdrawal _ _ _
  | processWithdrawal paid => exact permits_processWithdrawal _
  | approve approved adminId => exact (permits_submit _ _).bind fun _ => permits_pure _
  | verify verified code => exact (permits_verify _ _).bind fun _ => permits_pure _
  | webhook payload => exact (permits_webhook _).bind fun _ => permits_pure _
  | reconcile => exact permits_reconcile

end Functions

end FarmBackend.PayoutBudget
