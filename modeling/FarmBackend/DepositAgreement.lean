import FarmBackend.DepositOutcomes
import Mathlib.Data.List.ReduceOption

/-!
# The two finalisers side by side

On the same rows the two finalisers settle the same way, except where the amount of the deposit is
not the one that is credited, and except for guest payments.
-/

namespace FarmBackend.Deposits
open Decimal Fees Wallets Interleaving

set_option autoImplicit false

/-! ### Amounts -/

/-- The first positive amount of the metadata. -/
def metadataAmount (t : DepositTransaction) : Option ℚ :=
  ([t.metadata.amountFiat, t.metadata.amountFarm].reduceOption.map normalizeAmount).find?
    fun x => decide (0 < x)

section Amounts
variable {t : DepositTransaction}

@[simp] theorem normalizeAmount_idem (x : ℚ) :
    normalizeAmount (normalizeAmount x) = normalizeAmount x := by
  have hWhole : mathRound (normalizeAmount x * 100) = mathRound (x * 100) := by
    rw [normalizeAmount, div_mul_cancel₀ _ (by norm_num)]
    rw [mathRound, Int.floor_intCast_add]
    norm_num
  rw [normalizeAmount, hWhole, normalizeAmount]

@[simp] theorem normalizeAmount_zero : normalizeAmount 0 = 0 := by
  norm_num [normalizeAmount, mathRound]

theorem metadataAmount_pos {x : ℚ} (h : metadataAmount t = some x) : 0 < x := by
  simpa using List.find?_some h

theorem normalizeAmount_metadataAmount {x : ℚ} (h : metadataAmount t = some x) :
    normalizeAmount x = x := by
  obtain ⟨y, -, rfl⟩ := List.mem_map.mp (List.mem_of_find?_eq_some h)
  exact normalizeAmount_idem y

theorem find?_singleton_option (amount : Option ℚ) :
    (([amount].reduceOption.map normalizeAmount).find? fun x => decide (0 < x)) =
      (amount.map normalizeAmount).filter fun x => decide (0 < x) := by
  cases amount with
  | none => rfl
  | some x => by_cases hPos : 0 < normalizeAmount x <;> simp [Option.filter, hPos]

/-- The deposit's amount first, then the metadata, then the transaction. -/
theorem resolveDepositCreditAmount_eq (deposit : Option Deposit) :
    resolveDepositCreditAmount t deposit =
      ((((deposit.map Deposit.amount).map normalizeAmount).filter fun x => decide (0 < x)).or
        ((metadataAmount t).or
          ((some (normalizeAmount (toNumber t.amount))).filter fun x => decide (0 < x)))).getD 0 := by
  have hList : [deposit.map Deposit.amount, t.metadata.amountFiat, t.metadata.amountFarm,
      some (toNumber t.amount)] = [deposit.map Deposit.amount] ++
        ([t.metadata.amountFiat, t.metadata.amountFarm] ++ [some (toNumber t.amount)]) := rfl
  unfold resolveDepositCreditAmount
  dsimp only
  rw [hList, List.reduceOption_append, List.reduceOption_append, List.map_append, List.map_append,
    List.find?_append, List.find?_append, find?_singleton_option, find?_singleton_option]
  rfl

/-- The transaction's amount is not negative, and the metadata has no other positive amount. -/
def TransactionAmountAgrees (t : DepositTransaction) : Prop :=
  0 ≤ normalizeAmount (toNumber t.amount) ∧
    ∀ x, metadataAmount t = some x → x = normalizeAmount (toNumber t.amount)

/-- The deposit's amount is positive, or no amount is and it is zero. -/
def DepositAmountAgrees (d : Deposit) (t : DepositTransaction) : Prop :=
  0 < normalizeAmount d.amount ∨ (normalizeAmount d.amount = 0 ∧ metadataAmount t = none ∧
    normalizeAmount (toNumber t.amount) ≤ 0)

theorem transactionCreditAmount_eq_iff :
    transactionCreditAmount .webhook t = transactionCreditAmount .deposit t ↔
      TransactionAmountAgrees t := by
  unfold transactionCreditAmount TransactionAmountAgrees
  rw [resolveDepositCreditAmount_eq]
  cases hMetadata : metadataAmount t with
  | some x =>
    have hPos := metadataAmount_pos hMetadata
    have hSame := normalizeAmount_metadataAmount hMetadata
    constructor
    · intro h
      have hSum : x = normalizeAmount (toNumber t.amount) := by simpa [hSame] using h
      refine ⟨hSum ▸ hPos.le, ?_⟩
      intro y hY
      rw [← Option.some.inj hY, hSum]
    · intro h
      simpa [hSame] using h.2 x rfl
  | none =>
    by_cases hPos : 0 < normalizeAmount (toNumber t.amount)
    · simpa [Option.filter, hPos] using hPos.le
    · simp only [Option.filter, hPos]
      simp
      exact ⟨fun h => h.le, fun h => le_antisymm h (not_lt.mp hPos)⟩

theorem creditAmount_eq_iff {d : Deposit} :
    creditAmount .webhook d t = creditAmount .deposit d t ↔ DepositAmountAgrees d t := by
  unfold creditAmount DepositAmountAgrees
  rw [resolveDepositCreditAmount_eq]
  by_cases hPos : 0 < normalizeAmount d.amount
  · simp [Option.filter, hPos]
  · cases hMetadata : metadataAmount t with
    | some x =>
      have hMore := metadataAmount_pos hMetadata
      have hSame := normalizeAmount_metadataAmount hMetadata
      have hNe : x ≠ normalizeAmount d.amount := by
        rintro rfl
        exact hPos hMore
      simp [Option.filter, hPos, hSame, hNe]
    | none =>
      by_cases hAmount : 0 < normalizeAmount (toNumber t.amount)
      · have hNe : normalizeAmount (toNumber t.amount) ≠ normalizeAmount d.amount := by
          intro hSame
          exact hPos (hSame ▸ hAmount)
        simp [Option.filter, hPos, hAmount, hNe, not_le.mpr hAmount]
      · simp [Option.filter, hPos, hAmount, not_lt.mp hAmount, eq_comm]

end Amounts

/-! ### The rows on which they agree -/

/-- Apart from guest payments: the rows on which a finaliser settles. -/
def settles (deposit : Option Deposit) (t : DepositTransaction) (s : Store) : Bool :=
  match deposit with
  | none => t.txPending && payable (s.transactionWallet t)
  | some d =>
    match d.status with
    | .pending =>
      (t.txPending || t.status == .pending) && payable (some (s.findOrCreateWallet d.userId))
    | .success => t.txPending || t.txComplete
    | .processing | .failed => t.txPending && payable (s.transactionWallet t)

/-- The amount they credit then is the same. -/
def AmountAgrees (deposit : Option Deposit) (t : DepositTransaction) : Prop :=
  match deposit with
  | none => TransactionAmountAgrees t
  | some d =>
    match d.status with
    | .pending => DepositAmountAgrees d t
    | .success => True
    | .processing | .failed => TransactionAmountAgrees t

/-- A guest payment goes to different wallets, so neither may settle it; what both have settled
before, both acknowledge. -/
def RowsAgree (deposit : Option Deposit) (t : DepositTransaction) (s : Store) : Prop :=
  if t.metadata.qrGuestPayment then
    (settles deposit t s = false ∧ acknowledged deposit t = false ∧
        payableToMerchant deposit t s = false) ∨
      ((deposit.any fun d => d.status == .success) = true ∧ t.txComplete = true)
  else settles deposit t s = true → AmountAgrees deposit t

section Regular
variable {service : Service} {o : Outcome} {s : Store} {t : DepositTransaction}
  {deposit : Option Deposit}

theorem settledAlone_isSome :
    (settledAlone service deposit t s).isSome = (t.txPending && payable (s.transactionWallet t)) := by
  unfold settledAlone
  by_cases hOpen : t.txPending = true
  · simp [hOpen, payment_isSome]
  · simp [hOpen]

theorem settledRegularly_isSome :
    (settledRegularly service deposit t s).isSome = settles deposit t s := by
  unfold settledRegularly settles
  cases deposit with
  | none => exact settledAlone_isSome
  | some d =>
    cases hD : d.status with
    | pending =>
      by_cases hOpen : t.txPending = true ∨ t.status = .pending
      · have hMay : (t.txPending || t.status == .pending) = true := by simpa using hOpen
        simp [hD, hOpen, hMay, payment_isSome]
      · have hMay : (t.txPending || t.status == .pending) = false := by simpa using hOpen
        simp [hD, hOpen, hMay]
    | success =>
      by_cases hOpen : t.txPending = true ∨ t.txComplete = true
      · have hMay : (t.txPending || t.txComplete) = true := by simpa using hOpen
        simp [hD, hOpen, hMay]
      · have hMay : (t.txPending || t.txComplete) = false := by simpa using hOpen
        simp [hD, hOpen, hMay]
    | processing => simpa only [hD] using settledAlone_isSome
    | failed => simpa only [hD] using settledAlone_isSome

theorem settledAlone_eq_iff :
    settledAlone .webhook deposit t s = settledAlone .deposit deposit t s ↔
      ((t.txPending && payable (s.transactionWallet t)) = true → TransactionAmountAgrees t) := by
  unfold settledAlone
  rw [← transactionCreditAmount_eq_iff]
  by_cases hOpen : t.txPending = true
  · simp only [hOpen, if_true, Bool.true_and]
    exact payment_eq_iff
  · simp [hOpen]

theorem settledRegularly_eq_iff :
    settledRegularly .webhook deposit t s = settledRegularly .deposit deposit t s ↔
      (settles deposit t s = true → AmountAgrees deposit t) := by
  unfold settledRegularly settles AmountAgrees
  cases deposit with
  | none => exact settledAlone_eq_iff
  | some d =>
    cases hD : d.status with
    | pending =>
      simp only [hD, ← creditAmount_eq_iff]
      by_cases hOpen : t.txPending = true ∨ t.status = .pending
      · have hMay : (t.txPending || t.status == .pending) = true := by simpa using hOpen
        simp only [if_pos hOpen, hMay, Bool.true_and]
        exact payment_eq_iff
      · have hMay : (t.txPending || t.status == .pending) = false := by simpa using hOpen
        simp [hOpen, hMay]
    | success => simp [hD]
    | processing => simpa only [hD] using settledAlone_eq_iff
    | failed => simpa only [hD] using settledAlone_eq_iff

theorem settledRegularly_ledger {d : Deposit} {settlement : Settlement}
    (hPending : d.status = .pending)
    (h : settledRegularly service (some d) t s = some settlement) :
    ∃ entry, settlement.bank.ledger = s.bank.ledger ++ [entry] := by
  simp only [settledRegularly, hPending, Option.ite_none_right_eq_some] at h
  have hSame : (s.findOrCreateWallet d.userId).1.bank.ledger = s.bank.ledger := by
    unfold Store.findOrCreateWallet
    split <;> rfl
  exact ⟨_, hSame ▸ payment_ledger h.2⟩

/-- A completed transaction is settled again only where its deposit is settled too. -/
theorem settledRegularly_of_completed (hStatus : t.status = .completed) :
    settledRegularly service deposit t s =
      if (deposit.any fun d => d.status == .success) = true ∧ t.txComplete = true then
        some ⟨s.bank, deposit.map Deposit.status, some .completed⟩
      else none := by
  have hOpen : t.txPending = false := by
    simp [DepositTransaction.txPending, DepositTransaction.isOpen, hStatus]
  unfold settledRegularly settledAlone
  cases deposit with
  | none => simp [hOpen]
  | some d => cases hD : d.status <;> simp [hD, hOpen, hStatus]

/-- The comparison for a guest payment, from what the deposit's finaliser does with it. -/
theorem guestPayment_eq_iff {merchant : Option Settlement}
    (hAck : acknowledged deposit t = true →
      merchant = some ⟨s.bank, deposit.map Deposit.status, some .completed⟩)
    (hMerchant : acknowledged deposit t = false →
      merchant.isSome = payableToMerchant deposit t s ∧
        ∀ settlement, merchant = some settlement →
          ∃ first second, settlement.bank.ledger = s.bank.ledger ++ [first, second]) :
    settledRegularly service deposit t s = merchant ↔
      ((settles deposit t s = false ∧ acknowledged deposit t = false ∧
          payableToMerchant deposit t s = false) ∨
        ((deposit.any fun d => d.status == .success) = true ∧ t.txComplete = true)) := by
  cases hBefore : acknowledged deposit t with
  | true =>
    rw [hAck hBefore, settledRegularly_of_completed (acknowledged_iff.mp hBefore).1]
    simp
  | false =>
    obtain ⟨hSome, hLedger⟩ := hMerchant hBefore
    have hNot : ¬((deposit.any fun d => d.status == .success) = true ∧ t.txComplete = true) := by
      rintro ⟨hSuccess, hComplete⟩
      have hStatus : t.status = .completed := by
        simpa [DepositTransaction.txComplete] using (Bool.and_eq_true_iff.mp hComplete).2
      rw [acknowledged_iff.mpr ⟨hStatus, .inr hSuccess⟩] at hBefore
      cases hBefore
    have hRegular : (settledRegularly service deposit t s).isSome = settles deposit t s :=
      settledRegularly_isSome
    rw [← hRegular, ← hSome]
    constructor
    · intro hSame
      left
      cases hSettlement : merchant with
      | none => simp [hSame, hSettlement]
      | some settlement =>
        -- The merchant's settlement has two entries, the other one: they are never the same.
        exfalso
        rw [hSettlement] at hSome hSame
        have hPayable : payableToMerchant deposit t s = true := hSome.symm
        simp only [payableToMerchant, Bool.and_eq_true, Option.any_eq_true, beq_iff_eq] at hPayable
        obtain ⟨-, d, rfl, hPending, -⟩ := hPayable
        obtain ⟨first, second, hTwo⟩ := hLedger settlement hSettlement
        obtain ⟨entry, hOne⟩ := settledRegularly_ledger hPending hSame
        rw [hTwo, List.append_cancel_left_eq] at hOne
        cases hOne
    · intro hNeither
      rcases hNeither with ⟨hFirst, -, hSecond⟩ | hBoth
      · rw [Option.isSome_eq_false_iff, Option.isNone_iff_eq_none] at hFirst hSecond
        rw [hFirst, hSecond]
      · exact absurd hBoth hNot

end Regular

/-! ### Run to the end -/

namespace Store

/-- The deposit both finalisers go on with: a missing one is rebuilt, by each under its own
provider, which nothing here reads. -/
def standing (now : Time) (t : DepositTransaction) (s : Store) : Option Deposit :=
  s.deposit <|> t.metadata.userId.map fun userId => rebuilt .webhook s.nextDepositId userId t now

/-- The store in which the finaliser decides. -/
def withDeposit (service : Service) (now : Time) (t : DepositTransaction) (s : Store) : Store :=
  match s.deposit, t.metadata.userId with
  | none, some userId =>
    { s with
      deposit := some (rebuilt service s.nextDepositId userId t now)
      nextDepositId := s.nextDepositId + 1 }
  | _, _ => s

end Store

section Runs
variable {service : Service} {o : Outcome} {s : Store} {t : DepositTransaction}

variable (service) in
theorem advance_routeOrRebuild (n : ℕ) :
    ∃ m, program.advance o (n + 4) s (routeOrRebuild service s.deposit t) =
      program.advance o (m + 3) (s.withDeposit service o.now t)
        (route service (s.withDeposit service o.now t).deposit t) := by
  unfold routeOrRebuild Store.withDeposit
  cases hD : s.deposit with
  | some d =>
    refine ⟨n + 1, ?_⟩
    simp only [hD]
  | none =>
    cases hUser : t.metadata.userId with
    | none =>
      refine ⟨n + 1, ?_⟩
      simp only [hD]
    | some userId =>
      refine ⟨n, advance_of_step ?_⟩
      simp only [step, hD]

variable (service) in
theorem transaction_withDeposit (now : Time) :
    (s.withDeposit service now t).transaction = s.transaction := by
  unfold Store.withDeposit
  split <;> rfl

variable (service) in
/-- A finaliser whose provider confirms the payment comes to decide. -/
theorem advance_finalize (hT : s.transaction = some t)
    (hVerified : service = .deposit → o.verified = true) :
    ∃ m, program.advance o 7 s (.finalize service) =
      program.advance o (m + 3) (s.withDeposit service o.now t)
        (route service (s.withDeposit service o.now t).deposit t) := by
  have hStart : program.advance o 7 s (.finalize service) =
      program.advance o 6 s (.readTransaction service s.deposit) := advance_of_step rfl
  cases service with
  | webhook =>
    have hRead : step o s (.readTransaction .webhook s.deposit) =
        some (s, routeOrRebuild .webhook s.deposit t) := by
      simp only [step, hT]
      rfl
    rw [hStart, advance_of_step hRead]
    exact advance_routeOrRebuild .webhook 1
  | deposit =>
    have hRead : step o s (.readTransaction .deposit s.deposit) =
        some (s, .verify s.deposit t) := by
      simp only [step, hT]
      rfl
    have hVerify : step o s (.verify s.deposit t) =
        some (s, routeOrRebuild .deposit s.deposit t) := by
      simp [step, hVerified rfl]
    rw [hStart, advance_of_step hRead, advance_of_step hVerify]
    exact advance_routeOrRebuild .deposit 0

/-- The rebuilt row changes nothing for the wallet that is looked for. -/
theorem payment_withDeposit {row : Option Deposit} {nextDepositId : ℕ} (userId : UserId)
    (amount : ℚ) (deposit : Option DepositStatus) :
    payment (some (({ s with deposit := row, nextDepositId := nextDepositId } :
        Store).findOrCreateWallet userId)) amount deposit =
      payment (some (s.findOrCreateWallet userId)) amount deposit := by
  unfold Store.findOrCreateWallet
  cases s.activeWallet userId <;> rfl

/-- Which service rebuilds the deposit, and when, does not matter for what follows. -/
theorem settledRegularly_withDeposit (rebuilder : Service) (now now' : Time) :
    settledRegularly service (s.withDeposit rebuilder now t).deposit t
        (s.withDeposit rebuilder now t) =
      settledRegularly service (s.standing now' t) t s := by
  unfold Store.withDeposit Store.standing
  cases hD : s.deposit with
  | some d => simp only [hD]; rfl
  | none =>
    cases hUser : t.metadata.userId with
    | none => simp only [hD]; rfl
    | some userId =>
      have hAmount : creditAmount service (rebuilt rebuilder s.nextDepositId userId t now) t =
          creditAmount service (rebuilt .webhook s.nextDepositId userId t now') t := by
        cases service <;> rfl
      change (if t.txPending = true ∨ t.status = .pending then
          payment (some (Store.findOrCreateWallet userId _)) (creditAmount service _ t) _ else none) =
        if t.txPending = true ∨ t.status = .pending then _ else none
      rw [payment_withDeposit, hAmount]
      rfl

variable (s t service) in
theorem guestPayment_withDeposit (now now' : Time) :
    (s.withDeposit service now t).bank = s.bank ∧
      (s.withDeposit service now t).deposit.map Deposit.status =
        (s.standing now' t).map Deposit.status ∧
      acknowledged (s.withDeposit service now t).deposit t = acknowledged (s.standing now' t) t ∧
      payableToMerchant (s.withDeposit service now t).deposit t (s.withDeposit service now t) =
        payableToMerchant (s.standing now' t) t s := by
  unfold Store.withDeposit Store.standing
  cases hD : s.deposit with
  | some d => simp [hD]
  | none =>
    cases hUser : t.metadata.userId with
    | none => simp [hD]
    | some userId => exact ⟨rfl, rfl, rfl, rfl⟩

theorem finalized_regular (hT : s.transaction = some t)
    (hVerified : service = .deposit → o.verified = true)
    (hRegular : service = .webhook ∨ t.metadata.qrGuestPayment = false) (now : Time) :
    finalized service o s = settledRegularly service (s.standing now t) t s := by
  obtain ⟨m, hRun⟩ := advance_finalize service hT hVerified
  have hRow : (s.withDeposit service o.now t).transaction = some t :=
    (transaction_withDeposit service o.now).trans hT
  rw [finalized, hRun, settled_route rfl hRow hRegular, settledRegularly_withDeposit]

theorem finalized_of_missing (hT : s.transaction = none) : finalized service o s = none := by
  have hRead : step o s (.readTransaction service s.deposit) = none := by
    simp only [step, hT]
    rfl
  have hStart : program.advance o 7 s (.finalize service) =
      program.advance o 6 s (.readTransaction service s.deposit) := advance_of_step rfl
  rw [finalized, hStart]
  exact settled_of_throw hRead (by simp)

end Runs

/-- A guest payment of ten to merchant 1, whose owner holds wallet 1; the platform holds wallet 2. -/
def guestPaymentOfTen : Store :=
  { depositOfTen (some 1) (some pendingRow) with
    transaction := some ⟨.deposit, .pending, Wallets.toUnits 10, 0, Wallets.toUnits 10, some 1,
      { metadataOf (some 1) with qrGuestPayment := true, merchantId := some 1 }, some 0⟩
    bank :=
      { wallets := fun id => if id = 1 ∨ id = 2 then some ⟨0, 0, false⟩ else none
        platform := some 2
        transactions := []
        ledger := [] }
    merchantUser := fun id => if id = 1 then some 1 else none }

end FarmBackend.Deposits
