import FarmBackend.IvorypayCredits

/-!
# Credits that IvoryPay has confirmed

A deposit is credited on its verification, except on two exits: where nothing was verified, and where
the amounts could not be compared.
-/

namespace FarmBackend.IvorypayCredits
open Decimal Fees Wallets
open IvorypayPayloads IvorypayVerification

set_option autoImplicit false

/-! ### When the finaliser credits -/

section Finaliser
variable {o : Deposits.Outcome} {s : Deposits.Store} {t : Deposits.DepositTransaction}
  {deposit : Option Deposits.Deposit} {settlement : Deposits.Settlement}

/-- The finaliser settles, and it does not merely complete the transaction of a settled deposit. -/
def creditable (deposit : Option Deposits.Deposit) (t : Deposits.DepositTransaction)
    (s : Deposits.Store) : Bool :=
  Deposits.settles deposit t s && !deposit.any fun d => d.status == .success

theorem transactionWallet_ledger {found : Deposits.Store × WalletId}
    (h : s.transactionWallet t = some found) : found.1.bank.ledger = s.bank.ledger := by
  unfold Deposits.Store.transactionWallet at h
  split at h
  · cases h
    rfl
  · obtain ⟨userId, -, rfl⟩ := Option.map_eq_some_iff.mp h
    unfold Deposits.Store.findOrCreateWallet
    split <;> rfl

theorem settledAlone_ledger
    (h : Deposits.settledAlone .webhook deposit t s = some settlement) :
    settlement.bank.ledger ≠ s.bank.ledger := by
  unfold Deposits.settledAlone at h
  split at h
  · cases hWallet : s.transactionWallet t with
    | none =>
      rw [hWallet] at h
      cases h
    | some found =>
      rw [hWallet] at h
      rw [Deposits.payment_ledger h, transactionWallet_ledger hWallet]
      simp
  · cases h

/-- Only a settled deposit is completed without an entry in the ledger. -/
theorem ledger_eq_iff (h : Deposits.settledRegularly .webhook deposit t s = some settlement) :
    settlement.bank.ledger = s.bank.ledger ↔
      (deposit.any fun d => d.status == .success) = true := by
  cases deposit with
  | none => simp [settledAlone_ledger h]
  | some d =>
    cases hStatus : d.status with
    | pending =>
      obtain ⟨entry, hEntry⟩ := Deposits.settledRegularly_ledger hStatus h
      simp [hEntry, hStatus]
    | success =>
      simp only [Deposits.settledRegularly, hStatus, Option.ite_none_right_eq_some] at h
      simp [← Option.some.inj h.2, hStatus]
    | processing | failed =>
      have hAlone : Deposits.settledAlone .webhook (some d) t s = some settlement := by
        simpa only [Deposits.settledRegularly, hStatus] using h
      simp [settledAlone_ledger hAlone, hStatus]

theorem settledRegularly_credits_iff :
    (∃ settlement, Deposits.settledRegularly .webhook deposit t s = some settlement ∧
      settlement.bank.ledger ≠ s.bank.ledger) ↔ creditable deposit t s = true := by
  have hSettles : (Deposits.settledRegularly .webhook deposit t s).isSome =
      Deposits.settles deposit t s := Deposits.settledRegularly_isSome
  rw [creditable, Bool.and_eq_true_iff, Bool.not_eq_true', ← hSettles, Option.isSome_iff_exists]
  constructor
  · rintro ⟨settlement, hSome, hLedger⟩
    exact ⟨⟨settlement, hSome⟩, Bool.eq_false_iff.mpr fun h => hLedger ((ledger_eq_iff hSome).mpr h)⟩
  · rintro ⟨⟨settlement, hSome⟩, hNot⟩
    refine ⟨settlement, hSome, fun hLedger => ?_⟩
    rw [(ledger_eq_iff hSome).mp hLedger] at hNot
    cases hNot

theorem finalized_credits_iff :
    (∃ settlement, Deposits.finalized .webhook o s = some settlement ∧
      settlement.bank.ledger ≠ s.bank.ledger) ↔
      ∃ t, s.transaction = some t ∧ creditable (s.standing o.now t) t s = true := by
  cases hRow : s.transaction with
  | none => simp [Deposits.finalized_of_missing hRow]
  | some t =>
    have hAsked : Deposits.Service.webhook = .deposit → o.verified = true := nofun
    have hFinal : Deposits.finalized .webhook o s =
        Deposits.settledRegularly .webhook (s.standing o.now t) t s :=
      Deposits.finalized_regular hRow hAsked (.inl rfl) o.now
    rw [hFinal, settledRegularly_credits_iff]
    simp

end Finaliser

/-! ### The claim and its condition -/

section Claim
variable (o : Deposits.Outcome) (payload : Json) (rows : Rows) (api : Api) (locked : Bool)

/-- What `verifyTransaction` answers to the handler. -/
def verifiedBy : Option Verified :=
  verifyTransaction api rows.resolved.reference (resolverProviderRef payload rows.resolved)
    (buildIvorypayReferenceCandidates payload (refs rows.resolved))

/-- In this call IvoryPay has confirmed a payment of the amount that was to be paid. -/
def Confirmed : Prop :=
  ∃ v t, verifiedBy payload rows api = some v ∧ rows.transaction = some t ∧ succeeded v = true ∧
    AmountMatches t.expected v.data

/-- A wallet is credited only on a confirmation. -/
def CreditsConfirmed : Prop :=
  Credits o rows (handleIvorypayWebhookProcessing payload rows.resolved api locked) →
    Confirmed payload rows api

/-- What a success event meets on a deposit that can still be credited: a confirmed success with
amounts that can be compared, or a check that stops it; and on a QR sale that the record settles,
amounts that can be compared. -/
def MeetsVerification : Prop :=
  (rawReference payload).isSome = true → locked = true → isIvorypaySuccessEvent payload = true →
    ∀ t, rows.transaction = some t →
      match rows with
      | .deposit _ s _ _ _ =>
        (∀ row, s.transaction = some row → creditable (s.standing o.now row) row s = true →
          match verify payload rows.resolved api with
          | none => t.transactionType ≠ .deposit
          | some v => rows.resolved.deposit = false ∨ amountMismatch payload t = true ∨
            isWithdrawal payload rows.resolved = true ∨ Conclusive t.expected v.data)
      | .qrSale reference sale till _ _ _ _ => t.ofIvorypay = true →
        ∀ v s, verify payload rows.resolved api = some v →
          completed o.merchantRule reference sale till v = some (s, true) →
            Conclusive t.expected v.data

end Claim

section Proof
variable {o : Deposits.Outcome} {payload : Json} {rows : Rows} {api : Api} {locked : Bool}

theorem verify_eq_some {v : Verified} :
    verify payload rows.resolved api = some v ↔
      verifiedBy payload rows api = some v ∧ succeeded v = true :=
  Option.filter_eq_some_iff

/-- A record that is accepted on a conclusive comparison confirms the payment. -/
theorem confirmed_of_conclusive {v : Verified} {t : Transaction}
    (hVerify : verify payload rows.resolved api = some v) (hRow : rows.transaction = some t)
    (hConclusive : Conclusive t.expected v.data)
    (hAccepted : isIvorypayVerifiedAmountAcceptable t.expected v.data = true) :
    Confirmed payload rows api := by
  obtain ⟨hBy, hSucceeded⟩ := verify_eq_some.mp hVerify
  exact ⟨v, t, hBy, hRow, hSucceeded, conclusive_iff.mp hConclusive hAccepted⟩

theorem conclusive_of_confirmed {v : Verified} {t : Transaction}
    (hVerify : verify payload rows.resolved api = some v) (hRow : rows.transaction = some t)
    (h : isIvorypayVerifiedAmountAcceptable t.expected v.data = true → Confirmed payload rows api) :
    Conclusive t.expected v.data := by
  refine conclusive_iff.mpr fun hAccepted => ?_
  obtain ⟨v', t', hBy, hRow', -, hAmount⟩ := h hAccepted
  rw [(verify_eq_some.mp hVerify).1, Option.some.injEq] at hBy
  rw [hRow, Option.some.injEq] at hRow'
  rw [hBy, hRow']
  exact hAmount

/-- Without a verification nothing is confirmed. -/
theorem not_confirmed (hVerify : verify payload rows.resolved api = none) :
    ¬ Confirmed payload rows api := by
  rintro ⟨v, t, hBy, -, hSucceeded, -⟩
  rw [verify_eq_some.mpr ⟨hBy, hSucceeded⟩] at hVerify
  cases hVerify

/-- What leads to the finaliser. -/
def Finalizes (payload : Json) (r : Resolved) (t : Transaction) : Option Verified → Prop
  | none => t.transactionType = .deposit
  | some v => r.deposit = true ∧ isIvorypayVerifiedAmountAcceptable t.expected v.data = true ∧
    amountMismatch payload t = false ∧ isWithdrawal payload r = false

theorem handleRegular_iff {r : Resolved} {t : Transaction} {verified : Option Verified}
    (hRow : r.transaction = some t) : handleRegular payload r verified = .finalizeDeposit ↔
      isIvorypaySuccessEvent payload = true ∧ Finalizes payload r t verified := by
  unfold handleRegular
  split
  · rename_i hSuccess
    cases verified with
    | none =>
      simp only [handleUnverified, hRow, Finalizes, hSuccess, true_and]
      split <;> simp_all
    | some v =>
      simp only [handleVerified, hRow, Finalizes, hSuccess, true_and]
      repeat' split
      all_goals simp_all
  · rename_i hNot
    refine iff_of_false ?_ fun h => hNot h.1
    repeat' split
    all_goals exact nofun

theorem handleQrSale_iff {t : Transaction} {verified : Option Verified} {v : Verified} :
    handleQrSale payload t verified = .completeQr v ↔
      t.ofIvorypay = true ∧ isIvorypaySuccessEvent payload = true ∧ verified = some v ∧
        isIvorypayVerifiedAmountAcceptable t.expected v.data = true := by
  constructor
  · intro h
    unfold handleQrSale at h
    split at h
    · cases h
    · rename_i hProvider
      rw [Bool.not_eq_false] at hProvider
      split at h
      · rename_i hSuccess
        cases verified with
        | none => cases h
        | some w =>
          dsimp only at h
          split at h <;> cases h
          rename_i hAccepted
          exact ⟨hProvider, hSuccess, rfl, hAccepted⟩
      · split at h <;> cases h
  · rintro ⟨hProvider, hSuccess, rfl, hAccepted⟩
    simp [handleQrSale, hProvider, hSuccess, hAccepted]

theorem handle_iff {r : Resolved} {e : Exit} (hExit : e ≠ .nothing) :
    handleIvorypayWebhookProcessing payload r api locked = e ↔
      (rawReference payload).isSome = true ∧ locked = true ∧
        handleResolved payload r (verify payload r api) = e := by
  unfold handleIvorypayWebhookProcessing
  split
  · rename_i hStop
    refine iff_of_false (fun h => hExit h.symm) ?_
    rintro ⟨hReference, hLocked, -⟩
    rcases hStop with hNone | hTaken
    · rw [Option.isNone_iff_eq_none.mp hNone] at hReference
      cases hReference
    · rw [hLocked] at hTaken
      cases hTaken
  · rename_i hGo
    rw [not_or, Bool.not_eq_true, Option.isNone_eq_false_iff, Bool.not_eq_false] at hGo
    simp only [hGo, true_and]

/-! The exits of the two kinds of rows. -/

section Deposit
variable {reference : String} {s : Deposits.Store} {amountUsd : Option ℚ} {refs : Refs}
  {otherDeposit : Bool}

theorem credits_deposit_iff {e : Exit} :
    Credits o (.deposit reference s amountUsd refs otherDeposit) e ↔
      e = .finalizeDeposit ∧
        ∃ row, s.transaction = some row ∧ creditable (s.standing o.now row) row s = true := by
  cases e with
  | finalizeDeposit => simp [Credits, ← finalized_credits_iff]
  | _ => simp [Credits]

theorem handleResolved_deposit {verified : Option Verified} :
    handleResolved payload (Rows.deposit reference s amountUsd refs otherDeposit).resolved verified =
      handleRegular payload (Rows.deposit reference s amountUsd refs otherDeposit).resolved
        verified := by
  have hNone : (Rows.deposit reference s amountUsd refs otherDeposit).resolved.transaction.filter
      Transaction.isQrSale = none := by
    refine Option.filter_eq_none_iff.mpr fun t hRow => ?_
    obtain ⟨row, -, rfl⟩ := Option.map_eq_some_iff.mp hRow
    exact Bool.false_ne_true
  rw [handleResolved, hNone]

theorem finalizes_iff {t : Transaction}
    (hRow : (Rows.deposit reference s amountUsd refs otherDeposit).transaction = some t) :
    handleIvorypayWebhookProcessing payload
        (Rows.deposit reference s amountUsd refs otherDeposit).resolved api locked =
          .finalizeDeposit ↔
      (rawReference payload).isSome = true ∧ locked = true ∧
        isIvorypaySuccessEvent payload = true ∧
          Finalizes payload (Rows.deposit reference s amountUsd refs otherDeposit).resolved t
            (verify payload (Rows.deposit reference s amountUsd refs otherDeposit).resolved api) := by
  have hExit : Exit.finalizeDeposit ≠ .nothing := nofun
  rw [handle_iff hExit, handleResolved_deposit, handleRegular_iff hRow]

end Deposit

section QrSale
variable {reference : String} {sale : QrPayments.Sale} {till : QrPayments.Till}
  {amountFarm : Option ℚ} {refs : Refs} {hasDeposit : Bool}
  {hSale : sale.transaction.metadata.isQrSale = true}

theorem credits_qrSale_iff {e : Exit} :
    Credits o (.qrSale reference sale till amountFarm refs hasDeposit hSale) e ↔
      ∃ v s, e = .completeQr v ∧ completed o.merchantRule reference sale till v = some (s, true) := by
  cases e with
  | completeQr v => simp [Credits]
  | _ => simp [Credits]

theorem completesQr_iff {t : Transaction} {v : Verified}
    (hRow : (Rows.qrSale reference sale till amountFarm refs hasDeposit hSale).transaction = some t) :
    handleIvorypayWebhookProcessing payload
        (Rows.qrSale reference sale till amountFarm refs hasDeposit hSale).resolved api locked =
          .completeQr v ↔
      (rawReference payload).isSome = true ∧ locked = true ∧ t.ofIvorypay = true ∧
        isIvorypaySuccessEvent payload = true ∧
          verify payload (Rows.qrSale reference sale till amountFarm refs hasDeposit hSale).resolved
            api = some v ∧ isIvorypayVerifiedAmountAcceptable t.expected v.data = true := by
  have hFilter : (Rows.qrSale reference sale till amountFarm refs hasDeposit
      hSale).resolved.transaction.filter Transaction.isQrSale = some t := by
    cases hRow
    rfl
  have hExit : Exit.completeQr v ≠ .nothing := nofun
  rw [handle_iff hExit, handleResolved, hFilter, handleQrSale_iff]

end QrSale

end Proof

/-! A pending deposit of ten FARM, for which eight cents were to be paid. -/

def cryptoDeposit : Deposits.Store :=
  { Deposits.depositOfTen (some 1) (some { Deposits.pendingRow with provider := some .ivorypay }) with
    transaction := some ⟨.deposit, .pending, toUnits 10, 0, toUnits 10, some 1,
      { Deposits.metadataOf (some 1) with provider := some .ivorypay, amountFarm := some 10 },
      some 0⟩ }

def cryptoRows : Rows :=
  .deposit "DEP-1" cryptoDeposit (some (8 / 100)) { Refs.empty with providerRef := some "IVP-1" }
    false

def text (s : String) : Json := .scalar s none

def successOf (reference : String) : Json :=
  .object (.cons "event" (text "transaction.success")
    (.cons "data" (.object (.cons "reference" (text reference) .nil)) .nil))

def answeringAll (response : Response) : Api := ⟨fun _ => none, some fun _ _ => response⟩

/-- A success whose amount is not told. -/
def unpriced : Json := .object (.cons "status" (text "success") .nil)

theorem credits_cryptoRows {api : Api}
    (hLeads : ∀ t, cryptoRows.transaction = some t →
      Finalizes (successOf "DEP-1") cryptoRows.resolved t
        (verify (successOf "DEP-1") cryptoRows.resolved api)) :
    Credits Deposits.quiet cryptoRows
      (handleIvorypayWebhookProcessing (successOf "DEP-1") cryptoRows.resolved api true) := by
  refine credits_deposit_iff.mpr ⟨(finalizes_iff rfl).mpr ⟨?_, rfl, ?_, hLeads _ rfl⟩, _, rfl, ?_⟩
  all_goals decide +kernel

end FarmBackend.IvorypayCredits
