import FarmBackend.IvorypayConfirmation
import FarmBackend.IvorypayDeposits
import Mathlib.Data.List.ReduceOption

/-!
# Payments that justify their own credits

What is stored on a row comes from webhooks that were resolved to it and from the records that were
verified for it. While these name no other transaction's payment, nothing that is looked up for a row
finds one.
-/

namespace FarmBackend.IvorypayDeposits
open Interleaving Wallets
open IvorypayPayloads IvorypayVerification IvorypayCredits
open WithdrawCalls (trim trim_trim)

set_option autoImplicit false

/-! ### Trimmed identifiers -/

theorem mem_distinct {values : List (Option String)} {x : String} :
    x ∈ distinct values ↔ x ≠ "" ∧ ∃ y, some y ∈ values ∧ trim y = x := by
  simp [distinct, List.reduceOption_mem_iff, and_comm]

section Own
variable {provider : Provider} {x reference : String}

theorem own_trim : own provider (trim x) reference = own provider x reference := by
  simp only [own, ownerOf, extractLookupIdentifier, trim_trim]

theorem owner_of_own {p : ProviderTransaction} (h : own provider x reference = true)
    (hOwner : ownerOf provider x = some p) : p.createdFor = reference := by
  rw [own, hOwner] at h
  exact beq_iff_eq.mp h

theorem own_of_distinct {values : List (Option String)} (h : x ∈ distinct values)
    (hOwn : ∀ y, some y ∈ values → own provider y reference = true) :
    own provider x reference = true := by
  obtain ⟨-, y, hMem, rfl⟩ := mem_distinct.mp h
  exact own_trim.trans (hOwn y hMem)

/-- An optional identifier is own. -/
def OwnField (provider : Provider) (reference : String) (field : Option String) : Prop :=
  ∀ y, field = some y → own provider y reference = true

theorem OwnField.orElse {field other : Option String} (h : OwnField provider reference field)
    (hOther : OwnField provider reference other) :
    OwnField provider reference (field <|> other) := by
  cases field with
  | none => exact hOther
  | some x => exact h

end Own

/-! ### What is taken from a payload -/

section Payload
variable {provider : Provider} {payload : Json} {reference : String}

def NamesOwn (provider : Provider) (payload : Json) (reference : String) : Prop :=
  ∀ x ∈ names payload, own provider x reference = true

theorem NamesOwn.field (h : NamesOwn provider payload reference) {field : Option String}
    (hMem : field ∈ extractProviderIdentifiers payload ++
      [dataText payload "checkout_id", dataText payload "checkoutId",
        dataText payload "payment_reference", dataText payload "reference",
        (payload.get "reference").text, dataText payload "merchant_reference",
        dataText payload "merchantReference"]) : OwnField provider reference field := by
  rintro y rfl
  exact h y (List.mem_append_right _ (List.reduceOption_mem_iff.mpr hMem))

theorem NamesOwn.identifier (h : NamesOwn provider payload reference) {name : String}
    (hName : name ∈ identifierNames) :
    OwnField provider reference (IvorypayPayloads.identifier payload name) :=
  h.field (List.mem_append_left _ (List.mem_map_of_mem hName))

theorem NamesOwn.incomingProviderRef (h : NamesOwn provider payload reference) :
    OwnField provider reference (IvorypayCredits.incomingProviderRef payload) := by
  intro y hSome
  obtain ⟨name, hName, hFound⟩ := List.exists_of_findSome?_eq_some hSome
  have hNames : ∀ name ∈ ["transaction_id", "payment_id", "provider_reference",
      "transaction_reference", "reference", "id", "tx_ref", "trxref"], name ∈ identifierNames := by
    decide
  exact h.identifier (hNames name hName) y hFound

theorem NamesOwn.incomingProviderReference (h : NamesOwn provider payload reference) :
    OwnField provider reference (IvorypayDeposits.incomingProviderReference payload) :=
  (h.identifier (by decide)).orElse ((h.identifier (by decide)).orElse (h.identifier (by decide)))

/-- A candidate is taken from the payload or from the metadata. -/
theorem own_of_candidate (h : NamesOwn provider payload reference) {refs : Refs} {x : String}
    (hRefs : ∀ y, some y ∈ refs.candidates → own provider y reference = true)
    (hMem : x ∈ buildIvorypayReferenceCandidates payload refs) :
    own provider x reference = true := by
  obtain ⟨hBlank, y, hY, rfl⟩ := mem_distinct.mp hMem
  have hNamed {values : List (Option String)} (hValue : some y ∈ values)
      (hPart : values ⊆ _) : own provider (trim y) reference = true :=
    h _ (List.mem_append_left _ (mem_distinct.mpr ⟨hBlank, y, hPart hValue, rfl⟩))
  rcases List.mem_append.mp hY with hTold | hUrl
  · rcases List.mem_append.mp hTold with hPayload | hMetadata
    · exact hNamed hPayload fun _ h => List.mem_append_left _ (List.mem_append_left _ h)
    · exact own_trim.trans (hRefs y hMetadata)
  · exact hNamed hUrl fun _ h => List.mem_append_right _ h

end Payload

/-! ### What is written on a row -/

def OwnRefs (provider : Provider) (reference : String) (refs : Refs) : Prop :=
  ∀ field ∈ refValues refs, OwnField provider reference field

section Refs
variable {provider : Provider} {payload : Json} {reference : String} {refs : Refs}

/-- The metadata that are looked up are searched too. -/
theorem OwnRefs.candidates (h : OwnRefs provider reference refs) {y : String}
    (hMem : some y ∈ refs.candidates) : own provider y reference = true := by
  have hAll : ∀ field ∈ refs.candidates, OwnField provider reference field := by
    simp only [OwnRefs, refValues, List.forall_mem_cons] at h
    simp only [Refs.candidates, List.forall_mem_cons]
    obtain ⟨hRef, hTransactionId, hReference, -, -, -, -, -, -, -, hIvorypay, hWithdrawal, hTransfer,
      hPayout, hNil⟩ := h
    exact ⟨hRef, hTransactionId, hReference, hIvorypay, hIvorypay.orElse hWithdrawal, hWithdrawal,
      hTransfer, hPayout, hNil⟩
  exact hAll _ hMem y rfl

/-- What is looked up after the reference. -/
theorem OwnRefs.resolverProviderRef (h : OwnRefs provider reference refs)
    (hNames : NamesOwn provider payload reference) :
    OwnField provider reference (refs.providerRef <|> refs.providerTransactionId <|>
      refs.providerReference <|> incomingProviderRef payload) := by
  have hIncoming := hNames.incomingProviderRef
  simp only [OwnRefs, refValues, List.forall_mem_cons] at h
  obtain ⟨hRef, hTransactionId, hReference, -⟩ := h
  exact hRef.orElse (hTransactionId.orElse (hReference.orElse hIncoming))

theorem OwnRefs.incomingRefs (h : OwnRefs provider reference refs)
    (hNames : NamesOwn provider payload reference) :
    OwnRefs provider reference (IvorypayDeposits.incomingRefs payload refs) := by
  have hIncoming := hNames.incomingProviderRef
  have hCheckout : OwnField provider reference (identifier payload "checkout_id") :=
    hNames.identifier (by decide)
  have hPayment : OwnField provider reference (identifier payload "payment_reference") :=
    hNames.identifier (by decide)
  have hMerchant : OwnField provider reference (identifier payload "merchant_reference") :=
    hNames.identifier (by decide)
  simp only [OwnRefs, refValues, List.forall_mem_cons] at h
  simp only [OwnRefs, refValues, IvorypayDeposits.incomingRefs, List.forall_mem_cons]
  obtain ⟨hRef, hTransactionId, hReference, hPaymentId, hCheckoutId, hPaymentReference,
    hMerchantReference, hRest⟩ := h
  exact ⟨hIncoming.orElse hRef, hIncoming.orElse hTransactionId,
    hNames.incomingProviderReference.orElse hReference, hPayment.orElse hPaymentId,
    hCheckout.orElse hCheckoutId, hPaymentReference, hMerchant.orElse hMerchantReference, hRest⟩

/-- The candidate and what the record says of itself. -/
structure RecordOwn (provider : Provider) (reference : String) (v : Verified) : Prop where
  candidate : own provider v.candidate reference = true
  identifier : ∀ field ∈ extractProviderIdentifiers v.data, OwnField provider reference field

theorem RecordOwn.field {v : Verified} (h : RecordOwn provider reference v) {name : String}
    (hName : name ∈ identifierNames) :
    OwnField provider reference (IvorypayPayloads.identifier v.data name) :=
  h.identifier _ (List.mem_map_of_mem hName)

theorem OwnRefs.recordRefs (h : OwnRefs provider reference refs) {v : Verified}
    (hNames : NamesOwn provider payload reference) (hRecord : RecordOwn provider reference v) :
    OwnRefs provider reference (IvorypayDeposits.recordRefs payload v refs) := by
  have hCandidate : OwnField provider reference (some v.candidate) := by
    rintro y ⟨⟩
    exact hRecord.candidate
  have hProviderReference : OwnField provider reference (identifier v.data "provider_reference") :=
    hRecord.field (by decide)
  have hCheckout : OwnField provider reference (recordCheckoutId payload v) := by
    refine (hRecord.field ?_).orElse ((hNames.field ?_).orElse (hNames.field ?_))
    all_goals simp [identifierNames]
  have hPayment : OwnField provider reference (recordPaymentReference payload v) := by
    refine (hRecord.field ?_).orElse ((hRecord.field ?_).orElse
      ((hNames.field ?_).orElse ((hNames.field ?_).orElse (hNames.field ?_))))
    all_goals simp [identifierNames]
  have hMerchant : OwnField provider reference (recordMerchantReference payload v) := by
    refine (hRecord.field ?_).orElse ((hNames.field ?_).orElse (hNames.field ?_))
    all_goals simp [identifierNames]
  have hPaymentId : OwnField provider reference (identifier v.data "payment_id") :=
    hRecord.field (by decide)
  have hTxRef : OwnField provider reference (identifier v.data "tx_ref") :=
    hRecord.field (by decide)
  have hTrxref : OwnField provider reference (identifier v.data "trxref") :=
    hRecord.field (by decide)
  have hTransaction : OwnField provider reference (identifier v.data "transaction_reference") :=
    hRecord.field (by decide)
  simp only [OwnRefs, refValues, List.forall_mem_cons] at h
  simp only [OwnRefs, refValues, IvorypayDeposits.recordRefs, List.forall_mem_cons]
  obtain ⟨-, -, -, hPaymentIdRow, hCheckoutRow, hPaymentRow, hMerchantRow, hTxRefRow, hTrxrefRow,
    hTransactionRow, hRest⟩ := h
  exact ⟨hCandidate, hCandidate, hProviderReference.orElse hCandidate,
    hPaymentId.orElse hPaymentIdRow, hCheckout.orElse hCheckoutRow, hPayment.orElse hPaymentRow,
    hMerchant.orElse hMerchantRow, hTxRef.orElse hTxRefRow, hTrxref.orElse hTrxrefRow,
    hTransaction.orElse hTransactionRow, hRest⟩

end Refs

/-! ### What is verified -/

structure RowOwn (provider : Provider) (t : TransactionRow) : Prop where
  reference : own provider t.reference t.reference = true
  refs : OwnRefs provider t.reference t.refs

section Verification
variable {provider : Provider} {payload : Json} {o : Outcome} {v : Verified}

/-- What has an answer is known to the provider. -/
theorem owner_of_lookup {get : String → Endpoint → Response} {candidate x : String}
    {response : Response} (hLookup : (x, response) ∈ lookups (apiOf provider o)
      (respond provider get) candidate) (hFound : response.isFound = true) :
    x = candidate ∧ (ownerOf provider candidate).isSome = true := by
  unfold lookups at hLookup
  split at hLookup
  · cases hLookup
  · rename_i id hId
    have hOwner : ownerOf provider candidate = provider.owner id := by
      rw [ownerOf]
      exact congrArg (Option.bind · provider.owner) hId
    have hAnswer : x = candidate ∧ ∃ endpoint, response = respond provider get id endpoint := by
      rcases List.mem_cons.mp hLookup with hBusiness | hTransactions
      · cases hBusiness
        exact ⟨rfl, .business, rfl⟩
      · cases List.mem_singleton.mp hTransactions
        exact ⟨rfl, .transactions, rfl⟩
    obtain ⟨hCandidate, endpoint, rfl⟩ := hAnswer
    refine ⟨hCandidate, ?_⟩
    rw [hOwner]
    unfold respond at hFound
    split at hFound
    · assumption
    · cases hFound

theorem verifyTransaction_known {reference : String} {providerReference : Option String}
    {fallbackReferences : List String} (h : verifyTransaction (apiOf provider o) reference
      providerReference fallbackReferences = some v) :
    v.candidate ∈ verifyCandidates reference providerReference fallbackReferences ∧
      (ownerOf provider v.candidate).isSome = true := by
  unfold verifyTransaction at h
  split at h
  · cases h
  · rename_i get hGet
    obtain ⟨get, -, rfl⟩ := Option.map_eq_some_iff.mp hGet
    split at h
    · rename_i candidate data hFind
      cases h
      obtain ⟨x, hMem, hLookup⟩ := List.mem_flatMap.mp (List.mem_of_find?_eq_some hFind)
      obtain ⟨rfl, hKnown⟩ := owner_of_lookup hLookup rfl
      exact ⟨hMem, hKnown⟩
    · cases h

/-- Where the row and the payload name no other payment, the record is the row's own. -/
theorem own_of_verify {found : Found} {t : TransactionRow} (hRow : found.transaction = some t)
    (hSame : found.reference = t.reference) (hOwn : RowOwn provider t)
    (hNames : NamesOwn provider payload t.reference)
    (h : IvorypayCredits.verify payload found.resolved (apiOf provider o) = some v) :
    own provider v.candidate t.reference = true ∧
      (ownerOf provider v.candidate).isSome = true := by
  have hRead : refs found.resolved = t.refs := by
    simp [refs, Found.resolved, hRow, TransactionRow.view]
  obtain ⟨hMem, hKnown⟩ := verifyTransaction_known (Option.filter_eq_some_iff.mp h).1
  refine ⟨own_of_distinct hMem fun y hY => ?_, hKnown⟩
  rcases List.mem_cons.mp hY with hSelf | hY
  · rw [Option.some.inj hSelf, Found.resolved, hSame]
    exact hOwn.reference
  · rcases List.mem_cons.mp hY with hProvider | hCandidate
    · rw [resolverProviderRef, hRead] at hProvider
      exact hOwn.refs.resolverProviderRef hNames y hProvider.symm
    · obtain ⟨x, hCandidate, hSome⟩ := List.mem_map.mp hCandidate
      cases hSome
      rw [hRead] at hCandidate
      exact own_of_candidate hNames (fun y hField => hOwn.refs.candidates hField) hCandidate

end Verification

/-! ### What is found -/

section Resolution
variable {s : Store} {payload : Json} {candidate reference : String} {found : Found}
  {t : TransactionRow}

theorem resolveCandidate_row (h : resolveCandidate s candidate = some found)
    (hRow : found.transaction = some t) : t ∈ s.transactions ∧ found.reference = t.reference := by
  unfold resolveCandidate at h
  split at h
  · rename_i row hFind
    cases h
    cases hRow
    exact ⟨List.mem_of_find?_eq_some hFind, rfl⟩
  · obtain ⟨d, -, rfl⟩ := Option.map_eq_some_iff.mp h
    have hReference := List.find?_some hRow
    exact ⟨List.mem_of_find?_eq_some hRow, (beq_iff_eq.mp hReference).symm⟩

theorem resolve_row
    (hRow : (resolveIvorypayDepositAndTransaction s payload reference).transaction = some t) :
    t ∈ s.transactions ∧
      (resolveIvorypayDepositAndTransaction s payload reference).reference = t.reference := by
  unfold resolveIvorypayDepositAndTransaction at hRow ⊢
  cases hFind : (resolveCandidates payload reference).findSome? (resolveCandidate s) with
  | none =>
    rw [hFind] at hRow
    cases hRow
  | some found =>
    rw [hFind] at hRow
    obtain ⟨candidate, -, hFound⟩ := List.exists_of_findSome?_eq_some hFind
    exact resolveCandidate_row hFound hRow

end Resolution

/-! ### What the store keeps, and what a call knows -/

structure Kept (provider : Provider) (s : Store) : Prop where
  rows : ∀ t ∈ s.transactions, RowOwn provider t
  credits : ∀ credit ∈ s.credits, ∀ p, credit.2 = some p → p.createdFor = credit.1

/-- The webhook has been resolved to a row, and neither names another payment. -/
def Taken (provider : Provider) (payload : Json) (found : Found) : Prop :=
  ∀ t, found.transaction = some t →
    found.reference = t.reference ∧ RowOwn provider t ∧ NamesOwn provider payload t.reference

def isCredit : Exit → Bool
  | .finalizeDeposit | .completeQr _ => true
  | .nothing | .markFailedQr | .failDeposit | .finalizeWithdrawal _ => false

def Knows (provider : Provider) : Call → Prop
  | .persist payload found | .verify payload found => Taken provider payload found
  | .record payload found verified => Taken provider payload found ∧
    ∀ v, verified = some v → ∀ t, found.transaction = some t →
      own provider v.candidate t.reference = true ∧ (ownerOf provider v.candidate).isSome = true
  | .finish reference exit verified => isCredit exit = true →
    ∀ p, verified = some p → p.createdFor = reference
  | .resolve _ | .done => True

section Kept
variable {provider : Provider} {o : Outcome} {s : Store} {payload : Json} {found : Found}
  {reference : String} {verified : Option ProviderTransaction}

theorem Kept.updateTransaction (h : Kept provider s) {f : TransactionRow → TransactionRow}
    (hRow : ∀ t ∈ s.transactions, t.reference = reference → RowOwn provider (f t)) :
    Kept provider (s.updateTransaction reference f) := by
  refine ⟨fun row hMem => ?_, h.credits⟩
  obtain ⟨t, hT, rfl⟩ := List.mem_map.mp hMem
  split
  · rename_i hReference
    exact hRow t hT hReference
  · exact h.rows t hT

theorem Kept.updateDeposit (h : Kept provider s) (f : DepositRow → DepositRow) :
    Kept provider (s.updateDeposit reference f) := ⟨h.rows, h.credits⟩

theorem Kept.write (h : Kept provider s) {refs : Refs → Refs} (columns : Columns → Columns)
    (hRefs : ∀ t, found.transaction = some t → OwnRefs provider t.reference (refs t.refs)) :
    Kept provider (s.write found refs columns) := by
  unfold Store.write
  cases hRow : found.transaction with
  | none =>
    cases found.deposit with
    | none => exact h
    | some d => exact h.updateDeposit _
  | some t =>
    have hMetadata : Kept provider
        (s.updateTransaction t.reference fun row => { row with refs := refs t.refs }) := by
      refine h.updateTransaction fun row hMem hReference => ⟨(h.rows row hMem).reference, ?_⟩
      rw [hReference]
      exact hRefs t hRow
    cases found.deposit with
    | none => exact hMetadata
    | some d => exact hMetadata.updateDeposit _

theorem Kept.setRow (h : Kept provider s)
    (f : TransactionRow → Deposits.DepositTransaction) :
    Kept provider (s.updateTransaction reference fun t => { t with row := f t }) :=
  h.updateTransaction fun t hMem _ => ⟨(h.rows t hMem).reference, (h.rows t hMem).refs⟩

/-- The credit that an end adds is of the payment that it has verified. -/
theorem Kept.credit (h : Kept provider s)
    (hOwn : ∀ p, verified = some p → p.createdFor = reference) (deposits : List DepositRow) :
    Kept provider
      { s with deposits := deposits, credits := (reference, verified) :: s.credits } := by
  refine ⟨h.rows, fun credit hMem => ?_⟩
  rcases List.mem_cons.mp hMem with rfl | hOld
  · exact hOwn
  · exact h.credits credit hOld

theorem Kept.finalizeDeposit (h : Kept provider s)
    (hOwn : ∀ p, verified = some p → p.createdFor = reference) :
    Kept provider (IvorypayDeposits.finalizeDeposit o s reference verified) := by
  unfold IvorypayDeposits.finalizeDeposit
  split
  · exact h
  · dsimp only
    split
    · exact (h.setRow _).credit hOwn _
    · exact h

theorem Kept.completeQr (h : Kept provider s)
    (hOwn : ∀ p, verified = some p → p.createdFor = reference) :
    Kept provider (IvorypayDeposits.completeQr o s reference verified) := by
  unfold IvorypayDeposits.completeQr
  split
  · exact h
  · split
    · exact (h.setRow _).credit hOwn _
    · exact h

theorem Kept.failDeposit (h : Kept provider s) :
    Kept provider (IvorypayDeposits.failDeposit s reference) := by
  refine Kept.updateDeposit ?_ _
  refine h.updateTransaction fun t hMem _ => ?_
  split
  · exact ⟨(h.rows t hMem).reference, (h.rows t hMem).refs⟩
  · exact h.rows t hMem

theorem Kept.finish (h : Kept provider s) {exit : Exit}
    (hOwn : isCredit exit = true → ∀ p, verified = some p → p.createdFor = reference) :
    Kept provider (IvorypayDeposits.finish o s reference verified exit) := by
  cases exit with
  | finalizeDeposit => exact h.finalizeDeposit (hOwn rfl)
  | completeQr v => exact h.completeQr (hOwn rfl)
  | failDeposit | markFailedQr => exact h.failDeposit
  | nothing | finalizeWithdrawal success => exact h

end Kept

/-! ### Steps -/

section Steps
variable {provider : Provider} {o : Outcome} {s s' : Store} {call call' : Call} {payload : Json}
  {found : Found} {v : Verified}

/-- A record without a row to write it to is credited to nobody. -/
theorem isCredit_of_missing {r : Resolved} (hNone : r.transaction = none) :
    isCredit (handleResolved payload r (some v)) = false := by
  rw [handleResolved, hNone]
  change isCredit (handleRegular payload r (some v)) = false
  unfold handleRegular
  split
  · simp only [handleVerified, hNone, isCredit]
  · split
    · split <;> rfl
    · rfl

theorem taken_of_heeds {reference : String} (hKept : Kept provider s)
    (hReference : rawReference payload = some reference)
    (hHeeds : Heeds provider o s (.resolve payload)) :
    Taken provider payload (resolveIvorypayDepositAndTransaction s payload reference) := by
  intro t hRow
  obtain ⟨hMem, hSame⟩ := resolve_row hRow
  refine ⟨hSame, hKept.rows t hMem, fun x hName => ?_⟩
  have hOwn := hHeeds x hName
  rwa [hReference, Option.bind_some, hRow, Option.all_some] at hOwn

/-- The provider's own record names the row that its transaction was created for. -/
theorem recordOwn_of_honest {verified : Option Verified} {t : TransactionRow}
    (hCandidate : own provider v.candidate t.reference = true)
    (hKnown : (ownerOf provider v.candidate).isSome = true) (hSome : verified = some v)
    (hHonest : Honest provider o s (.record payload found verified)) :
    RecordOwn provider t.reference v := by
  obtain ⟨p, hOwner⟩ := Option.isSome_iff_exists.mp hKnown
  refine ⟨hCandidate, fun field hField y hValue => ?_⟩
  subst hSome hValue
  have hOwn := hHonest y (List.reduceOption_mem_iff.mpr hField)
  rw [hOwner, Option.all_some] at hOwn
  rwa [owner_of_own hCandidate hOwner] at hOwn

theorem Kept.recordVerified {verified : Option Verified} (hKept : Kept provider s)
    (hKnows : Knows provider (.record payload found verified))
    (hHonest : Honest provider o s (.record payload found verified)) :
    Kept provider (IvorypayDeposits.recordVerified s payload found verified) := by
  obtain ⟨hTaken, hVerified⟩ := hKnows
  unfold IvorypayDeposits.recordVerified
  split
  · rename_i v t _ hRow _
    split
    · refine hKept.write _ fun row hFound => ?_
      obtain ⟨-, hOwn, hNames⟩ := hTaken row hFound
      obtain ⟨hCandidate, hKnown⟩ := hVerified v rfl row hFound
      exact hOwn.refs.recordRefs hNames (recordOwn_of_honest hCandidate hKnown rfl hHonest)
    · exact hKept
  · exact hKept

theorem knows_finish {verified : Option Verified}
    (hKnows : Knows provider (.record payload found verified)) :
    Knows provider (.finish found.reference (handleResolved payload found.resolved verified)
      (verified.bind fun v => ownerOf provider v.candidate)) := by
  obtain ⟨hTaken, hVerified⟩ := hKnows
  intro hCredit p hOwner
  obtain ⟨v, rfl, hLookup⟩ := Option.bind_eq_some_iff.mp hOwner
  cases hRow : found.transaction with
  | none =>
    have hMissing : found.resolved.transaction = none := by
      rw [Found.resolved, hRow]
      rfl
    rw [isCredit_of_missing hMissing] at hCredit
    cases hCredit
  | some t =>
    rw [(hTaken t hRow).1]
    exact owner_of_own (hVerified v rfl t hRow).1 hLookup

theorem kept_of_step (hKept : Kept provider s) (hKnows : Knows provider call)
    (hHonest : Honest provider o s call) (hHeeds : Heeds provider o s call)
    (h : step provider o s call = some (s', call')) : Kept provider s' ∧ Knows provider call' := by
  cases call with
  | resolve payload =>
    simp only [step] at h
    split at h
    · cases h
      exact ⟨hKept, trivial⟩
    · rename_i reference hReference
      cases h
      refine ⟨hKept, ?_⟩
      split
      · exact taken_of_heeds hKept hReference hHeeds
      · trivial
  | persist payload found =>
    cases h
    refine ⟨hKept.write _ fun t hRow => ?_, hKnows⟩
    obtain ⟨-, hOwn, hNames⟩ := hKnows t hRow
    exact hOwn.refs.incomingRefs hNames
  | verify payload found =>
    cases h
    refine ⟨hKept, hKnows, fun v hVerify t hRow => ?_⟩
    obtain ⟨hSame, hOwn, hNames⟩ := hKnows t hRow
    exact own_of_verify hRow hSame hOwn hNames hVerify
  | record payload found verified =>
    cases h
    exact ⟨hKept.recordVerified hKnows hHonest, knows_finish hKnows⟩
  | finish reference exit verified =>
    cases h
    exact ⟨hKept.finish hKnows, trivial⟩
  | done => cases h

end Steps

/-! ### Runs -/

section Runs
variable {provider : Provider} {s : Store} {c : Config Store Call}

theorem Opened.kept (h : Opened provider s) : Kept provider s := by
  refine ⟨fun t hMem => ⟨h.reference t hMem, ?_⟩, ?_⟩
  · rintro field hField y rfl
    exact h.refs t hMem y hField
  · rw [h.credits]
    exact nofun

/-- Two credits of one payment are of the deposit that it was made for. -/
theorem Kept.consistent (h : Kept provider s) : Consistent s := by
  refine ⟨h.credits, fun credit hMem other hOther p hCredit hSame => ?_⟩
  calc credit.1 = p.createdFor := (h.credits credit hMem p hCredit).symm
    _ = other.1 := h.credits other hOther p hSame

end Runs

/-! Two deposits of ten FARM. IvoryPay gave no identifier when it was asked for the second payment, so
its row has its own reference; the first one has been paid. -/

def transactionOf (reference providerRef : String) : TransactionRow where
  reference := reference
  row := ⟨.deposit, .pending, toUnits 10, 0, toUnits 10, some 1,
    { Deposits.metadataOf (some 1) with provider := some .ivorypay, amountFarm := some 10 }, some 0⟩
  amountUsd := some (8 / 100)
  isQrSale := false
  refs := { Refs.empty with providerRef := some providerRef }

def depositOf (reference providerRef : String) : DepositRow where
  reference := reference
  row := { Deposits.pendingRow with provider := some .ivorypay }
  columns := ⟨some providerRef, none, none, none, none, none⟩

def twoDeposits : Store where
  deposits := [depositOf "DEP-A" "IVP-A", depositOf "DEP-B" "DEP-B"]
  transactions := [transactionOf "DEP-A" "IVP-A", transactionOf "DEP-B" "DEP-B"]
  credits := []

def paidForA : ProviderTransaction := ⟨"IVP-A", "DEP-A"⟩

def ivorypay : Provider where
  parseUrl _ := none
  owner id :=
    if id = "IVP-A" then some paidForA
    else if id = "IVP-B" then some ⟨"IVP-B", "DEP-B"⟩ else none

def recordOf (status : String) : Json :=
  .object (.cons "status" (text status)
    (.cons "amount_usd" (.scalar "0.08" (some (8 / 100))) .nil))

def answering : Outcome where
  locked := true
  get := some fun id _ => .answered (recordOf (if id = "IVP-A" then "success" else "pending"))
  commits := true

def successFor (reference id : String) : Json :=
  .object (.cons "event" (text "transaction.success")
    (.cons "data" (.object (.cons "reference" (text reference) (.cons "id" (text id) .nil))) .nil))

def deliver (index : ℕ) (payload : Json) : List (Move Json Outcome) :=
  .enter payload :: List.replicate 5 (.run index answering)

theorem twoDeposits_opened : Opened ivorypay twoDeposits := by
  have hFields : ∀ t ∈ twoDeposits.transactions, ∀ field ∈ refValues t.refs,
      (field.all fun x => own ivorypay x t.reference) = true := by
    decide +kernel
  refine ⟨by decide +kernel, fun t hMem x hField => ?_, rfl⟩
  have hOwn := hFields t hMem (some x) hField
  rwa [Option.all_some] at hOwn

end FarmBackend.IvorypayDeposits
