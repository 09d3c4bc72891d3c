import FarmBackend.IvorypayWebhooks

/-!
# What the IvoryPay signature covers

The event, the channel and often the amount and the reference stand beside the signed data, so what is
done is fixed by these only where they are refused whatever stands there.
-/

namespace FarmBackend.IvorypayWebhooks
open Wallets
open WithdrawCalls (trim trim_trim)
open IvorypayPayloads IvorypayVerification
open IvorypayCredits (handleResolved)
open IvorypayDeposits (DepositRow TransactionRow Found resolveCandidate resolveCandidates
  resolveIvorypayDepositAndTransaction)

set_option autoImplicit false

theorem getIvorypayReference_eq (payload : Json) :
    getIvorypayReference payload =
      ((Json.firstOf (referencesOf (data payload) ++ [payload.get "reference", payload.get "id"])).text.map
        trim).filter (· ≠ "") :=
  rfl

/-! ### Data that are refused -/

section Refusals
variable {settings : Settings} {env : Env} {b : Body} {db : Db} {d : Data}

theorem handleIvorypayWebhook_unnamed (h : getIvorypayReference b.payload = none) :
    handleIvorypayWebhook settings env b db = db := by
  unfold handleIvorypayWebhook
  rw [h]
  split_ifs <;> rfl

theorem handleIvorypayWebhook_routedElsewhere (h : routedElsewhere b.payload = true) :
    handleIvorypayWebhook settings env b db = db := by
  unfold handleIvorypayWebhook
  rw [if_pos h]
  split_ifs <;> rfl

theorem handleIvorypayWebhook_fraud (h : detectPotentialFraud b.payload settings = true) :
    handleIvorypayWebhook settings env b db = db := by
  unfold handleIvorypayWebhook
  rw [if_pos h]
  split_ifs <;> rfl

theorem receive_of_handle (h : handleIvorypayWebhook settings env b db = db) :
    receive settings env b db = db := by
  unfold receive
  rw [h, ite_self]

theorem receive_of_refused (hRefused : Refused settings d) (hBody : b.Carries d) :
    receive settings env b db = db := by
  obtain ⟨-, hData⟩ := hBody
  rcases hRefused with hSecret | ⟨hAmount, limit, hLimit, hOver⟩ | ⟨text, hText, hBlank⟩
  · have hRejected : verifyIvorypay settings env b = false := by
      rw [verifyIvorypay, hSecret]
    rw [receive, hRejected]
    rfl
  · apply receive_of_handle
    apply handleIvorypayWebhook_fraud
    rw [detectPotentialFraud, hLimit, hData, Json.firstOf_cons, if_neg hAmount]
    simpa using hOver
  · apply receive_of_handle
    apply handleIvorypayWebhook_unnamed
    rw [getIvorypayReference_eq, hData, Json.firstOf_append, Json.isNull_of_text hText,
      if_neg (by decide), hText, Option.map_some, hBlank]
    rfl

theorem covered_of_refused (h : Refused settings d) : Covered settings d := by
  intro env db b b' hBody hBody'
  rw [receive_of_refused h hBody, receive_of_refused h hBody']

end Refusals

/-! ### Two bodies over the same data -/

/-- An amount below the limit. -/
def allowed (settings : Settings) : ℤ := (settings.maxAmount.map Int.floor).getD 0

def successOn (channel : String) (settings : Settings) (d : Data) : Body where
  payload := .object
    (.cons "event" (.scalar "payment.success" none)
      (.cons "channel" (.scalar channel none)
        (.cons "reference" (.scalar "r" none)
          (.cons "amount" (.scalar (toString (allowed settings)) (some (allowed settings)))
            (.cons "data" d.view .nil)))))
  dataText := some d.text
  eventGiven := true
  eventIsText := true

/-- The lock is free, there is no key for the provider. -/
def unverified : Processing := ⟨true, ⟨fun _ => none, none⟩, Deposits.quiet⟩

def delivery (signature : List UInt8) : Env := ⟨some signature, fun _ => false, unverified, []⟩

/-- The two rows of a deposit of ten. -/
def depositRow (x : String) : DepositRow :=
  ⟨x ++ "!", { Deposits.pendingRow with provider := some .ivorypay },
    ⟨none, none, none, none, none, none⟩⟩

def transactionRow (x : String) : TransactionRow where
  reference := x ++ "!"
  row := ⟨.deposit, .pending, Wallets.toUnits 10, 0, Wallets.toUnits 10, some 1,
    { Deposits.metadataOf (some 1) with provider := some .ivorypay }, some 0⟩
  amountUsd := none
  isQrSale := false
  refs := { Refs.empty with providerRef := some x }

/-- It is pending, and its payment is known to the provider as `x`. -/
def awaiting (x : String) : Db where
  rows := ⟨[depositRow x], [transactionRow x], []⟩
  withdrawals := fun _ => none
  sales := fun _ => none
  transactionId := fun _ => 0
  nextDepositId := 1
  bank := (Deposits.depositOfTen (some 1) none).bank
  activeWallet := fun userId => if userId = 1 then some 1 else none
  userWallet := fun userId => if userId = 1 then some 1 else none
  nextWalletId := 2
  merchantUser := fun _ => none
  walletUser := fun _ => none
  totalSales := fun _ => none

def rowsFound (x : String) : Found := ⟨x ++ "!", some (transactionRow x), some (depositRow x)⟩

section Success
variable {settings : Settings} {channel x : String} {d : Data} {payload : Json} {o : Processing}

theorem carries_successOn (channel : String) (settings : Settings) (d : Data) :
    (successOn channel settings d).Carries d :=
  ⟨rfl, rfl⟩

theorem toLower_ofList (chars : List Char) :
    (String.ofList chars).toLower = String.ofList (chars.map Char.toLower) := by
  change (String.ofList chars).map Char.toLower = _
  rw [← String.toList_inj, String.toList_map, String.toList_ofList, String.toList_ofList]

theorem isIvorypaySuccessEvent_successOn :
    isIvorypaySuccessEvent (successOn channel settings d).payload = true := by
  have hEvent : eventName (successOn channel settings d).payload = "payment.success".toLower := rfl
  rw [isIvorypaySuccessEvent, hEvent]
  have hLower : "payment.success".toLower = "payment.success" :=
    toLower_ofList ['p', 'a', 'y', 'm', 'e', 'n', 't', '.', 's', 'u', 'c', 'c', 'e', 's', 's']
  rw [hLower]
  rfl

theorem normalizeAmount_int (text : String) (n : ℤ) : normalizeAmount (.scalar text (some n)) = n := by
  have hHalf : ⌊(n : ℚ) * 100 + 1 / 2⌋ = n * 100 := by
    rw [Int.floor_eq_iff]
    constructor <;> push_cast <;> linarith
  change ((⌊(n : ℚ) * 100 + 1 / 2⌋ : ℤ) : ℚ) / 100 = n
  rw [hHalf]
  push_cast
  ring

theorem allowed_le {limit : ℚ} (h : settings.maxAmount = some limit) :
    (allowed settings : ℚ) ≤ limit := by
  rw [allowed, h]
  exact Int.floor_le limit

theorem detectPotentialFraud_successOn (hAllowed : ¬Excessive settings d) :
    detectPotentialFraud (successOn channel settings d).payload settings = false := by
  rw [Bool.eq_false_iff]
  intro hFraud
  obtain ⟨limit, hLimit, hOver⟩ := (Option.any_eq_true _ _).mp hFraud
  have hAmounts : Json.firstOf [d.view.get "amount", (successOn channel settings d).payload.get "amount"]
      = if (d.view.get "amount").isNull then .scalar (toString (allowed settings))
          (some (allowed settings)) else d.view.get "amount" := by
    rw [Json.firstOf_cons]
    rfl
  have hData : data (successOn channel settings d).payload = d.view := rfl
  rw [hData, hAmounts, decide_eq_true_eq] at hOver
  split_ifs at hOver with hNull
  · rw [normalizeAmount_int] at hOver
    exact absurd (allowed_le hLimit) (not_le.mpr hOver)
  · exact hAllowed ⟨hNull, limit, hLimit, hOver⟩

/-- The body names a reference, its own or that of the data. -/
theorem getIvorypayReference_successOn (hNamed : ¬Nameless d) :
    ∃ x, getIvorypayReference (successOn channel settings d).payload = some x ∧ x ≠ "" ∧
      trim x = x := by
  have hSome : ∃ text, (Json.firstOf (referencesOf d.view ++
      [(successOn channel settings d).payload.get "reference",
        (successOn channel settings d).payload.get "id"])).text = some text ∧ trim text ≠ "" := by
    rw [Json.firstOf_append]
    split_ifs with hNull
    · exact ⟨"r", rfl, by decide +kernel⟩
    · cases hText : (Json.firstOf (referencesOf d.view)).text with
      | none =>
        cases hFirst : Json.firstOf (referencesOf d.view) with
        | null => exact absurd (by rw [hFirst]; rfl) hNull
        | scalar _ _ | object _ =>
          rw [hFirst] at hText
          cases hText
      | some text => exact ⟨text, rfl, fun hBlank => hNamed ⟨text, hText, hBlank⟩⟩
  obtain ⟨text, hText, hBlank⟩ := hSome
  refine ⟨trim text, ?_, hBlank, trim_trim text⟩
  have hData : data (successOn channel settings d).payload = d.view := rfl
  rw [getIvorypayReference_eq, hData, hText, Option.map_some, Option.filter_some,
    if_pos (by simpa using hBlank)]

/-! ### The deposit is found under its provider's reference -/

theorem resolve_awaiting (hTrim : trim x = x) (hBlank : x ≠ "") :
    resolveIvorypayDepositAndTransaction (awaiting x).rows payload x = rowsFound x := by
  have hFirst : ∃ rest, resolveCandidates payload x = x :: rest := by
    unfold resolveCandidates distinct
    rw [List.cons_append, List.reduceOption_cons_of_some, List.map_cons, hTrim,
      List.filter_cons_of_pos (by simpa using hBlank), List.eraseDups_cons]
    exact ⟨_, rfl⟩
  obtain ⟨rest, hRest⟩ := hFirst
  have hFound : resolveCandidate (awaiting x).rows x = some (rowsFound x) := by
    have hMatches : (transactionRow x).matches x = true := by
      simp [TransactionRow.matches, transactionRow, IvorypayDeposits.refValues]
    have hTransaction : (awaiting x).rows.transactions.find? (·.matches x) =
        some (transactionRow x) := List.find?_cons_of_pos hMatches
    have hDeposit : (awaiting x).rows.deposits.find? (fun d =>
        d.reference == (transactionRow x).reference || d.matches x) = some (depositRow x) :=
      List.find?_cons_of_pos (by simp [depositRow, transactionRow])
    rw [resolveCandidate, hTransaction]
    simp only [hDeposit]
    rfl
  rw [resolveIvorypayDepositAndTransaction, hRest, List.findSome?_cons, hFound]
  rfl

/-! ### It is finalised although nothing is verified -/

theorem handleResolved_awaiting (hSuccess : isIvorypaySuccessEvent payload = true) :
    handleResolved payload (rowsFound x).resolved none = .finalizeDeposit := by
  have hRegular : handleResolved payload (rowsFound x).resolved none =
      IvorypayCredits.handleRegular payload (rowsFound x).resolved none := rfl
  rw [hRegular, IvorypayCredits.handleRegular, if_pos hSuccess]
  rfl

theorem rawReference_eq (h : getIvorypayReference payload = some x) : rawReference payload = some x := by
  rw [rawReference, h]
  rfl

/-- What is persisted of the webhook is no part of what the finaliser sees. -/
theorem depositStore_written {refs : Refs → Refs}
    {columns : IvorypayDeposits.Columns → IvorypayDeposits.Columns} :
    ({ awaiting x with
      rows := (awaiting x).rows.write (rowsFound x) refs columns } : Db).depositStore (x ++ "!") =
        (awaiting x).depositStore (x ++ "!") := by
  simp [Db.depositStore, Db.deposit, Db.transaction, awaiting, IvorypayDeposits.Store.write,
    IvorypayDeposits.Store.updateTransaction, IvorypayDeposits.Store.updateDeposit, rowsFound, depositRow,
    transactionRow]

theorem bank_processing (hReference : getIvorypayReference payload = some x) (hTrim : trim x = x)
    (hBlank : x ≠ "") (hSuccess : isIvorypaySuccessEvent payload = true) :
    (handleIvorypayWebhookProcessing unverified payload (awaiting x)).1.bank =
      (Deposits.program.advance Deposits.quiet 7 ((awaiting x).depositStore (x ++ "!"))
        (.finalize .webhook)).1.bank := by
  have hVerify : ∀ r, IvorypayCredits.verify payload r unverified.api = none := fun _ => rfl
  unfold handleIvorypayWebhookProcessing
  rw [rawReference_eq hReference]
  simp only [resolve_awaiting hTrim hBlank, hVerify, handleResolved_awaiting hSuccess]
  rw [if_neg (by decide), ← depositStore_written]
  rfl

theorem wallets_finalized :
    ((Deposits.program.advance Deposits.quiet 7 ((awaiting x).depositStore (x ++ "!"))
      (.finalize .webhook)).1.bank.wallets 1).map Wallet.balance = some (Wallets.toUnits 10) := by
  have hStore : (awaiting x).depositStore (x ++ "!") =
      { Deposits.depositOfTen (some 1) (some { Deposits.pendingRow with provider := some .ivorypay })
        with transaction := some (transactionRow "").row } := by
    simp [Db.depositStore, Db.deposit, Db.transaction, awaiting, depositRow, transactionRow,
      Deposits.depositOfTen]
  rw [hStore]
  decide +kernel

theorem bank_receive {mac : String → List UInt8} (hSecret : settings.mac = some mac)
    (hAllowed : ¬Excessive settings d) (hNamed : ¬Nameless d) :
    ∃ x, ((receive settings (delivery (mac d.text)) (successOn "crypto" settings d)
      (awaiting x)).bank.wallets 1).map Wallet.balance = some (Wallets.toUnits 10) := by
  obtain ⟨x, hReference, hBlank, hTrim⟩ := getIvorypayReference_successOn hNamed
  refine ⟨x, ?_⟩
  have hVerified : verifyIvorypay settings (delivery (mac d.text)) (successOn "crypto" settings d) =
      true := by
    rw [verifyIvorypay, hSecret]
    exact beq_self_eq_true _
  have hNew : (getEventId (successOn "crypto" settings d).payload).any
      (delivery (mac d.text)).processed = false := by
    simp [delivery]
  have hPayload : verifyProviderPayload (successOn "crypto" settings d) = true := by
    rw [verifyProviderPayload, hReference]
    rfl
  have hRouted : routedElsewhere (successOn "crypto" settings d).payload = false := by
    have hLower : "crypto".toLower = "crypto" := toLower_ofList ['c', 'r', 'y', 'p', 't', 'o']
    change (decide ("crypto" ≠ "") && decide ("crypto".toLower ≠ "crypto")) = false
    rw [hLower]
    rfl
  have hAmount : amountDiffers (successOn "crypto" settings d).payload (awaiting x) x = false := by
    have hOther : (awaiting x).transaction x = none := by
      have hNe : x ++ "!" ≠ x := by simp
      simp [Db.transaction, awaiting, transactionRow, hNe]
    rw [amountDiffers, hOther]
  have hHandled : handleIvorypayWebhook settings (delivery (mac d.text))
      (successOn "crypto" settings d) (awaiting x) = (handleIvorypayWebhookProcessing unverified
        (successOn "crypto" settings d).payload (awaiting x)).1 := by
    unfold handleIvorypayWebhook
    simp only [hNew, hPayload, hRouted, detectPotentialFraud_successOn hAllowed, hReference, hAmount,
      Bool.and_false, Bool.false_eq_true, Bool.true_eq_false, if_false]
    -- There are no later processings.
    exact ite_self _
  rw [receive, if_pos hVerified, hHandled,
    bank_processing hReference hTrim hBlank isIvorypaySuccessEvent_successOn, wallets_finalized]

/-- On another channel the same data are rejected. -/
theorem receive_other {env : Env} :
    receive settings env (successOn "fiat" settings d) (awaiting x) = awaiting x := by
  apply receive_of_handle
  apply handleIvorypayWebhook_routedElsewhere
  have hLower : "fiat".toLower = "fiat" := toLower_ofList ['f', 'i', 'a', 't']
  change (decide ("fiat" ≠ "") && decide ("fiat".toLower ≠ "crypto")) = true
  rw [hLower]
  rfl

end Success

/-! ### The signature covers what is done exactly where nothing is done -/

theorem covered_iff_refused (settings : Settings) (d : Data) :
    Covered settings d ↔ Refused settings d := by
  refine ⟨?_, covered_of_refused⟩
  intro hCovered
  by_contra hRefused
  obtain ⟨hSecret, hAllowed, hNamed⟩ : settings.mac ≠ none ∧ ¬Excessive settings d ∧ ¬Nameless d := by
    simpa only [Refused, not_or] using hRefused
  obtain ⟨mac, hMac⟩ := Option.ne_none_iff_exists'.mp hSecret
  obtain ⟨x, hBank⟩ := bank_receive hMac hAllowed hNamed
  have hSame := hCovered (delivery (mac d.text)) (awaiting x) _ _
    (carries_successOn "crypto" settings d) (carries_successOn "fiat" settings d)
  rw [receive_other] at hSame
  have hWallets := congrFun (congrArg Visible.wallets hSame) 1
  have hBalances := congrArg (Option.map Prod.fst) hWallets
  simp only [Db.visible, Option.map_map, Function.comp_def] at hBalances
  have hEmpty : ((awaiting x).bank.wallets 1).map Wallet.balance = some 0 := rfl
  rw [hEmpty] at hBalances
  exact absurd (hBank.symm.trans hBalances) (by decide +kernel)

/-! A deposit that is still pending, reported with a signature of the provider and with another event
beside the signed data. -/

def pendingData : Data where
  view := .object
    (.cons "reference" (.scalar "dep-1" none) (.cons "status" (.scalar "pending" none) .nil))
  text := "\x7b\"reference\":\"dep-1\",\"status\":\"pending\"\x7d"

def reported (event : String) : Body where
  payload := .object (.cons "event" (.scalar event none) (.cons "data" pendingData.view .nil))
  dataText := some pendingData.text
  eventGiven := true
  eventIsText := true

def bytes (text : String) : List UInt8 := text.toList.map fun c => UInt8.ofNat c.toNat

def production : Settings := ⟨some bytes, some 5000000⟩

def after (event : String) : Db :=
  receive production (delivery (bytes pendingData.text)) (reported event) (awaiting "dep-1")

theorem pending_data_reported_twice :
    (reported "payment.success").Carries pendingData ∧
      (reported "payment.failed").Carries pendingData ∧
      (after "payment.success").visible.wallets 1 = some (Wallets.toUnits 10, 0) ∧
      (after "payment.success").visible.deposits = [("dep-1!", .success)] ∧
      (after "payment.failed").visible.wallets 1 = some (0, 0) ∧
      (after "payment.failed").visible.deposits = [("dep-1!", .failed)] ∧
      ¬Covered production pendingData := by
  have hSuccess : (after "payment.success").visible.deposits = [("dep-1!", .success)] := by
    decide +kernel
  have hFailed : (after "payment.failed").visible.deposits = [("dep-1!", .failed)] := by
    decide +kernel
  refine ⟨⟨rfl, rfl⟩, ⟨rfl, rfl⟩, by decide +kernel, hSuccess, by decide +kernel, hFailed, ?_⟩
  intro hCovered
  have hSame : (after "payment.success").visible = (after "payment.failed").visible :=
    hCovered _ _ _ _ ⟨rfl, rfl⟩ ⟨rfl, rfl⟩
  rw [hSame, hFailed] at hSuccess
  cases hSuccess

end FarmBackend.IvorypayWebhooks
