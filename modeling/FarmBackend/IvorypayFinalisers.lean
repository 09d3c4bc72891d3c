import FarmBackend.IvorypayWebhooks

/-!
# Where a verified success leads

The record of the verification is written to a deposit row, whatever the transaction is: without one
the processing throws before it comes to a finaliser.
-/

namespace FarmBackend.IvorypayWebhooks
open Wallets
open WithdrawCalls (trim)
open IvorypayPayloads IvorypayVerification
open IvorypayCredits (Exit handleResolved handleRegular handleVerified amountMismatch isWithdrawal)
open IvorypayDeposits (DepositRow TransactionRow Found resolveCandidate resolveCandidates
  incomingRefs incomingColumns recordVerified resolveIvorypayDepositAndTransaction)

set_option autoImplicit false

/-- What the processing ends with. -/
def exitOf (o : Processing) (payload : Json) (db : Db) : Exit :=
  match rawReference payload with
  | none => .nothing
  | some reference =>
    IvorypayCredits.handleIvorypayWebhookProcessing payload
      (resolveIvorypayDepositAndTransaction db.rows payload reference).resolved o.api o.locked

section
-- Its equation is derived once, before the proofs that unfold it.
attribute [local simp] exitOf
end

/-- The rows with the identifiers of the payload and of the verification. -/
def recorded (o : Processing) (payload : Json) (db : Db) (reference : String) : Db :=
  let found := resolveIvorypayDepositAndTransaction db.rows payload reference
  let written := db.rows.write found (incomingRefs payload) (incomingColumns payload)
  let verified := IvorypayCredits.verify payload found.resolved o.api
  { db with rows := recordVerified written payload found verified }

/-- The finaliser of the transactions of a type. -/
def finaliserOf : TransactionType → Option Exit
  | .deposit => some .finalizeDeposit
  | .withdrawal => some (.finalizeWithdrawal true)
  | _ => none

/-- The first identifier in a payload that names a row. -/
def naming (db : Db) (payload : Json) (reference : String) : Option String :=
  (resolveCandidates payload reference).find? fun candidate =>
    db.rows.transactions.any (·.matches candidate) || db.rows.deposits.any (·.matches candidate)

/-- A reported success that is resolved to the transaction, and whose verification confirms it with an
amount that is accepted. -/
structure Due (o : Processing) (payload : Json) (db : Db) (reference : String) (t : TransactionRow) :
    Prop where
  success : isIvorypaySuccessEvent payload = true
  raw : rawReference payload = some reference
  resolved : (resolveIvorypayDepositAndTransaction db.rows payload reference).transaction = some t
  confirmed : ∃ v, IvorypayCredits.verify payload
      (resolveIvorypayDepositAndTransaction db.rows payload reference).resolved o.api = some v ∧
    isIvorypayVerifiedAmountAcceptable t.view.expected v.data = true

/-- There is a deposit row of the transaction, or of the identifier that has found it. -/
def HasDeposit (db : Db) (payload : Json) (reference : String) (t : TransactionRow) : Prop :=
  ∃ d ∈ db.rows.deposits, d.reference = t.reference ∨
    ∃ candidate, naming db payload reference = some candidate ∧ d.matches candidate = true

/-- The event is one of the type: not of a withdrawal for a deposit, and no failure beside its success
for a withdrawal. -/
def Fitting (payload : Json) : TransactionType → Prop
  | .deposit => isWithdrawalEvent payload = false
  | _ => isIvorypayFailureEvent payload = false

section Rows
variable {db : Db} {payload : Json} {reference : String} {t : TransactionRow}

theorem resolveCandidate_eq_none_iff {s : IvorypayDeposits.Store} {candidate : String} :
    resolveCandidate s candidate = none ↔
      (s.transactions.any (·.matches candidate) || s.deposits.any (·.matches candidate)) = false := by
  unfold resolveCandidate
  rw [Bool.or_eq_false_iff, List.any_eq_false, List.any_eq_false]
  cases hFind : s.transactions.find? (·.matches candidate) with
  | none =>
    rw [List.find?_eq_none] at hFind
    rw [Option.map_eq_none_iff, List.find?_eq_none]
    exact ⟨fun hDeposits => ⟨hFind, hDeposits⟩, And.right⟩
  | some row =>
    have hMem := List.mem_of_find?_eq_some hFind
    have hMatches := List.find?_some hFind
    refine iff_of_false (by simp) fun hNone => hNone.1 row hMem hMatches

theorem findSome?_eq_bind {s : IvorypayDeposits.Store} (candidates : List String) :
    candidates.findSome? (resolveCandidate s) =
      (candidates.find? fun candidate => s.transactions.any (·.matches candidate) ||
        s.deposits.any (·.matches candidate)).bind (resolveCandidate s) := by
  induction candidates with
  | nil => rfl
  | cons candidate rest ih =>
    rw [List.findSome?_cons, List.find?_cons]
    cases hNamed : (s.transactions.any (·.matches candidate) ||
        s.deposits.any (·.matches candidate)) with
    | false =>
      rw [resolveCandidate_eq_none_iff.mpr hNamed]
      exact ih
    | true =>
      cases hFound : resolveCandidate s candidate with
      | none =>
        rw [resolveCandidate_eq_none_iff.mp hFound] at hNamed
        cases hNamed
      | some found => simp [hFound]

theorem resolve_eq_naming (db : Db) (payload : Json) (reference : String) :
    resolveIvorypayDepositAndTransaction db.rows payload reference =
      ((naming db payload reference).bind (resolveCandidate db.rows)).getD
        ⟨reference, none, none⟩ := by
  rw [resolveIvorypayDepositAndTransaction, findSome?_eq_bind]
  rfl

/-- The deposit that is looked up beside the transaction. -/
theorem deposit_isSome_iff
    (h : (resolveIvorypayDepositAndTransaction db.rows payload reference).transaction = some t) :
    (resolveIvorypayDepositAndTransaction db.rows payload reference).deposit.isSome = true ↔
      HasDeposit db payload reference t := by
  rw [resolve_eq_naming] at h ⊢
  unfold HasDeposit
  cases hNaming : naming db payload reference with
  | none =>
    rw [hNaming] at h
    cases h
  | some candidate =>
    rw [hNaming, Option.bind_some] at h
    rw [Option.bind_some]
    unfold resolveCandidate at h ⊢
    cases hFind : db.rows.transactions.find? (·.matches candidate) with
    | some row =>
      rw [hFind] at h
      obtain rfl : row = t := Option.some.inj h
      simp [List.find?_isSome]
    | none =>
      rw [hFind] at h
      cases hDeposit : db.rows.deposits.find? (·.matches candidate) with
      | none =>
        rw [hDeposit] at h
        cases h
      | some d =>
        have hMatches := List.find?_some hDeposit
        exact iff_of_true rfl
          ⟨d, List.mem_of_find?_eq_some hDeposit, .inr ⟨candidate, rfl, hMatches⟩⟩

end Rows

/-! ### The way to the finaliser -/

section Led
variable {o : Processing} {db : Db} {payload : Json} {reference : String} {t : TransactionRow}
  {e : Exit}

/-- The processing is what it ends with. -/
theorem handleIvorypayWebhookProcessing_eq_finish (hRaw : rawReference payload = some reference)
    (hLocked : o.locked = true) :
    (handleIvorypayWebhookProcessing o payload db).1 = (finish o (recorded o payload db reference)
      (resolveIvorypayDepositAndTransaction db.rows payload reference).reference
        (exitOf o payload db)).1 := by
  have hExit : exitOf o payload db = handleResolved payload
      (resolveIvorypayDepositAndTransaction db.rows payload reference).resolved
        (IvorypayCredits.verify payload
          (resolveIvorypayDepositAndTransaction db.rows payload reference).resolved o.api) := by
    simp only [exitOf, hRaw, hLocked, IvorypayCredits.handleIvorypayWebhookProcessing,
      Option.isNone_some, Bool.false_eq_true, Bool.true_eq_false, or_self, if_false]
  rw [handleIvorypayWebhookProcessing, hRaw, hExit]
  simp only [hLocked, Bool.true_eq_false, if_false, recorded]

theorem handleQrSale_ne {r : IvorypayCredits.Transaction} {verified : Option Verified}
    (hType : finaliserOf t.row.transactionType = some e) :
    IvorypayCredits.handleQrSale payload r verified ≠ e := by
  have hShape : e = .finalizeDeposit ∨ e = .finalizeWithdrawal true := by
    cases hStored : t.row.transactionType <;> rw [hStored] at hType <;> cases hType <;> simp
  unfold IvorypayCredits.handleQrSale
  split_ifs
  · rcases hShape with rfl | rfl <;> simp
  · split
    · rcases hShape with rfl | rfl <;> simp
    · split_ifs <;> rcases hShape with rfl | rfl <;> simp
  · rcases hShape with rfl | rfl <;> simp
  · rcases hShape with rfl | rfl <;> simp

/-- With its row and its amount the exit depends on the event only. -/
theorem dispatch_iff (hType : finaliserOf t.row.transactionType = some e)
    (r : IvorypayCredits.Resolved) (hRow : r.transaction = some t.view) :
    (if isWithdrawal payload r then Exit.finalizeWithdrawal (!isIvorypayFailureEvent payload)
      else .finalizeDeposit) = e ↔ Fitting payload t.row.transactionType := by
  rw [isWithdrawal, hRow, Option.any_some]
  cases hStored : t.row.transactionType with
  | deposit =>
    rw [hStored] at hType
    cases hType
    cases hEvent : isWithdrawalEvent payload <;> simp [TransactionRow.view, hStored, Fitting, hEvent]
  | withdrawal =>
    rw [hStored] at hType
    cases hType
    simp [TransactionRow.view, hStored, Fitting]
  | _ =>
    rw [hStored] at hType
    cases hType

/-- Of a confirmed success. -/
theorem exitOf_eq (hDue : Due o payload db reference t) (hLocked : o.locked = true)
    (hSale : t.isQrSale = false) : exitOf o payload db =
      if (resolveIvorypayDepositAndTransaction db.rows payload reference).deposit.isSome = false then
        .nothing
      else if amountMismatch payload t.view then .nothing
      else if isWithdrawal payload
          (resolveIvorypayDepositAndTransaction db.rows payload reference).resolved then
        .finalizeWithdrawal (!isIvorypayFailureEvent payload)
      else .finalizeDeposit := by
  obtain ⟨hSuccess, hRaw, hResolved, v, hVerified, hAccepted⟩ := hDue
  have hRow : (resolveIvorypayDepositAndTransaction db.rows payload reference).resolved.transaction =
      some t.view := by
    rw [Found.resolved, hResolved, Option.map_some]
  have hView : ¬t.view.isQrSale = true := by
    rw [TransactionRow.view, hSale]
    exact Bool.false_ne_true
  rw [exitOf, hRaw]
  simp only [IvorypayCredits.handleIvorypayWebhookProcessing, hRaw, hLocked, Option.isNone_some,
    Bool.false_eq_true, Bool.true_eq_false, or_self, if_false]
  rw [handleResolved, hRow, Option.filter_some, if_neg hView]
  simp only [handleRegular, if_pos hSuccess, hVerified, handleVerified, hRow, hAccepted,
    Bool.true_eq_false, if_false]
  rw [Found.resolved]

/-- Without a deposit row it throws. -/
theorem throws_of_not_hasDeposit (hDue : Due o payload db reference t)
    (hLocked : o.locked = true) (hSale : t.isQrSale = false)
    (hNone : ¬HasDeposit db payload reference t) :
    exitOf o payload db = .nothing ∧ (handleIvorypayWebhookProcessing o payload db).2 = false := by
  rw [← deposit_isSome_iff hDue.resolved, Bool.not_eq_true] at hNone
  constructor
  · rw [exitOf_eq hDue hLocked hSale, if_pos hNone]
  · obtain ⟨hSuccess, hRaw, hResolved, v, hVerified, hAccepted⟩ := hDue
    have hThrows : throwsOnTheWay payload (resolveIvorypayDepositAndTransaction db.rows payload
        reference).resolved (some v) = true := by
      simp [throwsOnTheWay, hSuccess, Found.resolved, hResolved, TransactionRow.view, hSale, hNone]
    rw [handleIvorypayWebhookProcessing, hRaw]
    simp only [hLocked, Bool.true_eq_false, if_false, hVerified, hThrows, Bool.not_true,
      Bool.false_and]

theorem finaliserOf_ne_nothing (hType : finaliserOf t.row.transactionType = some e) :
    Exit.nothing ≠ e := by
  rintro rfl
  cases hStored : t.row.transactionType <;> rw [hStored] at hType <;> cases hType

end Led

/-! ### Transactions that IvoryPay confirms -/

/-- A reference that is the first to be named finds its transaction. -/
theorem resolved_of_find {db : Db} {payload : Json} {reference : String} {t : TransactionRow}
    (hTrim : trim reference = reference) (hGiven : reference ≠ "")
    (h : db.rows.transactions.find? (·.matches reference) = some t) :
    (resolveIvorypayDepositAndTransaction db.rows payload reference).transaction = some t := by
  have hFirst : ∃ rest, resolveCandidates payload reference = reference :: rest := by
    unfold resolveCandidates distinct
    rw [List.cons_append, List.reduceOption_cons_of_some, List.map_cons, hTrim,
      List.filter_cons_of_pos (by simpa using hGiven), List.eraseDups_cons]
    exact ⟨_, rfl⟩
  obtain ⟨rest, hRest⟩ := hFirst
  rw [resolveIvorypayDepositAndTransaction, hRest, List.findSome?_cons]
  simp [resolveCandidate, h]

def eightDollars : Json :=
  .object (.cons "status" (.scalar "success" none)
    (.cons "amount_usd" (.scalar "8" (some 8)) .nil))

def confirming : Processing :=
  ⟨true, ⟨fun _ => none, some fun _ _ => .answered eightDollars⟩, Deposits.quiet⟩

/-- A pending transaction over 1000 FARM, for eight dollars. -/
def pendingOf (transactionType : TransactionType) : TransactionRow where
  reference := "TX-1"
  row := ⟨transactionType, .pending, toUnits 1000, 0, toUnits 1000, some 1,
    { Deposits.metadataOf (some 1) with provider := some .ivorypay }, some 0⟩
  amountUsd := some 8
  isQrSale := false
  refs := Refs.empty

def stored (transactionType : TransactionType) (deposits : List DepositRow) : Db where
  rows := ⟨deposits, [pendingOf transactionType], []⟩
  withdrawals := fun _ => none
  sales := fun _ => none
  transactionId := fun _ => 0
  nextDepositId := 1
  bank := (Deposits.depositOfTen (some 1) none).bank
  activeWallet := fun userId => if userId = 1 then some 1 else none
  userWallet := fun userId => if userId = 1 then some 1 else none
  nextWalletId := 2
  merchantUser := fun _ => none
  walletUser := fun _ => none
  totalSales := fun _ => none

def reportOf (event : String) : Json :=
  .object (.cons "event" (.scalar event none)
    (.cons "data" (.object (.cons "reference" (.scalar "TX-1" none) .nil)) .nil))

example : rawReference (reportOf "payment.success") = some "TX-1" := by decide +kernel

theorem payment_success : isIvorypaySuccessEvent (reportOf "payment.success") = true := by
  decide +kernel

theorem due_stored {transactionType : TransactionType} {deposits : List DepositRow} {event : String}
    (hSuccess : isIvorypaySuccessEvent (reportOf event) = true)
    (hVerified : (IvorypayCredits.verify (reportOf event)
        (resolveIvorypayDepositAndTransaction (stored transactionType deposits).rows (reportOf event)
          "TX-1").resolved confirming.api).any (fun v =>
      isIvorypayVerifiedAmountAcceptable (pendingOf transactionType).view.expected v.data) = true) :
    Due confirming (reportOf event) (stored transactionType deposits) "TX-1"
      (pendingOf transactionType) := by
  obtain ⟨v, hRecord, hAccepted⟩ := Option.any_eq_true _ _ |>.mp hVerified
  refine ⟨hSuccess, rfl, resolved_of_find rfl (by decide) ?_, v, hRecord, hAccepted⟩
  simp [stored, TransactionRow.matches, pendingOf]

theorem not_hasDeposit_stored (transactionType : TransactionType) (payload : Json)
    (t : TransactionRow) : ¬HasDeposit (stored transactionType []) payload "TX-1" t := by
  rintro ⟨d, hMem, -⟩
  cases hMem

def depositBeside : DepositRow :=
  ⟨"TX-1", { Deposits.pendingRow with provider := some .ivorypay },
    ⟨none, none, none, none, none, none⟩⟩

end FarmBackend.IvorypayWebhooks
