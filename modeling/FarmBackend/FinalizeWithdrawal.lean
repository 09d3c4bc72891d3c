import FarmBackend.Withdrawals

/-!
# `WebhookService.finalizeWithdrawal`

The webhook first asks `WithdrawService`; what that declines goes to an older finaliser on the
`transactions` row alone. The events of one withdrawal are delivered one after the other, in any
order and number. The abstract machine of `Phase` says where they lead.
-/

namespace FarmBackend.FinalizeWithdrawal
open Decimal Fees Wallets Rows Withdrawals

set_option autoImplicit false

def markAsSuccess (reference : ℕ) (db : WithdrawDb) : Option (WithdrawDb × Bool) :=
  match db.rows[reference]? with
  | none => some (db, false)
  | some row =>
    if row.withdrawal.status = .completed then some (db, true)
    else if row.withdrawal.status = .failed then some (db, false)
    else match db.activeWallet row.withdrawal.userId with
      | none => some (db, false)
      | some walletId =>
        db.markAsSuccessTx reference row.withdrawal row.transaction walletId

def rejectWithdrawal (reference : ℕ) (db : WithdrawDb) : Option (WithdrawDb × Bool) :=
  match db.rows[reference]? with
  | none => some (db, false)
  | some row =>
    if row.withdrawal.status = .failed then some (db, true)
    else if row.withdrawal.status = .completed then some (db, false)
    else match db.activeWallet row.withdrawal.userId with
      | none => some (db, false)
      | some walletId =>
        db.rejectWithdrawalTx reference row.withdrawal row.transaction walletId

def completeTransactionWithdrawal (reference : ℕ) (transaction : WithdrawalTransaction)
    (db : WithdrawDb) : Option (WithdrawDb × Bool) := do
  if transaction.status = .completed then return (db, true)
  else
    let walletId := transaction.senderWalletId
    let wallet ← db.bank.wallets walletId
    let previousLocked := toNumber wallet.lockedBalance
    let withdrawAmount := toNumber transaction.amount
    let bank ← db.bank.walletsUpdate walletId (Wallet.decrementBalance withdrawAmount ∘
      Wallet.decrementLocked (min previousLocked withdrawAmount))
    let bank := bank.ledgerCreate ⟨some reference, walletId, .debit, toUnits withdrawAmount⟩
    let bank ← creditPlatformFeeInTx (toNumber transaction.fee) (some reference) bank
    return (({ db with bank := bank } : WithdrawDb).setTransaction reference fun t =>
      if t.status = .completed then t else { t with status := .completed }, true)

def failTransactionWithdrawal (reference : ℕ) (transaction : WithdrawalTransaction)
    (db : WithdrawDb) : Option (WithdrawDb × Bool) := do
  if transaction.status = .failed then return (db, true)
  else
    let walletId := transaction.senderWalletId
    match db.bank.wallets walletId with
    | none => return (db, false)
    | some wallet =>
      let previousLocked := toNumber wallet.lockedBalance
      let unlockAmount := min previousLocked (toNumber transaction.amount)
      let bank ← db.bank.walletsUpdate walletId (Wallet.decrementLocked unlockAmount)
      return (({ db with bank := bank } : WithdrawDb).setTransaction reference fun t =>
        if t.status = .failed then t else { t with status := .failed }, true)

def finalizeWithdrawal (reference : ℕ) (success : Bool) (db : WithdrawDb) :
    Option (WithdrawDb × Bool) := do
  let (db, handled) ←
    if success then markAsSuccess reference db else rejectWithdrawal reference db
  if handled then return (db, true)
  else match db.rows[reference]? with
    | none => return (db, false)
    | some row =>
      if success then completeTransactionWithdrawal reference row.transaction db
      else failTransactionWithdrawal reference row.transaction db

/-- One event; a finaliser that throws leaves the rows as they were. -/
def deliver (reference : ℕ) (db : WithdrawDb) (success : Bool) : WithdrawDb :=
  match finalizeWithdrawal reference success db with
  | none => db
  | some (db, _) => db

def deliverAll (reference : ℕ) (events : List Bool) (db : WithdrawDb) : WithdrawDb :=
  events.foldl (deliver reference) db

/-! What should hold of the rows and the wallet. -/

/-- The debits of the wallet the ledger knows for the withdrawal; whoever debits the balance
writes one in the same transaction. -/
def debits (reference : ℕ) (walletId : WalletId) (bank : Bank) : ℕ :=
  bank.ledger.countP fun entry => entry.transactionId == some reference &&
    entry.walletId == walletId && entry.entryType == .debit

def isOpenTransaction (status : TransactionStatus) : Bool :=
  status == .pending || status == .processing

/-- Both rows are open, both completed or both failed. -/
def Row.agrees (row : Row) : Bool :=
  (row.withdrawal.status.isOpen && isOpenTransaction row.transaction.status) ||
    (row.withdrawal.status == .completed && row.transaction.status == .completed) ||
    (row.withdrawal.status == .failed && row.transaction.status == .failed)

def rowsAgree (reference : ℕ) (db : WithdrawDb) : Bool :=
  match db.rows[reference]? with
  | none => false
  | some row => Row.agrees row

/-- What the withdrawal itself holds of the locked balance. -/
def ownPart (reference : ℕ) (db : WithdrawDb) : ℤ :=
  match db.rows[reference]? with
  | none => 0
  | some row => if row.withdrawal.status.isOpen then toUnits row.withdrawal.amount else 0

def othersPart (reference : ℕ) (walletId : WalletId) (db : WithdrawDb) : ℤ :=
  db.bank.lockedOf walletId - ownPart reference db

/-- Through all the events the wallet is debited at most once and the other holdings keep their
part; after the last one the rows agree. -/
def Kept (reference : ℕ) (walletId : WalletId) (start : WithdrawDb) (events : List Bool) : Prop :=
  (∀ seen, seen <+: events →
    debits reference walletId (deliverAll reference seen start).bank ≤
        debits reference walletId start.bank + 1 ∧
      othersPart reference walletId (deliverAll reference seen start) =
        othersPart reference walletId start) ∧
    rowsAgree reference (deliverAll reference events start) = true

/-- A withdrawal whose amount was locked by a committed `lockFundsInTx`, on a wallet that has
`others` units locked for other holdings. -/
structure Held (reference : ℕ) (walletId : WalletId) (others : ℤ) (row : Row) (wallet : Wallet)
    (db : WithdrawDb) : Prop where
  row_eq : db.rows[reference]? = some row
  open_row : row.withdrawal.status.isOpen = true ∧ isOpenTransaction row.transaction.status = true
  wallet_eq : db.bank.wallets walletId = some wallet
  active : db.activeWallet row.withdrawal.userId = some walletId
  sender : row.transaction.senderWalletId = walletId
  amount_pos : 0 < row.withdrawal.amount
  fee_eq : row.withdrawal.fee = toNumber row.transaction.fee
  others_nonneg : 0 ≤ others
  locked_eq : wallet.lockedBalance = others + toUnits row.withdrawal.amount
  covered : row.withdrawal.amount ≤ toNumber wallet.balance

/-- A fee can be credited: there is none, or the platform has a wallet. -/
def creditable (fee : ℚ) (bank : Bank) : Bool :=
  decide (fee ≤ 0) ||
    match bank.platform with
    | none => false
    | some walletId => (bank.wallets walletId).isSome

/-! Where the events lead. -/

inductive Phase where
  | held
  | completed
  | failed
  | mixed
  deriving DecidableEq, Repr

/-- In the phase `mixed` the older finaliser has undone on the `transactions` row what
`WithdrawService` decided. -/
def Phase.next (canCredit : Bool) : Phase → Bool → Phase
  | .held, true => if canCredit then .completed else .held
  | .held, false => .failed
  | .completed, false => .mixed
  | .failed, true => if canCredit then .mixed else .failed
  | phase, _ => phase

/-- The events on which the withdrawal leaves the phase `held`. -/
def settles (canCredit : Bool) (events : List Bool) : Prop :=
  false ∈ events ∨ (true ∈ events ∧ canCredit = true)

/-- A success that can be carried out and a failure are both among the events. -/
def conflicting (canCredit : Bool) (events : List Bool) : Prop :=
  true ∈ events ∧ false ∈ events ∧ canCredit = true

namespace Phase
variable {canCredit : Bool}

theorem run_eq_iff (events : List Bool) :
    (events.foldl (next canCredit) held = held ↔ ¬ settles canCredit events) ∧
      (events.foldl (next canCredit) held = mixed ↔ conflicting canCredit events) ∧
      (events.foldl (next canCredit) held = completed → true ∈ events ∧ false ∉ events) ∧
      (events.foldl (next canCredit) held = failed → false ∈ events) := by
  induction events using List.reverseRecOn with
  | nil => simp [settles, conflicting]
  | append_singleton events event ih =>
    obtain ⟨hHeld, hMixed, hCompleted, hFailed⟩ := ih
    rw [List.foldl_append, List.foldl_cons, List.foldl_nil]
    unfold settles conflicting at *
    cases hPhase : events.foldl (next canCredit) held <;> cases event <;> cases canCredit <;>
      simp_all [next]

end Phase

/-! What a lock and its unlock leave behind. -/

/-- Half a unit is rounded up by the lock and by the unlock. -/
def residue (amount : ℚ) : ℤ := if Int.fract (amount * 10 ^ 8) = 1 / 2 then 1 else 0

theorem lockedBalance_unlock {others : ℤ} {amount : ℚ} {wallet : Wallet} (hOthers : 0 ≤ others)
    (hAmount : 0 < amount) (hLocked : wallet.lockedBalance = others + toUnits amount) :
    (unlock amount wallet).lockedBalance = others + residue amount := by
  have hScaled : (0 : ℚ) < amount * 10 ^ 8 := by positivity
  have hUnits : toUnits amount = ⌊amount * 10 ^ 8 + 1 / 2⌋ := roundHalfAway_of_nonneg hScaled.le
  have hUnlocked : (unlock amount wallet).lockedBalance =
      roundHalfAway (max ((wallet.lockedBalance : ℚ) - amount * 10 ^ 8) 0) := by
    change roundHalfAway (max (toNumber wallet.lockedBalance - amount) 0 * 10 ^ 8) = _
    rw [max_mul_of_nonneg _ _ (by positivity), sub_mul, value_mul, zero_mul]
  rw [hUnlocked, hLocked, hUnits, residue]
  generalize amount * 10 ^ 8 = x at hScaled
  have hResidue := floor_add_half_sub_ceil_sub_half x
  have hFloor := Int.lt_floor_add_one (x + 1 / 2)
  by_cases hCovers : (0 : ℚ) ≤ ((others + ⌊x + 1 / 2⌋ : ℤ) : ℚ) - x
  · rw [max_eq_left hCovers, roundHalfAway_int_sub hCovers]
    omega
  · -- Only a lock that was rounded down, with nothing else held, is below the amount.
    rw [max_eq_right (not_le.mp hCovers).le]
    push_cast at hCovers
    have hNone : others = 0 := by
      have hBelow : (others : ℚ) < 1 := by linarith
      have hBelow' : others < 1 := by exact_mod_cast hBelow
      omega
    have hFract : Int.fract x ≠ 1 / 2 := by
      intro hHalf
      rw [if_pos hHalf] at hResidue
      have hCeil := Int.le_ceil (x - 1 / 2)
      have hSum : ((⌊x + 1 / 2⌋ : ℤ) : ℚ) = ⌈x - 1 / 2⌉ + 1 := by exact_mod_cast by omega
      rw [hNone, Int.cast_zero, hSum] at hCovers
      linarith
    rw [if_neg hFract, hNone]
    exact roundHalfAway_intCast 0

/-! The platform's fee. -/

section Fee
variable {fee : ℚ} {transactionId : Option ℕ} {bank bank' : Bank}

theorem creditPlatformFeeInTx_eq_none (h : creditable fee bank = false) :
    creditPlatformFeeInTx fee transactionId bank = none := by
  simp only [creditable, Bool.or_eq_false_iff, decide_eq_false_iff_not, not_le] at h
  obtain ⟨hFee, hPlatform⟩ := h
  unfold creditPlatformFeeInTx Bank.creditPlatformInTx
  rw [if_pos hFee]
  cases hOwner : bank.platform with
  | none => rfl
  | some owner =>
    simp only [hOwner, Option.isSome_eq_false_iff, Option.isNone_iff_eq_none] at hPlatform
    simp [Bank.creditWalletInTx, Bank.walletsUpdate, hFee, hPlatform]

theorem creditPlatformFeeInTx_eq_some (h : creditable fee bank = true) :
    ∃ bank', creditPlatformFeeInTx fee transactionId bank = some bank' := by
  simp only [creditable, Bool.or_eq_true, decide_eq_true_eq] at h
  unfold creditPlatformFeeInTx Bank.creditPlatformInTx
  by_cases hFee : 0 < fee
  · have hPlatform := h.resolve_left (not_le.mpr hFee)
    rw [if_pos hFee]
    cases hOwner : bank.platform with
    | none => simp [hOwner] at hPlatform
    | some owner =>
      simp only [hOwner, Option.isSome_iff_exists] at hPlatform
      obtain ⟨w, hw⟩ := hPlatform
      simp [Bank.creditWalletInTx, Bank.walletsUpdate, hFee, hw]
  · rw [if_neg hFee]
    exact ⟨bank, rfl⟩

theorem creditable_congr (hPlatform : bank'.platform = bank.platform)
    (hWallets : ∀ id, (bank'.wallets id).isSome = (bank.wallets id).isSome) :
    creditable fee bank' = creditable fee bank := by
  unfold creditable
  rw [hPlatform]
  cases bank.platform with
  | none => rfl
  | some owner => simp only [hWallets]

end Fee

/-- The update of the wallet, its debit entry and the platform's fee, which both finalisers of a
success make of their own wallet update. -/
def debitWithFee (reference : ℕ) (walletId : WalletId) (f : Wallet → Wallet) (amount fee : ℚ)
    (bank : Bank) : Option Bank := do
  let bank ← bank.walletsUpdate walletId f
  let bank := bank.ledgerCreate ⟨some reference, walletId, .debit, toUnits amount⟩
  creditPlatformFeeInTx fee (some reference) bank

section Debit
variable {reference : ℕ} {walletId : WalletId} {f : Wallet → Wallet} {amount fee : ℚ}
  {bank bank' : Bank} {wallet : Wallet}

theorem debits_ledgerCreate_debit (units : ℤ) :
    debits reference walletId (bank.ledgerCreate ⟨some reference, walletId, .debit, units⟩) =
      debits reference walletId bank + 1 := by
  simp [debits, Bank.ledgerCreate]

theorem debits_creditPlatformFeeInTx {transactionId : Option ℕ}
    (h : creditPlatformFeeInTx fee transactionId bank = some bank') :
    debits reference walletId bank' = debits reference walletId bank := by
  obtain ⟨entries, hLedger, hCredit⟩ := Bank.ledger_creditPlatformInTx h
  have hNone : entries.countP (fun entry => entry.transactionId == some reference &&
      entry.walletId == walletId && entry.entryType == .debit) = 0 := by
    rw [List.countP_eq_zero]
    intro entry hEntry
    simp [hCredit entry hEntry]
  rw [debits, debits, hLedger, List.countP_append, hNone, add_zero]

theorem lockedOf_creditPlatformFeeInTx {transactionId : Option ℕ}
    (h : creditPlatformFeeInTx fee transactionId bank = some bank')
    (hWallet : bank.wallets walletId = some wallet) :
    bank'.lockedOf walletId = wallet.lockedBalance := by
  have hSome := Bank.isSome_creditPlatformInTx h walletId
  rw [hWallet, Option.isSome_some, Option.isSome_iff_exists] at hSome
  obtain ⟨wallet', hWallet'⟩ := hSome
  obtain ⟨old, hOld, hLocked⟩ := Bank.keepsLocks_creditPlatformInTx h walletId wallet' hWallet'
  rw [hWallet, Option.some.injEq] at hOld
  rw [Bank.lockedOf_eq hWallet', hLocked, hOld]

theorem debitWithFee_eq (hWallet : bank.wallets walletId = some wallet) :
    ∃ debited, debitWithFee reference walletId f amount fee bank =
        creditPlatformFeeInTx fee (some reference) debited ∧
      debited.wallets walletId = some (f wallet) ∧
      creditable fee debited = creditable fee bank ∧
      debits reference walletId debited = debits reference walletId bank + 1 := by
  obtain ⟨updated, hUpdate⟩ : ∃ updated, bank.walletsUpdate walletId f = some updated :=
    ⟨_, Bank.walletsUpdate_eq_some.mpr ⟨wallet, hWallet, rfl⟩⟩
  obtain ⟨hPlatform, _, hLedger⟩ := Bank.rest_walletsUpdate hUpdate
  obtain ⟨old, hOld, hWallets⟩ := Bank.wallets_walletsUpdate hUpdate
  rw [hWallet, Option.some.injEq] at hOld
  subst hOld
  refine ⟨updated.ledgerCreate ⟨some reference, walletId, .debit, toUnits amount⟩, ?_, ?_, ?_, ?_⟩
  · simp only [debitWithFee, hUpdate, Option.bind_eq_bind, Option.bind_some]
  · rw [Bank.wallets_ledgerCreate, hWallets, Function.update_self]
  · have hSome := Bank.isSome_walletsUpdate hUpdate
    exact creditable_congr hPlatform hSome
  · rw [debits_ledgerCreate_debit, debits, hLedger, debits]

theorem debitWithFee_eq_none (hWallet : bank.wallets walletId = some wallet)
    (hFee : creditable fee bank = false) :
    debitWithFee reference walletId f amount fee bank = none := by
  obtain ⟨debited, hEq, _, hKept, _⟩ := debitWithFee_eq hWallet
  rw [hEq, creditPlatformFeeInTx_eq_none (hKept.trans hFee)]

theorem debitWithFee_eq_some (hWallet : bank.wallets walletId = some wallet)
    (hFee : creditable fee bank = true) :
    ∃ bank', debitWithFee reference walletId f amount fee bank = some bank' ∧
      bank'.lockedOf walletId = (f wallet).lockedBalance ∧
      debits reference walletId bank' = debits reference walletId bank + 1 ∧
      (bank'.wallets walletId).isSome = true ∧ creditable fee bank' = creditable fee bank := by
  obtain ⟨debited, hEq, hDebited, hKept, hDebits⟩ := debitWithFee_eq hWallet
  obtain ⟨bank', hCredit⟩ := creditPlatformFeeInTx_eq_some (hKept.trans hFee)
  obtain ⟨hPlatform, _⟩ := Bank.rest_creditPlatformInTx hCredit
  have hSome := Bank.isSome_creditPlatformInTx hCredit
  refine ⟨bank', hEq.trans hCredit, lockedOf_creditPlatformFeeInTx hCredit hDebited, ?_, ?_, ?_⟩
  · rw [debits_creditPlatformFeeInTx hCredit, hDebits]
  · rw [hSome walletId, hDebited, Option.isSome_some]
  · exact (creditable_congr hPlatform hSome).trans hKept

end Debit

/-! The deliveries follow the phases. -/

def Phase.statuses (phase : Phase) (row : Row) : Prop :=
  match phase with
  | .held => row.withdrawal.status.isOpen = true ∧
      isOpenTransaction row.transaction.status = true
  | .completed => row.withdrawal.status = .completed ∧ row.transaction.status = .completed
  | .failed => row.withdrawal.status = .failed ∧ row.transaction.status = .failed
  | .mixed => (row.withdrawal.status = .completed ∧ row.transaction.status = .failed) ∨
      (row.withdrawal.status = .failed ∧ row.transaction.status = .completed)

theorem Phase.agrees_iff {phase : Phase} {row : Row} (h : phase.statuses row) :
    Row.agrees row = true ↔ phase ≠ mixed := by
  cases phase with
  | held => simp [Row.agrees, h.1, h.2]
  | completed => simp [Row.agrees, h.1, h.2]
  | failed => simp [Row.agrees, h.1, h.2]
  | mixed =>
    rcases h with ⟨hWithdrawal, hTransaction⟩ | ⟨hWithdrawal, hTransaction⟩ <;>
      simp [Row.agrees, hWithdrawal, hTransaction, WithdrawalStatus.isOpen]

/-- What a phase says of the rows, the wallet and its debits. -/
structure At (reference : ℕ) (walletId : WalletId) (others : ℤ) (row : Row) (start : WithdrawDb)
    (phase : Phase) (db : WithdrawDb) : Prop where
  rows : ∃ current, db.rows[reference]? = some current ∧ phase.statuses current ∧
    current.transaction.senderWalletId = walletId ∧ current.transaction.fee = row.transaction.fee
  wallet : (db.bank.wallets walletId).isSome = true
  credit : creditable row.withdrawal.fee db.bank = creditable row.withdrawal.fee start.bank
  held : phase = .held → db = start
  completed : phase = .completed →
    db.bank.lockedOf walletId = others + residue row.withdrawal.amount ∧
      debits reference walletId db.bank = debits reference walletId start.bank + 1
  failed : phase = .failed →
    db.bank.lockedOf walletId = others + residue row.withdrawal.amount ∧
      debits reference walletId db.bank = debits reference walletId start.bank

section Deliver
variable {reference : ℕ} {walletId : WalletId} {others : ℤ} {row : Row} {wallet : Wallet}
  {start db : WithdrawDb} {phase : Phase}

theorem rows_setTransaction (bank : Bank) (f : WithdrawalTransaction → WithdrawalTransaction)
    (hRow : db.rows[reference]? = some row) :
    (({ db with bank := bank } : WithdrawDb).setTransaction reference f).rows[reference]? =
      some { row with transaction := f row.transaction } :=
  getElem?_modify_self _ hRow

theorem start_at (hHeld : Held reference walletId others row wallet start) :
    At reference walletId others row start .held start where
  rows := ⟨row, hHeld.row_eq, hHeld.open_row, hHeld.sender, rfl⟩
  wallet := by rw [hHeld.wallet_eq, Option.isSome_some]
  credit := rfl
  held := fun _ => rfl
  completed := by intro h; cases h
  failed := by intro h; cases h

/-- A committed lock and the two new rows make such a withdrawal. -/
theorem held_of_lockFundsInTx {before after : WithdrawDb} {limits : DailyLimits} {now : Time}
    (hLock : before.lockFundsInTx walletId row.withdrawal.userId row.withdrawal.amount limits now =
      some after)
    (hWallet : before.bank.wallets walletId = some wallet) (hLocked : 0 ≤ wallet.lockedBalance)
    (hOpen : row.withdrawal.status.isOpen = true ∧
      isOpenTransaction row.transaction.status = true)
    (hActive : before.activeWallet row.withdrawal.userId = some walletId)
    (hSender : row.transaction.senderWalletId = walletId) (hAmount : 0 < row.withdrawal.amount)
    (hFee : row.withdrawal.fee = toNumber row.transaction.fee) :
    Held after.rows.length walletId wallet.lockedBalance row
      (wallet.incrementLocked row.withdrawal.amount) { after with rows := after.rows ++ [row] } := by
  simp only [WithdrawDb.lockFundsInTx, hWallet, Option.bind_eq_bind, Option.bind_some,
    Option.pure_def, Option.ite_none_right_eq_some, Option.bind_eq_some_iff,
    Option.some.injEq] at hLock
  obtain ⟨⟨_, hAvailable, _⟩, bank, hUpdate, rfl⟩ := hLock
  obtain ⟨old, hOld, hWallets⟩ := Bank.wallets_walletsUpdate hUpdate
  rw [hWallet, Option.some.injEq] at hOld
  subst hOld
  refine ⟨by simp, hOpen, ?_, hActive, hSender, hAmount, hFee, hLocked, ?_, ?_⟩
  · rw [hWallets, Function.update_self]
  · exact column_value_add hLocked hAmount.le
  · have hNonneg : 0 ≤ toNumber wallet.lockedBalance := value_nonneg.mpr hLocked
    rw [Wallet.available] at hAvailable
    rw [Wallet.incrementLocked_balance]
    linarith

theorem not_settled_of_open {status : WithdrawalStatus} (h : status.isOpen = true) :
    status ≠ .completed ∧ status ≠ .failed := by
  cases status with
  | pending => decide
  | processing => decide
  | completed => cases h
  | failed => cases h

theorem rows_settled (bank : Bank) (f : Withdrawal → Withdrawal)
    (g : WithdrawalTransaction → WithdrawalTransaction) (hRow : db.rows[reference]? = some row) :
    ((({ db with bank := bank } : WithdrawDb).setWithdrawal reference f).setTransaction
      reference g).rows[reference]? = some ⟨f row.withdrawal, g row.transaction⟩ := by
  have hWithdrawal := getElem?_modify_self
    (fun current : Row => { current with withdrawal := f current.withdrawal }) hRow
  exact getElem?_modify_self _ hWithdrawal

theorem markAsSuccess_eq (hHeld : Held reference walletId others row wallet start) :
    markAsSuccess reference start = (debitWithFee reference walletId
      (Wallet.decrementBalance row.withdrawal.amount ∘ unlock row.withdrawal.amount)
      row.withdrawal.amount row.withdrawal.fee start.bank).map fun bank =>
        ((({ start with bank := bank } : WithdrawDb).setWithdrawal reference
          ({ · with status := .completed })).setTransaction reference ({ · with
            status := .completed
            metadata := successMetadata row.withdrawal.method row.transaction.metadata }),
          true) := by
  obtain ⟨hNotCompleted, hNotFailed⟩ := not_settled_of_open hHeld.open_row.1
  simp only [markAsSuccess, hHeld.row_eq, if_neg hNotCompleted, if_neg hNotFailed, hHeld.active,
    WithdrawDb.markAsSuccessTx, Option.bind_eq_bind, Option.bind_some, if_pos hHeld.open_row.1,
    hHeld.wallet_eq, if_pos hHeld.covered, debitWithFee, Option.map_bind, Option.pure_def]
  cases start.bank.walletsUpdate walletId
      (Wallet.decrementBalance row.withdrawal.amount ∘ unlock row.withdrawal.amount) with
  | none => rfl
  | some bank =>
    simp only [Option.bind_some]
    exact Option.map_eq_bind.symm

theorem rejectWithdrawal_eq (hHeld : Held reference walletId others row wallet start) :
    rejectWithdrawal reference start =
      (start.bank.walletsUpdate walletId (unlock row.withdrawal.amount)).map fun bank =>
        ((({ start with bank := bank } : WithdrawDb).setWithdrawal reference
          ({ · with status := .failed })).setTransaction reference ({ · with
            status := .failed
            metadata := failureMetadata row.withdrawal.method row.transaction.metadata }),
          true) := by
  obtain ⟨hNotCompleted, hNotFailed⟩ := not_settled_of_open hHeld.open_row.1
  simp only [rejectWithdrawal, hHeld.row_eq, if_neg hNotCompleted, if_neg hNotFailed,
    hHeld.active, WithdrawDb.rejectWithdrawalTx, Option.bind_eq_bind, Option.bind_some,
    if_pos hHeld.open_row.1, Option.pure_def]
  cases start.bank.walletsUpdate walletId (unlock row.withdrawal.amount) with
  | none => rfl
  | some bank => rfl

theorem at_success_held (hHeld : Held reference walletId others row wallet start) :
    At reference walletId others row start
      (Phase.next (creditable row.withdrawal.fee start.bank) .held true)
      (deliver reference start true) := by
  cases hFee : creditable row.withdrawal.fee start.bank with
  | false =>
    have hNone := @debitWithFee_eq_none reference walletId
      (Wallet.decrementBalance row.withdrawal.amount ∘ unlock row.withdrawal.amount)
      row.withdrawal.amount row.withdrawal.fee start.bank wallet hHeld.wallet_eq hFee
    have hDeliver : deliver reference start true = start := by
      simp [deliver, finalizeWithdrawal, markAsSuccess_eq hHeld, hNone]
    rw [hDeliver]
    exact start_at hHeld
  | true =>
    obtain ⟨bank', hDebit, hLocked, hDebits, hSome, hCredit⟩ :=
      @debitWithFee_eq_some reference walletId
        (Wallet.decrementBalance row.withdrawal.amount ∘ unlock row.withdrawal.amount)
        row.withdrawal.amount row.withdrawal.fee start.bank wallet hHeld.wallet_eq hFee
    have hDeliver : deliver reference start true =
        (({ start with bank := bank' } : WithdrawDb).setWithdrawal reference
          ({ · with status := .completed })).setTransaction reference ({ · with
            status := .completed
            metadata := successMetadata row.withdrawal.method row.transaction.metadata }) := by
      simp [deliver, finalizeWithdrawal, markAsSuccess_eq hHeld, hDebit]
    rw [hDeliver]
    refine ⟨⟨_, rows_settled _ _ _ hHeld.row_eq, ⟨rfl, rfl⟩, hHeld.sender, rfl⟩, hSome, hCredit,
      ?_, ?_, ?_⟩
    · intro h
      cases h
    · intro _
      have hUnlock := lockedBalance_unlock hHeld.others_nonneg hHeld.amount_pos hHeld.locked_eq
      exact ⟨hLocked.trans hUnlock, hDebits⟩
    · intro h
      cases h

theorem at_failure_held (hHeld : Held reference walletId others row wallet start) :
    At reference walletId others row start .failed (deliver reference start false) := by
  obtain ⟨bank', hUpdate⟩ : ∃ bank',
      start.bank.walletsUpdate walletId (unlock row.withdrawal.amount) = some bank' :=
    ⟨_, Bank.walletsUpdate_eq_some.mpr ⟨wallet, hHeld.wallet_eq, rfl⟩⟩
  have hDeliver : deliver reference start false =
      (({ start with bank := bank' } : WithdrawDb).setWithdrawal reference
        ({ · with status := .failed })).setTransaction reference ({ · with
          status := .failed
          metadata := failureMetadata row.withdrawal.method row.transaction.metadata }) := by
    simp [deliver, finalizeWithdrawal, rejectWithdrawal_eq hHeld, hUpdate]
  have hSome := Bank.isSome_walletsUpdate hUpdate
  obtain ⟨hPlatform, _, hLedger⟩ := Bank.rest_walletsUpdate hUpdate
  obtain ⟨old, hOld, hLocked⟩ := Bank.lockedOf_walletsUpdate hUpdate
  rw [hHeld.wallet_eq, Option.some.injEq] at hOld
  subst hOld
  rw [hDeliver]
  refine ⟨⟨_, rows_settled _ _ _ hHeld.row_eq, ⟨rfl, rfl⟩, hHeld.sender, rfl⟩, ?_,
    creditable_congr hPlatform hSome, ?_, ?_, ?_⟩
  · exact (hSome walletId).trans (by rw [hHeld.wallet_eq, Option.isSome_some])
  · intro h
    cases h
  · intro h
    cases h
  · intro _
    have hUnlock := lockedBalance_unlock hHeld.others_nonneg hHeld.amount_pos hHeld.locked_eq
    refine ⟨?_, congrArg (List.countP _) hLedger⟩
    exact (hLocked walletId).trans ((if_pos rfl).trans hUnlock)

/-- `WithdrawService` declines what contradicts its own row, and answers what repeats it. -/
theorem markAsSuccess_completed (hRow : db.rows[reference]? = some row)
    (hStatus : row.withdrawal.status = .completed) :
    markAsSuccess reference db = some (db, true) := by
  simp [markAsSuccess, hRow, hStatus]

theorem markAsSuccess_failed (hRow : db.rows[reference]? = some row)
    (hStatus : row.withdrawal.status = .failed) :
    markAsSuccess reference db = some (db, false) := by
  simp [markAsSuccess, hRow, hStatus]

theorem rejectWithdrawal_failed (hRow : db.rows[reference]? = some row)
    (hStatus : row.withdrawal.status = .failed) :
    rejectWithdrawal reference db = some (db, true) := by
  simp [rejectWithdrawal, hRow, hStatus]

theorem rejectWithdrawal_completed (hRow : db.rows[reference]? = some row)
    (hStatus : row.withdrawal.status = .completed) :
    rejectWithdrawal reference db = some (db, false) := by
  simp [rejectWithdrawal, hRow, hStatus]

theorem at_failure_completed (h : At reference walletId others row start .completed db) :
    At reference walletId others row start .mixed (deliver reference db false) := by
  obtain ⟨current, hRow, ⟨hWithdrawal, hTransaction⟩, hSender, hFee⟩ := h.rows
  obtain ⟨w, hWallet⟩ := Option.isSome_iff_exists.mp h.wallet
  obtain ⟨bank', hUpdate⟩ : ∃ bank', db.bank.walletsUpdate walletId (Wallet.decrementLocked
      (min (toNumber w.lockedBalance) (toNumber current.transaction.amount))) = some bank' :=
    ⟨_, Bank.walletsUpdate_eq_some.mpr ⟨w, hWallet, rfl⟩⟩
  have hDeliver : deliver reference db false = ({ db with bank := bank' } : WithdrawDb).setTransaction
      reference fun t => if t.status = .failed then t else { t with status := .failed } := by
    simp [deliver, finalizeWithdrawal, rejectWithdrawal_completed hRow hWithdrawal, hRow,
      failTransactionWithdrawal, hTransaction, hSender, hWallet, hUpdate]
  have hSome := Bank.isSome_walletsUpdate hUpdate
  obtain ⟨hPlatform, _⟩ := Bank.rest_walletsUpdate hUpdate
  rw [hDeliver]
  refine ⟨⟨_, rows_setTransaction _ _ hRow, .inl ⟨hWithdrawal, ?_⟩, ?_, ?_⟩, ?_, ?_, ?_, ?_, ?_⟩
  · simp [hTransaction]
  · simpa [hTransaction] using hSender
  · simpa [hTransaction] using hFee
  · exact (hSome walletId).trans h.wallet
  · exact (creditable_congr hPlatform hSome).trans h.credit
  all_goals
    intro h
    cases h

theorem at_success_failed (hFeeEq : row.withdrawal.fee = toNumber row.transaction.fee)
    (h : At reference walletId others row start .failed db) :
    At reference walletId others row start
      (Phase.next (creditable row.withdrawal.fee start.bank) .failed true)
      (deliver reference db true) := by
  obtain ⟨current, hRow, ⟨hWithdrawal, hTransaction⟩, hSender, hFee⟩ := h.rows
  obtain ⟨w, hWallet⟩ := Option.isSome_iff_exists.mp h.wallet
  have hComplete : deliver reference db true =
      match debitWithFee reference walletId (Wallet.decrementBalance
        (toNumber current.transaction.amount) ∘ Wallet.decrementLocked
          (min (toNumber w.lockedBalance) (toNumber current.transaction.amount)))
        (toNumber current.transaction.amount) row.withdrawal.fee db.bank with
      | none => db
      | some bank => ({ db with bank := bank } : WithdrawDb).setTransaction reference fun t =>
          if t.status = .completed then t else { t with status := .completed } := by
    have hOpen : ¬ current.transaction.status = .completed := by simp [hTransaction]
    simp only [deliver, finalizeWithdrawal, if_true, markAsSuccess_failed hRow hWithdrawal,
      Option.bind_eq_bind, Option.bind_some, Bool.false_eq_true, if_false, hRow,
      completeTransactionWithdrawal, if_neg hOpen, hSender, hWallet, debitWithFee, hFeeEq, hFee]
    cases db.bank.walletsUpdate walletId (Wallet.decrementBalance
        (toNumber current.transaction.amount) ∘ Wallet.decrementLocked
          (min (toNumber w.lockedBalance) (toNumber current.transaction.amount))) with
    | none => rfl
    | some bank =>
      simp only [Option.bind_some]
      cases creditPlatformFeeInTx (toNumber row.transaction.fee) (some reference)
          (bank.ledgerCreate ⟨some reference, walletId, .debit,
            toUnits (toNumber current.transaction.amount)⟩) with
      | none => rfl
      | some bank => rfl
  rw [← h.credit]
  cases hCredit : creditable row.withdrawal.fee db.bank with
  | false =>
    rw [debitWithFee_eq_none hWallet hCredit] at hComplete
    rw [hComplete]
    exact h
  | true =>
    obtain ⟨bank', hDebit, _, _, hSome, hKept⟩ := @debitWithFee_eq_some reference walletId
      (Wallet.decrementBalance (toNumber current.transaction.amount) ∘ Wallet.decrementLocked
        (min (toNumber w.lockedBalance) (toNumber current.transaction.amount)))
      (toNumber current.transaction.amount) row.withdrawal.fee db.bank w hWallet hCredit
    rw [hDebit] at hComplete
    rw [hComplete]
    refine ⟨⟨_, rows_setTransaction _ _ hRow, .inr ⟨hWithdrawal, ?_⟩, ?_, ?_⟩, hSome,
      hKept.trans h.credit, ?_, ?_, ?_⟩
    · simp [hTransaction]
    · simpa [hTransaction] using hSender
    · simpa [hTransaction] using hFee
    all_goals
      intro h
      cases h

/-- What repeats the outcome of `WithdrawService`'s row changes nothing, nor does anything once
the rows disagree. -/
theorem deliver_success_completed (h : At reference walletId others row start .completed db) :
    deliver reference db true = db := by
  obtain ⟨current, hRow, ⟨hWithdrawal, _⟩, _⟩ := h.rows
  simp [deliver, finalizeWithdrawal, markAsSuccess_completed hRow hWithdrawal]

theorem deliver_failure_failed (h : At reference walletId others row start .failed db) :
    deliver reference db false = db := by
  obtain ⟨current, hRow, ⟨hWithdrawal, _⟩, _⟩ := h.rows
  simp [deliver, finalizeWithdrawal, rejectWithdrawal_failed hRow hWithdrawal]

theorem deliver_mixed (h : At reference walletId others row start .mixed db) (success : Bool) :
    deliver reference db success = db := by
  obtain ⟨current, hRow, hStatuses, _⟩ := h.rows
  rcases hStatuses with ⟨hWithdrawal, hTransaction⟩ | ⟨hWithdrawal, hTransaction⟩
  · cases success with
    | true => simp [deliver, finalizeWithdrawal, markAsSuccess_completed hRow hWithdrawal]
    | false => simp [deliver, finalizeWithdrawal, rejectWithdrawal_completed hRow hWithdrawal,
        hRow, failTransactionWithdrawal, hTransaction]
  · cases success with
    | true => simp [deliver, finalizeWithdrawal, markAsSuccess_failed hRow hWithdrawal, hRow,
        completeTransactionWithdrawal, hTransaction]
    | false => simp [deliver, finalizeWithdrawal, rejectWithdrawal_failed hRow hWithdrawal]

theorem at_deliver (hHeld : Held reference walletId others row wallet start)
    (h : At reference walletId others row start phase db) (success : Bool) :
    At reference walletId others row start
      (phase.next (creditable row.withdrawal.fee start.bank) success)
      (deliver reference db success) := by
  cases phase with
  | held =>
    rw [h.held rfl]
    cases success with
    | true => exact at_success_held hHeld
    | false => exact at_failure_held hHeld
  | completed =>
    cases success with
    | true =>
      rw [deliver_success_completed h]
      exact h
    | false => exact at_failure_completed h
  | failed =>
    cases success with
    | true => exact at_success_failed hHeld.fee_eq h
    | false =>
      rw [deliver_failure_failed h]
      exact h
  | mixed =>
    rw [deliver_mixed h]
    cases success <;> exact h

theorem at_deliverAll (hHeld : Held reference walletId others row wallet start)
    (events : List Bool) :
    At reference walletId others row start
      (events.foldl (Phase.next (creditable row.withdrawal.fee start.bank)) .held)
      (deliverAll reference events start) := by
  induction events using List.reverseRecOn with
  | nil => exact start_at hHeld
  | append_singleton events event ih =>
    rw [deliverAll, List.foldl_append, List.foldl_append]
    exact at_deliver hHeld ih event

theorem ownPart_of_settled {current : Row} (hRow : db.rows[reference]? = some current)
    (h : phase.statuses current) (hPhase : phase ≠ .held) : ownPart reference db = 0 := by
  have hClosed : current.withdrawal.status.isOpen = false := by
    cases phase with
    | held => exact absurd rfl hPhase
    | completed => simp [h.1, WithdrawalStatus.isOpen]
    | failed => simp [h.1, WithdrawalStatus.isOpen]
    | mixed => rcases h with h | h <;> simp [h.1, WithdrawalStatus.isOpen]
  simp [ownPart, hRow, hClosed]

theorem othersPart_start (hHeld : Held reference walletId others row wallet start) :
    othersPart reference walletId start = others := by
  rw [othersPart, Bank.lockedOf_eq hHeld.wallet_eq, hHeld.locked_eq, ownPart, hHeld.row_eq]
  simp only [if_pos hHeld.open_row.1, add_sub_cancel_right]

/-- The other holdings' part in a phase the two finalisers agree on. -/
theorem othersPart_at (hHeld : Held reference walletId others row wallet start)
    (h : At reference walletId others row start phase db) (hPhase : phase ≠ .mixed) :
    othersPart reference walletId db =
      others + if phase = .held then 0 else residue row.withdrawal.amount := by
  obtain ⟨current, hRow, hStatuses, _⟩ := h.rows
  cases phase with
  | held =>
    rw [h.held rfl, othersPart_start hHeld, if_pos rfl, add_zero]
  | completed =>
    rw [othersPart, ownPart_of_settled hRow hStatuses (by decide), (h.completed rfl).1, sub_zero,
      if_neg (by decide)]
  | failed =>
    rw [othersPart, ownPart_of_settled hRow hStatuses (by decide), (h.failed rfl).1, sub_zero,
      if_neg (by decide)]
  | mixed => exact absurd rfl hPhase

theorem debits_at (h : At reference walletId others row start phase db) (hPhase : phase ≠ .mixed) :
    debits reference walletId db.bank ≤ debits reference walletId start.bank + 1 := by
  cases phase with
  | held => rw [h.held rfl]; omega
  | completed => exact (h.completed rfl).2.le
  | failed => rw [(h.failed rfl).2]; omega
  | mixed => exact absurd rfl hPhase

theorem residue_eq_zero_iff (amount : ℚ) :
    residue amount = 0 ↔ Int.fract (amount * 10 ^ 8) ≠ 1 / 2 := by
  unfold residue
  split <;> simp_all

/-- The events of one withdrawal leave everything in order exactly when no success that can be
carried out meets a failure, and a settled amount does not fall on half a unit. -/
theorem settled_once_iff (hHeld : Held reference walletId others row wallet start)
    (events : List Bool) :
    Kept reference walletId start events ↔
      ¬ conflicting (creditable row.withdrawal.fee start.bank) events ∧
        (settles (creditable row.withdrawal.fee start.bank) events →
          Int.fract (row.withdrawal.amount * 10 ^ 8) ≠ 1 / 2) := by
  have hAt := at_deliverAll hHeld
  have hRun := @Phase.run_eq_iff (creditable row.withdrawal.fee start.bank)
  generalize creditable row.withdrawal.fee start.bank = canCredit at hAt hRun
  constructor
  · rintro ⟨hEvery, hAgree⟩
    obtain ⟨current, hRow, hStatuses, _⟩ := (hAt events).rows
    have hNotMixed : events.foldl (Phase.next canCredit) .held ≠ .mixed := by
      rw [rowsAgree, hRow] at hAgree
      exact (Phase.agrees_iff hStatuses).mp hAgree
    refine ⟨fun hConflict => hNotMixed ((hRun events).2.1.mpr hConflict), ?_⟩
    intro hSettles
    have hLeft : events.foldl (Phase.next canCredit) .held ≠ .held :=
      fun hSame => (hRun events).1.mp hSame hSettles
    have hOthers := (hEvery events (List.prefix_refl events)).2
    rw [othersPart_at hHeld (hAt events) hNotMixed, othersPart_start hHeld, if_neg hLeft] at hOthers
    exact (residue_eq_zero_iff _).mp (by omega)
  · rintro ⟨hNoConflict, hWhole⟩
    have hNotMixed : ∀ seen, seen <+: events →
        seen.foldl (Phase.next canCredit) .held ≠ .mixed := by
      intro seen hSeen hMixed
      obtain ⟨hSuccess, hFailure, hCredit⟩ := (hRun seen).2.1.mp hMixed
      exact hNoConflict ⟨hSeen.subset hSuccess, hSeen.subset hFailure, hCredit⟩
    refine ⟨?_, ?_⟩
    · intro seen hSeen
      refine ⟨debits_at (hAt seen) (hNotMixed seen hSeen), ?_⟩
      rw [othersPart_at hHeld (hAt seen) (hNotMixed seen hSeen), othersPart_start hHeld]
      split
      · rw [add_zero]
      · rename_i hLeft
        have hSettles : settles canCredit events := by
          have hSeenSettles : settles canCredit seen := by
            by_contra hNot
            exact hLeft ((hRun seen).1.mpr hNot)
          rcases hSeenSettles with hFailure | ⟨hSuccess, hCredit⟩
          · exact .inl (hSeen.subset hFailure)
          · exact .inr ⟨hSeen.subset hSuccess, hCredit⟩
        rw [(residue_eq_zero_iff _).mpr (hWhole hSettles), add_zero]
    · obtain ⟨current, hRow, hStatuses, _⟩ := (hAt events).rows
      rw [rowsAgree, hRow]
      exact (Phase.agrees_iff hStatuses).mpr (hNotMixed events (List.prefix_refl events))

end Deliver

/-! A withdrawal of 10 FARM on a wallet that has 20 FARM locked for something else. -/

namespace Sample

def row : Row where
  withdrawal := ⟨0, 10, 0, 10, .mobileMoney, none, none, none, none, .processing, 0⟩
  transaction := ⟨0, .processing, toUnits 10, 0, toUnits 10,
    ⟨some .paystack, none, none, none, none, 0, "", "", none, none, none, false, none⟩, 0⟩

def wallet : Wallet := ⟨toUnits 100, toUnits 30, false⟩

def start : WithdrawDb where
  bank := ⟨fun id => if id = 0 then some wallet else none, none, [], []⟩
  activeWallet := fun _ => some 0
  userNames := fun _ => ⟨none, none⟩
  rows := [row]

theorem held : Held 0 0 (toUnits 20) row wallet start where
  row_eq := rfl
  open_row := by decide
  wallet_eq := rfl
  active := rfl
  sender := rfl
  amount_pos := by decide +kernel
  fee_eq := by decide +kernel
  others_nonneg := by decide +kernel
  locked_eq := by decide +kernel
  covered := by decide +kernel

end Sample

/-- Two success events settle the withdrawal once. -/
theorem repeated_success_settles_once : Kept 0 0 Sample.start [true, true] :=
  (settled_once_iff Sample.held [true, true]).mpr ⟨by simp [conflicting], fun _ => by decide +kernel⟩

/-- A failure after a success takes 10 FARM of the other holdings' lock, and the rows disagree. -/
theorem conflicting_events_unlock_others :
    Held 0 0 (toUnits 20) Sample.row Sample.wallet Sample.start ∧
      rowsAgree 0 (deliverAll 0 [true, false] Sample.start) = false ∧
      othersPart 0 0 (deliverAll 0 [true, false] Sample.start) = Wallets.toUnits 10 ∧
      ¬ Kept 0 0 Sample.start [true, false] := by
  have hDisagree : rowsAgree 0 (deliverAll 0 [true, false] Sample.start) = false := by
    decide +kernel
  refine ⟨Sample.held, hDisagree, by decide +kernel, ?_⟩
  rintro ⟨_, hAgree⟩
  rw [hDisagree] at hAgree
  cases hAgree

end FarmBackend.FinalizeWithdrawal
