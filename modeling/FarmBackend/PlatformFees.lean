import FarmBackend.Interleaving
import FarmBackend.Withdrawals

/-!
# The platform's fee on withdrawals (`withdraw/withdraw.service.ts`)

`markAsSuccess` and `reconcileCompletedPlatformFees`, any number of each at once, while the super
admin and its active wallet may change. Inside a transaction each read is a step, and what it writes
is seen when it commits. Row locks only make a step wait.
-/

namespace FarmBackend.PlatformFees
open Interleaving Decimal Wallets Withdrawals

set_option autoImplicit false

/-- What `reconcileCompletedPlatformFees` selects of a transaction. -/
structure CompletedFee where
  reference : ℕ
  fee : ℤ

/-- `seen` is history: the withdrawals that a call of `markAsSuccess` has completed, and those that
a repair run has listed that committed. -/
structure Store where
  db : WithdrawDb
  seen : List ℕ

/-- A credit for the withdrawal, on any wallet. -/
def isFeeCredit (reference : ℕ) (entry : LedgerEntry) : Bool :=
  entry.transactionId == some reference && entry.entryType == .credit

def credits (reference : ℕ) (ledger : List LedgerEntry) : ℕ :=
  ledger.countP (isFeeCredit reference)

def feeEntry (walletId : WalletId) (c : CompletedFee) : LedgerEntry :=
  ⟨some c.reference, walletId, .credit, c.fee⟩

/-- The updates and inserts of a repair run. -/
def creditAll (walletId : WalletId) : List CompletedFee → Bank → Option Bank
  | [], bank => some bank
  | c :: rest, bank => do
    let bank ← bank.creditWalletInTx walletId (toNumber c.fee) (some c.reference)
    creditAll walletId rest bank

def completedFee? (db : WithdrawDb) (reference : ℕ) : Option CompletedFee := do
  let row ← db.rows[reference]?
  if row.transaction.status = .completed ∧ 0 < row.transaction.fee ∧
      row.transaction.metadata.provider = some .paystack then
    return ⟨reference, row.transaction.fee⟩
  else none

def completedFees (db : WithdrawDb) : List CompletedFee :=
  (List.range db.rows.length).filterMap (completedFee? db)

/-- The database with another answer to who the super admin is. -/
def withPlatform (platform : Option WalletId) (db : WithdrawDb) : WithdrawDb :=
  { db with bank := { db.bank with platform := platform } }

inductive Request where
  | markAsSuccess (reference : ℕ)
  | reconcileCompletedPlatformFees
  | changeSuperAdmin

/-- A running call, named after its next step. A repair run in `credit` has the `todo` ahead of it
and has yet to commit the credits for `credited`; with nothing ahead it commits. -/
inductive Call where
  | markAsSuccess (reference : ℕ)
  | findTransaction (reference : ℕ) (withdrawal : Withdrawal)
  | findWallet (reference : ℕ) (withdrawal : Withdrawal) (transaction : WithdrawalTransaction)
  | findPlatform (reference : ℕ) (withdrawal : Withdrawal) (transaction : WithdrawalTransaction)
      (walletId : WalletId)
  | finalize (reference : ℕ) (withdrawal : Withdrawal) (transaction : WithdrawalTransaction)
      (walletId : WalletId) (platform : Option WalletId)
  | reconcileCompletedPlatformFees
  | listCompleted (walletId : WalletId)
  | credit (walletId : WalletId) (todo : List CompletedFee) (listed : List ℕ)
      (credited : List CompletedFee)
  | changeSuperAdmin
  | done

structure Outcome where
  platform : Option WalletId

def enter : Request → Call
  | .markAsSuccess reference => .markAsSuccess reference
  | .reconcileCompletedPlatformFees => .reconcileCompletedPlatformFees
  | .changeSuperAdmin => .changeSuperAdmin

def step (o : Outcome) (s : Store) : Call → Option (Store × Call)
  | .markAsSuccess reference =>
    match s.db.rows[reference]? with
    | none => some (s, .done)
    | some row =>
      if row.withdrawal.status.isOpen then
        some (s, .findTransaction reference row.withdrawal)
      else some (s, .done)
  | .findTransaction reference withdrawal => do
    let row ← s.db.rows[reference]?
    return (s, .findWallet reference withdrawal row.transaction)
  | .findWallet reference withdrawal transaction =>
    match s.db.activeWallet withdrawal.userId with
    | none => some (s, .done)
    | some walletId => some (s, .findPlatform reference withdrawal transaction walletId)
  | .findPlatform reference withdrawal transaction walletId =>
    some (s, .finalize reference withdrawal transaction walletId s.db.bank.platform)
  | .finalize reference withdrawal transaction walletId platform => do
    let (db, claimed) ← (withPlatform platform s.db).markAsSuccessTx reference withdrawal
      transaction walletId
    return (⟨withPlatform s.db.bank.platform db,
      if claimed then reference :: s.seen else s.seen⟩, .done)
  | .reconcileCompletedPlatformFees =>
    match s.db.bank.platform with
    | none => some (s, .done)
    | some walletId => some (s, .listCompleted walletId)
  | .listCompleted walletId =>
    let completed := completedFees s.db
    some (s, .credit walletId completed (completed.map CompletedFee.reference) [])
  | .credit walletId [] listed credited => do
    let bank ← creditAll walletId credited s.db.bank
    return (⟨{ s.db with bank := bank }, listed ++ s.seen⟩, .done)
  | .credit walletId (c :: todo) listed credited =>
    -- The lookup sees the run's own entries too.
    if c.fee ≤ 0 ∨ (s.db.bank.ledger ++ credited.map (feeEntry walletId)).any fun entry =>
        isFeeCredit c.reference entry && entry.walletId == walletId then
      some (s, .credit walletId todo listed credited)
    else some (s, .credit walletId todo listed (credited ++ [c]))
  | .changeSuperAdmin => some ({ s with db := withPlatform o.platform s.db }, .done)
  | .done => none

def program : Program Store Call Request Outcome := ⟨enter, step⟩

/-! ### Exactly once -/

/-- No fee is credited twice, a credit is of the fee, and there is one for each withdrawal that was
completed or repaired. -/
structure PaidOnce (s : Store) : Prop where
  at_most : ∀ reference row, s.db.rows[reference]? = some row →
    credits reference s.db.bank.ledger ≤ 1
  amount : ∀ reference row entry, s.db.rows[reference]? = some row → entry ∈ s.db.bank.ledger →
    isFeeCredit reference entry = true → entry.amount = row.transaction.fee
  seen : ∀ reference row, s.db.rows[reference]? = some row → reference ∈ s.seen →
    0 < row.transaction.fee → credits reference s.db.bank.ledger = 1

/-- When a repair run commits, nobody has credited what it is about to credit: neither another run
since its lookup, nor anybody before on a wallet that was the platform's then. -/
def Uncredited : Guard Store Call Outcome := fun _ s call =>
  match call with
  | .credit _ [] _ credited => ∀ c ∈ credited, credits c.reference s.db.bank.ledger = 0
  | _ => True

instance : ∀ o s call, Decidable (Uncredited o s call) := by
  intro o s call
  unfold Uncredited
  split <;> infer_instance

/-- One withdrawal and the ledger. The two rows were created with one fee. -/
structure RowSound (ledger : List LedgerEntry) (reference : ℕ) (row : Row) : Prop where
  fee_eq : row.withdrawal.fee = toNumber row.transaction.fee
  incomplete : row.withdrawal.status.isOpen = true → row.transaction.status ≠ .completed
  unpaid : row.withdrawal.status.isOpen = true → credits reference ledger = 0
  at_most : credits reference ledger ≤ 1
  amount : ∀ entry ∈ ledger, isFeeCredit reference entry = true →
    entry.amount = row.transaction.fee

def Sound (db : WithdrawDb) : Prop :=
  ∀ reference row, db.rows[reference]? = some row → RowSound db.bank.ledger reference row

def Seen (s : Store) : Prop :=
  ∀ reference row, s.db.rows[reference]? = some row → reference ∈ s.seen →
    0 < row.transaction.fee → 1 ≤ credits reference s.db.bank.ledger

/-- What no step takes back. -/
def KeepsRow (row row' : Row) : Prop :=
  row'.withdrawal.fee = row.withdrawal.fee ∧ row'.transaction.fee = row.transaction.fee ∧
    (row.transaction.status = .completed → row'.transaction.status = .completed)

structure Grows (db db' : WithdrawDb) : Prop where
  rows : Rows.Related KeepsRow db.rows db'.rows
  ledger : ∃ new, db'.bank.ledger = db.bank.ledger ++ new

def Listed (db : WithdrawDb) (c : CompletedFee) : Prop :=
  0 < c.fee ∧ ∃ row, db.rows[c.reference]? = some row ∧ row.transaction.status = .completed ∧
    row.transaction.fee = c.fee

/-- What a call has read and still holds. -/
def Knows (db : WithdrawDb) : Call → Prop
  | .findTransaction reference withdrawal | .findWallet reference withdrawal _
  | .findPlatform reference withdrawal _ _ | .finalize reference withdrawal _ _ _ =>
    ∃ row, db.rows[reference]? = some row ∧ row.withdrawal.fee = withdrawal.fee
  | .credit _ todo listed credited =>
    (∀ c ∈ credited ++ todo, Listed db c) ∧
      ((credited ++ todo).map CompletedFee.reference).Nodup ∧
      ∀ reference ∈ listed, reference ∈ (credited ++ todo).map CompletedFee.reference ∨
        1 ≤ credits reference db.bank.ledger
  | _ => True

/-! ### The ledger -/

section Ledger
variable {reference : ℕ} {ledger new : List LedgerEntry} {row row' : Row} {walletId : WalletId}
  {bank bank' : Bank} {credited : List CompletedFee}

theorem credits_append (reference : ℕ) (ledger new : List LedgerEntry) :
    credits reference (ledger ++ new) = credits reference ledger + credits reference new :=
  List.countP_append

theorem credits_debit (other : Option ℕ) (amount : ℤ) (new : List LedgerEntry) :
    credits reference (⟨other, walletId, .debit, amount⟩ :: new) = credits reference new := by
  simp [credits, isFeeCredit]

theorem credits_feeEntries (reference : ℕ) (walletId : WalletId) (credited : List CompletedFee) :
    credits reference (credited.map (feeEntry walletId)) =
      (credited.map CompletedFee.reference).count reference := by
  rw [credits, List.countP_map, List.count, List.countP_map]
  apply List.countP_congr
  intro c _
  simp [isFeeCredit, feeEntry]

/-- A credit goes with a row that is closed and has none, and is of its fee. -/
theorem rowSound_append (h : RowSound ledger reference row)
    (hOnce : credits reference ledger + credits reference new ≤ 1)
    (hClosed : credits reference new ≠ 0 → row.withdrawal.status.isOpen = false)
    (hAmount : ∀ entry ∈ new, isFeeCredit reference entry = true →
      entry.amount = row.transaction.fee) : RowSound (ledger ++ new) reference row := by
  refine ⟨h.fee_eq, h.incomplete, ?_, ?_, ?_⟩
  · intro hOpen
    rw [credits_append, h.unpaid hOpen, Nat.zero_add]
    by_contra hSome
    exact Bool.false_ne_true ((hClosed hSome).symm.trans hOpen)
  · rw [credits_append]
    exact hOnce
  · intro entry hMem hCredit
    rcases List.mem_append.mp hMem with hOld | hNew
    · exact h.amount entry hOld hCredit
    · exact hAmount entry hNew hCredit

theorem rowSound_closed (h : RowSound ledger reference row)
    (hFee : row'.withdrawal.fee = row.withdrawal.fee)
    (hUnits : row'.transaction.fee = row.transaction.fee)
    (hClosed : row'.withdrawal.status.isOpen = false) : RowSound ledger reference row' := by
  refine ⟨?_, ?_, ?_, h.at_most, ?_⟩
  · rw [hFee, hUnits, h.fee_eq]
  · intro hOpen
    exact absurd (hClosed.symm.trans hOpen) Bool.false_ne_true
  · intro hOpen
    exact absurd (hClosed.symm.trans hOpen) Bool.false_ne_true
  · rw [hUnits]
    exact h.amount

/-- Entries for other transactions do not matter. -/
theorem rowSound_other (h : RowSound ledger reference row) (hNone : credits reference new = 0) :
    RowSound (ledger ++ new) reference row := by
  apply rowSound_append h
  · rw [hNone, Nat.add_zero]
    exact h.at_most
  · intro hSome
    exact absurd hNone hSome
  · intro entry hMem hCredit
    exact absurd hCredit (List.countP_eq_zero.mp hNone entry hMem)

theorem ledger_creditWalletInTx {amount : ℚ} {transactionId : Option ℕ} (hPos : 0 < amount)
    (h : bank.creditWalletInTx walletId amount transactionId = some bank') :
    bank'.ledger = bank.ledger ++ [⟨transactionId, walletId, .credit, toUnits amount⟩] := by
  simp only [Bank.creditWalletInTx, if_pos hPos, Option.bind_eq_bind, Option.bind_eq_some_iff,
    Option.pure_def, Option.some.injEq] at h
  obtain ⟨updated, hUpdate, rfl⟩ := h
  rw [Bank.ledgerCreate, (Bank.rest_walletsUpdate hUpdate).2.2]

theorem ledger_creditAll (hPos : ∀ c ∈ credited, 0 < c.fee)
    (h : creditAll walletId credited bank = some bank') :
    bank'.ledger = bank.ledger ++ credited.map (feeEntry walletId) := by
  induction credited generalizing bank with
  | nil =>
    cases h
    rw [List.map_nil, List.append_nil]
  | cons c rest ih =>
    simp only [creditAll, Option.bind_eq_bind, Option.bind_eq_some_iff] at h
    obtain ⟨next, hCredit, hRest⟩ := h
    have hFirst := ledger_creditWalletInTx (value_pos.mpr (hPos c (by simp))) hCredit
    have hOthers := ih (fun c hMem => hPos c (List.mem_cons_of_mem _ hMem)) hRest
    rw [hOthers, hFirst, toUnits_toNumber, List.append_assoc, List.singleton_append, List.map_cons,
      feeEntry]

end Ledger

/-! ### The transactions -/

section Transactions
variable {db db' : WithdrawDb} {reference : ℕ} {withdrawal : Withdrawal}
  {transaction : WithdrawalTransaction} {walletId : WalletId} {platform : Option WalletId}
  {claimed : Bool} {call : Call} {credited : List CompletedFee} {bank : Bank}

/-- The fee's entry, when there is a fee. -/
def FeeEntries (reference : ℕ) (fee : ℚ) (new : List LedgerEntry) : Prop :=
  (0 < fee ∧ ∃ owner, new = [⟨some reference, owner, .credit, toUnits fee⟩]) ∨
    (¬ 0 < fee ∧ new = [])

theorem ledger_creditPlatformFeeInTx {fee : ℚ} {bank bank' : Bank}
    (h : creditPlatformFeeInTx fee (some reference) bank = some bank') :
    ∃ new, bank'.ledger = bank.ledger ++ new ∧ FeeEntries reference fee new := by
  unfold creditPlatformFeeInTx Bank.creditPlatformInTx at h
  split at h
  · rename_i hPos
    split at h
    · cases h
    · rename_i owner _
      exact ⟨_, ledger_creditWalletInTx hPos h, .inl ⟨hPos, owner, rfl⟩⟩
  · rename_i hNone
    cases h
    exact ⟨[], (List.append_nil _).symm, .inr ⟨hNone, rfl⟩⟩

/-- The row of a withdrawal that `markAsSuccess` has completed. -/
def completedRow (withdrawal : Withdrawal) (transaction : WithdrawalTransaction) (row : Row) : Row :=
  ⟨{ row.withdrawal with status := .completed }, { row.transaction with
    status := .completed
    metadata := successMetadata withdrawal.method transaction.metadata }⟩

theorem markAsSuccessTx_cases
    (h : db.markAsSuccessTx reference withdrawal transaction walletId = some (db', claimed)) :
    (claimed = false ∧ db' = db) ∨ (claimed = true ∧ ∃ row new,
      db.rows[reference]? = some row ∧ row.withdrawal.status.isOpen = true ∧
      db'.rows = db.rows.modify reference (completedRow withdrawal transaction) ∧
      db'.bank.ledger = db.bank.ledger ++
        ⟨some reference, walletId, .debit, toUnits withdrawal.amount⟩ :: new ∧
      FeeEntries reference withdrawal.fee new) := by
  simp only [WithdrawDb.markAsSuccessTx, Option.bind_eq_bind, Option.bind_eq_some_iff] at h
  obtain ⟨row, hRow, h⟩ := h
  split at h
  · rename_i hOpen
    simp only [Option.bind_eq_some_iff, Option.ite_none_right_eq_some, Option.pure_def,
      Option.some.injEq, Prod.mk.injEq] at h
    obtain ⟨_, -, -, debited, hDebit, paid, hFee, rfl, rfl⟩ := h
    obtain ⟨new, hLedger, hNew⟩ := ledger_creditPlatformFeeInTx hFee
    refine .inr ⟨rfl, row, new, hRow, hOpen, ?_, ?_, hNew⟩
    · simp only [WithdrawDb.setTransaction, WithdrawDb.setWithdrawal, List.modify_modify_eq]
      rfl
    · have hDebited : debited.ledger = db.bank.ledger := (Bank.rest_walletsUpdate hDebit).2.2
      simp only [WithdrawDb.setTransaction, WithdrawDb.setWithdrawal, hLedger, Bank.ledgerCreate,
        hDebited, List.append_assoc, List.singleton_append]
  · cases h
    exact .inl ⟨rfl, rfl⟩

theorem grows_refl (db : WithdrawDb) : Grows db db :=
  ⟨Rows.Related.refl (fun _ => ⟨rfl, rfl, id⟩) _, [], (List.append_nil _).symm⟩

theorem grows_finalize
    (h : (withPlatform platform db).markAsSuccessTx reference withdrawal transaction walletId =
      some (db', claimed)) : Grows db (withPlatform db.bank.platform db') := by
  obtain ⟨rfl, rfl⟩ | ⟨-, row, new, hRow, -, hRows, hLedger, -⟩ := markAsSuccessTx_cases h
  · exact ⟨(grows_refl db).rows, (grows_refl db).ledger⟩
  · refine ⟨?_, _, hLedger⟩
    have hRows' : (withPlatform db.bank.platform db').rows =
        db.rows.modify reference (completedRow withdrawal transaction) := hRows
    rw [hRows']
    apply Rows.related_modify (fun _ => ⟨rfl, rfl, id⟩)
    intro row _
    exact ⟨rfl, rfl, fun _ => rfl⟩

theorem listed_grows {c : CompletedFee} (h : Grows db db') (hListed : Listed db c) :
    Listed db' c := by
  obtain ⟨hPos, row, hRow, hStatus, hFee⟩ := hListed
  obtain ⟨row', hRow', -, hUnits, hCompleted⟩ := h.rows.forward hRow
  exact ⟨hPos, row', hRow', hCompleted hStatus, hUnits.trans hFee⟩

theorem credits_grows (h : Grows db db') (reference : ℕ) :
    credits reference db.bank.ledger ≤ credits reference db'.bank.ledger := by
  obtain ⟨new, hLedger⟩ := h.ledger
  rw [hLedger, credits_append]
  exact Nat.le_add_right _ _

theorem knows_grows (h : Grows db db') (hKnows : Knows db call) : Knows db' call := by
  cases call with
  | findTransaction reference withdrawal | findWallet reference withdrawal _
  | findPlatform reference withdrawal _ _ | finalize reference withdrawal _ _ _ =>
    obtain ⟨row, hRow, hFee⟩ := hKnows
    obtain ⟨row', hRow', hSame, -⟩ := h.rows.forward hRow
    exact ⟨row', hRow', hSame.trans hFee⟩
  | credit walletId todo listed credited =>
    obtain ⟨hListed, hNodup, hPaid⟩ := hKnows
    refine ⟨fun c hMem => listed_grows h (hListed c hMem), hNodup, ?_⟩
    intro reference hMem
    rcases hPaid reference hMem with hHeld | hCredit
    · exact .inl hHeld
    · exact .inr (Nat.le_trans hCredit (credits_grows h reference))
  | markAsSuccess _ | reconcileCompletedPlatformFees | listCompleted _ | changeSuperAdmin
  | done => trivial

/-- The claim of the row is what makes the credit the first one. -/
theorem sound_finalize (hSound : Sound db)
    (hKnows : Knows db (.finalize reference withdrawal transaction walletId platform))
    (h : (withPlatform platform db).markAsSuccessTx reference withdrawal transaction walletId =
      some (db', claimed)) :
    Sound (withPlatform db.bank.platform db') ∧ (claimed = true → ∀ row,
      db'.rows[reference]? = some row → 0 < row.transaction.fee →
      1 ≤ credits reference db'.bank.ledger) := by
  obtain ⟨rfl, rfl⟩ | ⟨-, row, new, hRow, hOpen, hRows, hLedger, hNew⟩ := markAsSuccessTx_cases h
  · refine ⟨hSound, ?_⟩
    intro hClaimed
    cases hClaimed
  · obtain ⟨known, hKnown, hFee⟩ := hKnows
    have hOld : db.rows[reference]? = some row := hRow
    obtain rfl : known = row := Option.some.inj (hKnown.symm.trans hOld)
    have hRowSound := hSound reference known hOld
    have hEntries : credits reference new ≤ 1 ∧ (0 < known.transaction.fee →
          credits reference new = 1) ∧ (∀ other, other ≠ reference → credits other new = 0) ∧
        ∀ entry ∈ new, entry.amount = known.transaction.fee := by
      rw [← hFee, hRowSound.fee_eq] at hNew
      rcases hNew with ⟨-, owner, rfl⟩ | ⟨hNone, rfl⟩
      · rw [toUnits_toNumber]
        refine ⟨by simp [credits, isFeeCredit], fun _ => by simp [credits, isFeeCredit], ?_, ?_⟩
        · intro other hOther
          simp [credits, isFeeCredit, Ne.symm hOther]
        · intro entry hMem
          rw [List.mem_singleton.mp hMem]
      · refine ⟨Nat.zero_le _, fun hPos => absurd (value_pos.mpr hPos) hNone, fun _ _ => rfl, ?_⟩
        intro entry hMem
        cases hMem
    obtain ⟨hAtMost, hExact, hOthers, hAmounts⟩ := hEntries
    have hDebit : ∀ other, credits other
        (⟨some reference, walletId, .debit, toUnits withdrawal.amount⟩ :: new) =
          credits other new := fun other => credits_debit _ _ _
    refine ⟨?_, ?_⟩
    · intro other row' hRow'
      have hAt : (db.rows.modify reference (completedRow withdrawal transaction))[other]? =
          some row' := hRows ▸ hRow'
      have hAfter : (withPlatform db.bank.platform db').bank.ledger = db.bank.ledger ++
          ⟨some reference, walletId, .debit, toUnits withdrawal.amount⟩ :: new := hLedger
      rw [hAfter]
      rcases Rows.getElem?_modify_cases hAt with ⟨rfl, old, hOld', rfl⟩ | ⟨hNe, hOther⟩
      · obtain rfl : known = old := Option.some.inj (hOld.symm.trans hOld')
        have hClosed : RowSound db.bank.ledger reference
            (completedRow withdrawal transaction known) :=
          rowSound_closed hRowSound rfl rfl rfl
        apply rowSound_append hClosed
        · rw [hDebit, hRowSound.unpaid hOpen, Nat.zero_add]
          exact hAtMost
        · intro _
          rfl
        · intro entry hMem hCredit
          rcases List.mem_cons.mp hMem with rfl | hNewEntry
          · simp [isFeeCredit] at hCredit
          · exact hAmounts entry hNewEntry
      · apply rowSound_other (hSound other row' hOther)
        rw [hDebit, hOthers other (Ne.symm hNe)]
    · intro _ row' hRow' hPos
      have hAt : (db.rows.modify reference (completedRow withdrawal transaction))[reference]? =
          some row' := hRows ▸ hRow'
      rw [Rows.getElem?_modify_self _ hOld, Option.some.injEq] at hAt
      subst hAt
      have hAfter : db'.bank.ledger = db.bank.ledger ++
          ⟨some reference, walletId, .debit, toUnits withdrawal.amount⟩ :: new := hLedger
      rw [hAfter, credits_append, hDebit, hExact hPos]
      exact Nat.le_add_left _ _

/-- After a commit there is one credit exactly if what is credited had none. -/
theorem once_commit_iff {ledger : List LedgerEntry} (hAtMost : credits reference ledger ≤ 1)
    (hNodup : (credited.map CompletedFee.reference).Nodup) :
    credits reference ledger + credits reference (credited.map (feeEntry walletId)) ≤ 1 ↔
      (reference ∈ credited.map CompletedFee.reference → credits reference ledger = 0) := by
  rw [credits_feeEntries]
  by_cases hIn : reference ∈ credited.map CompletedFee.reference
  · have hOne := List.count_eq_one_of_mem hNodup hIn
    constructor
    · intro hBoth _
      omega
    · intro hNone
      rw [hNone hIn, hOne]
  · rw [List.count_eq_zero_of_not_mem hIn]
    exact ⟨fun _ hMem => absurd hMem hIn, fun _ => hAtMost⟩

/-- The transactions of a repair run are completed, so nobody claims them any more. -/
theorem sound_commit (hSound : Sound db) (hListed : ∀ c ∈ credited, Listed db c)
    (hNodup : (credited.map CompletedFee.reference).Nodup)
    (hOk : ∀ c ∈ credited, credits c.reference db.bank.ledger = 0)
    (h : creditAll walletId credited db.bank = some bank) : Sound { db with bank := bank } := by
  intro reference row hRow
  have hLedger := ledger_creditAll (fun c hMem => (hListed c hMem).1) h
  have hOld : db.rows[reference]? = some row := hRow
  have hCount := credits_feeEntries reference walletId credited
  have hFound : ∀ c ∈ credited, c.reference = reference →
      row.transaction.status = .completed ∧ row.transaction.fee = c.fee := by
    rintro c hMem rfl
    obtain ⟨-, found, hFound, hStatus, hFee⟩ := hListed c hMem
    obtain rfl : found = row := Option.some.inj (hFound.symm.trans hOld)
    exact ⟨hStatus, hFee⟩
  change RowSound bank.ledger reference row
  rw [hLedger]
  apply rowSound_append (hSound reference row hOld)
  · apply (once_commit_iff (hSound reference row hOld).at_most hNodup).mpr
    intro hIn
    obtain ⟨c, hMem, rfl⟩ := List.mem_map.mp hIn
    exact hOk c hMem
  · intro hSome
    rw [hCount] at hSome
    obtain ⟨c, hMem, hReference⟩ :=
      List.mem_map.mp (List.count_pos_iff.mp (Nat.pos_of_ne_zero hSome))
    by_contra hOpen
    exact (hSound reference row hOld).incomplete (Bool.eq_true_of_not_eq_false hOpen)
      (hFound c hMem hReference).1
  · intro entry hMem hCredit
    obtain ⟨c, hIn, rfl⟩ := List.mem_map.mp hMem
    have hReference : c.reference = reference := by
      simpa [isFeeCredit, feeEntry] using hCredit
    exact (hFound c hIn hReference).2.symm

theorem grows_commit (hListed : ∀ c ∈ credited, Listed db c)
    (h : creditAll walletId credited db.bank = some bank) : Grows db { db with bank := bank } :=
  ⟨(grows_refl db).rows, _, ledger_creditAll (fun c hMem => (hListed c hMem).1) h⟩

theorem completedFee?_eq_some {reference : ℕ} {c : CompletedFee}
    (h : completedFee? db reference = some c) : c.reference = reference ∧ Listed db c := by
  simp only [completedFee?, Option.bind_eq_bind, Option.bind_eq_some_iff,
    Option.ite_none_right_eq_some, Option.pure_def, Option.some.injEq] at h
  obtain ⟨row, hRow, ⟨hStatus, hPos, -⟩, rfl⟩ := h
  exact ⟨rfl, hPos, row, hRow, hStatus, rfl⟩

theorem listed_completedFees : ∀ c ∈ completedFees db, Listed db c := by
  intro c hMem
  obtain ⟨reference, -, hSome⟩ := List.mem_filterMap.mp hMem
  exact (completedFee?_eq_some hSome).2

theorem nodup_completedFees (db : WithdrawDb) :
    ((completedFees db).map CompletedFee.reference).Nodup := by
  apply List.pairwise_map.mpr
  apply List.pairwise_filterMap.mpr
  apply List.nodup_range.imp
  intro first second hNe a hA b hB hSame
  rw [(completedFee?_eq_some hA).1, (completedFee?_eq_some hB).1] at hSame
  exact hNe hSame

end Transactions

/-! ### One step -/

section Steps
variable {o : Outcome} {s s' : Store} {call call' : Call}

/-- Only two steps commit something of withdrawals or of the ledger. -/
theorem step_cases (h : step o s call = some (s', call')) :
    (s'.db.rows = s.db.rows ∧ s'.db.bank.ledger = s.db.bank.ledger ∧ s'.seen = s.seen) ∨
    (∃ reference withdrawal transaction walletId platform db claimed,
      call = .finalize reference withdrawal transaction walletId platform ∧
      (withPlatform platform s.db).markAsSuccessTx reference withdrawal transaction walletId =
        some (db, claimed) ∧
      s' = ⟨withPlatform s.db.bank.platform db,
        if claimed then reference :: s.seen else s.seen⟩) ∨
    (∃ walletId listed credited bank, call = .credit walletId [] listed credited ∧
      creditAll walletId credited s.db.bank = some bank ∧
      s' = ⟨{ s.db with bank := bank }, listed ++ s.seen⟩) := by
  cases call with
  | markAsSuccess reference =>
    simp only [step] at h
    split at h
    · cases h
      exact .inl ⟨rfl, rfl, rfl⟩
    · split at h <;> cases h <;> exact .inl ⟨rfl, rfl, rfl⟩
  | findTransaction reference withdrawal =>
    simp only [step, Option.bind_eq_bind, Option.bind_eq_some_iff, Option.pure_def,
      Option.some.injEq, Prod.mk.injEq] at h
    obtain ⟨-, -, rfl, -⟩ := h
    exact .inl ⟨rfl, rfl, rfl⟩
  | findWallet reference withdrawal transaction =>
    simp only [step] at h
    split at h <;> cases h <;> exact .inl ⟨rfl, rfl, rfl⟩
  | findPlatform reference withdrawal transaction walletId =>
    cases h
    exact .inl ⟨rfl, rfl, rfl⟩
  | finalize reference withdrawal transaction walletId platform =>
    simp only [step, Option.bind_eq_bind, Option.bind_eq_some_iff, Option.pure_def,
      Option.some.injEq, Prod.mk.injEq] at h
    obtain ⟨⟨db, claimed⟩, hTx, hEnd, -⟩ := h
    exact .inr (.inl ⟨_, _, _, _, _, db, claimed, rfl, hTx, hEnd.symm⟩)
  | reconcileCompletedPlatformFees =>
    simp only [step] at h
    split at h <;> cases h <;> exact .inl ⟨rfl, rfl, rfl⟩
  | listCompleted walletId =>
    cases h
    exact .inl ⟨rfl, rfl, rfl⟩
  | credit walletId todo listed credited =>
    cases todo with
    | nil =>
      simp only [step, Option.bind_eq_bind, Option.bind_eq_some_iff, Option.pure_def,
        Option.some.injEq, Prod.mk.injEq] at h
      obtain ⟨bank, hTx, hEnd, -⟩ := h
      exact .inr (.inr ⟨_, _, _, bank, rfl, hTx, hEnd.symm⟩)
    | cons c todo =>
      simp only [step] at h
      split at h <;> cases h <;> exact .inl ⟨rfl, rfl, rfl⟩
  | changeSuperAdmin =>
    cases h
    exact .inl ⟨rfl, rfl, rfl⟩
  | done => cases h

theorem grows_step (hKnows : Knows s.db call) (h : step o s call = some (s', call')) :
    Grows s.db s'.db := by
  obtain ⟨hRows, hLedger, -⟩ | ⟨_, _, _, _, _, db, claimed, rfl, hTx, rfl⟩ |
    ⟨_, _, _, bank, rfl, hTx, rfl⟩ := step_cases h
  · refine ⟨?_, [], ?_⟩
    · rw [hRows]
      exact (grows_refl s.db).rows
    · rw [hLedger, List.append_nil]
  · exact grows_finalize hTx
  · exact grows_commit (fun c hMem => hKnows.1 c (List.mem_append_left _ hMem)) hTx

theorem seen_of (hSeen : Seen s) (hGrows : Grows s.db s'.db)
    (hNew : ∀ reference ∈ s'.seen, reference ∈ s.seen ∨ ∀ row,
      s'.db.rows[reference]? = some row → 0 < row.transaction.fee →
      1 ≤ credits reference s'.db.bank.ledger) : Seen s' := by
  intro reference row hRow hMem hPos
  rcases hNew reference hMem with hOld | hNew
  · obtain ⟨old, hOldRow, -, hUnits, -⟩ := hGrows.rows.backward hRow
    have hBefore := hSeen reference old hOldRow hOld (hUnits ▸ hPos)
    exact Nat.le_trans hBefore (credits_grows hGrows reference)
  · exact hNew row hRow hPos

theorem sound_step (hSound : Sound s.db) (hSeen : Seen s) (hKnows : Knows s.db call)
    (hOk : Uncredited o s call) (h : step o s call = some (s', call')) :
    Sound s'.db ∧ Seen s' := by
  have hGrows := grows_step hKnows h
  obtain ⟨hRows, hLedger, hSame⟩ | ⟨reference, _, _, _, _, db, claimed, rfl, hTx, rfl⟩ |
    ⟨walletId, listed, credited, bank, rfl, hTx, rfl⟩ := step_cases h
  · refine ⟨?_, ?_⟩
    · intro reference row hRow
      rw [hLedger]
      exact hSound reference row (hRows ▸ hRow)
    · apply seen_of hSeen hGrows
      intro reference hMem
      exact .inl (hSame ▸ hMem)
  · obtain ⟨hSound', hClaimed⟩ := sound_finalize hSound hKnows hTx
    refine ⟨hSound', seen_of hSeen hGrows ?_⟩
    intro other hMem
    cases claimed with
    | false => exact .inl hMem
    | true =>
      rcases List.mem_cons.mp hMem with rfl | hOld
      · exact .inr (hClaimed rfl)
      · exact .inl hOld
  · obtain ⟨hListed, hNodup, hPaid⟩ := hKnows
    rw [List.append_nil] at hListed hNodup hPaid
    refine ⟨sound_commit hSound hListed hNodup hOk hTx, seen_of hSeen hGrows ?_⟩
    intro reference hMem
    rcases List.mem_append.mp hMem with hRead | hOld
    · refine .inr fun row _ _ => ?_
      have hLedger := ledger_creditAll (fun c hIn => (hListed c hIn).1) hTx
      rw [hLedger, credits_append, credits_feeEntries]
      rcases hPaid reference hRead with hCredited | hBefore
      · have hOne := List.count_pos_iff.mpr hCredited
        omega
      · exact Nat.le_trans hBefore (Nat.le_add_right _ _)
    · exact .inl hOld

theorem knows_enter (db : WithdrawDb) (request : Request) : Knows db (enter request) := by
  cases request <;> trivial

theorem knows_step (hKnows : Knows s.db call) (h : step o s call = some (s', call')) :
    Knows s'.db call' := by
  cases call with
  | markAsSuccess reference =>
    simp only [step] at h
    split at h
    · cases h
      trivial
    · rename_i row hRow
      split at h
      · cases h
        exact ⟨row, hRow, rfl⟩
      · cases h
        trivial
  | findTransaction reference withdrawal =>
    simp only [step, Option.bind_eq_bind, Option.bind_eq_some_iff, Option.pure_def,
      Option.some.injEq, Prod.mk.injEq] at h
    obtain ⟨-, -, rfl, rfl⟩ := h
    exact hKnows
  | findWallet reference withdrawal transaction =>
    simp only [step] at h
    split at h
    · cases h
      trivial
    · cases h
      exact hKnows
  | findPlatform reference withdrawal transaction walletId =>
    cases h
    exact hKnows
  | finalize reference withdrawal transaction walletId platform =>
    simp only [step, Option.bind_eq_bind, Option.bind_eq_some_iff, Option.pure_def,
      Option.some.injEq, Prod.mk.injEq] at h
    obtain ⟨-, -, -, rfl⟩ := h
    trivial
  | reconcileCompletedPlatformFees =>
    simp only [step] at h
    split at h <;> cases h <;> trivial
  | listCompleted walletId =>
    cases h
    refine ⟨listed_completedFees, nodup_completedFees s.db, ?_⟩
    intro reference hMem
    exact .inl hMem
  | credit walletId todo listed credited =>
    cases todo with
    | nil =>
      simp only [step, Option.bind_eq_bind, Option.bind_eq_some_iff, Option.pure_def,
        Option.some.injEq, Prod.mk.injEq] at h
      obtain ⟨-, -, -, rfl⟩ := h
      trivial
    | cons c todo =>
      obtain ⟨hListed, hNodup, hPaid⟩ := hKnows
      have hSplit : credited ++ c :: todo = credited ++ [c] ++ todo := by simp
      simp only [step] at h
      split at h
      · rename_i hSkip
        cases h
        have hSub : (credited ++ todo).Sublist (credited ++ c :: todo) :=
          (List.sublist_cons_self c todo).append_left credited
        have hFound : c.reference ∈ credited.map CompletedFee.reference ∨
            1 ≤ credits c.reference s.db.bank.ledger := by
          rcases hSkip with hFee | hEntry
          · exact absurd (hListed c (by simp)).1 (not_lt.mpr hFee)
          · obtain ⟨entry, hMem, hIs⟩ := List.any_eq_true.mp hEntry
            have hCredit := (Bool.and_eq_true _ _ ▸ hIs).1
            rcases List.mem_append.mp hMem with hLedger | hOwn
            · exact .inr (List.countP_pos_iff.mpr ⟨entry, hLedger, hCredit⟩)
            · obtain ⟨own, hIn, rfl⟩ := List.mem_map.mp hOwn
              have hSame : own.reference = c.reference := by
                simpa [isFeeCredit, feeEntry] using hCredit
              exact .inl (List.mem_map.mpr ⟨own, hIn, hSame⟩)
        refine ⟨fun d hMem => hListed d (hSub.subset hMem), hNodup.sublist (hSub.map _), ?_⟩
        intro reference hMem
        rcases hPaid reference hMem with hHeld | hCredit
        · rw [List.map_append, List.map_cons, List.mem_append, List.mem_cons] at hHeld
          rw [List.map_append, List.mem_append]
          rcases hHeld with hOwn | rfl | hLater
          · exact .inl (.inl hOwn)
          · rcases hFound with hOwn | hCredit
            · exact .inl (.inl hOwn)
            · exact .inr hCredit
          · exact .inl (.inr hLater)
        · exact .inr hCredit
      · cases h
        rw [hSplit] at hListed hNodup hPaid
        exact ⟨hListed, hNodup, hPaid⟩
  | changeSuperAdmin =>
    cases h
    trivial
  | done => cases h

end Steps

/-- What the ledger holds for the withdrawals before the first call. -/
structure Started (s : Store) : Prop where
  sound : Sound s.db
  unseen : s.seen = []

/-- In every run whose repair runs find at their commit that nobody has credited what they are about
to credit, every fee is credited exactly once. -/
theorem fees_paid_once {start : Store} {c : Config Store Call} (hStart : Started start)
    (h : program.Reaches Uncredited (Program.idle start) c) : PaidOnce c.store := by
  have hKept : (Sound c.store.db ∧ Seen c.store) ∧ ∀ call ∈ c.calls, Knows c.store.db call := by
    refine h.assertions (fun s => Sound s.db ∧ Seen s) (fun s => Knows s.db) ⟨⟨?_, ?_⟩, ?_⟩ ?_ ?_ ?_
    · exact hStart.sound
    · intro reference row _ hMem
      exact absurd (hStart.unseen ▸ hMem) List.not_mem_nil
    · intro call hMem
      cases hMem
    · intro request s _
      exact knows_enter s.db request
    · intro o s s' call call' hGood hKnows hOk hStep
      exact ⟨sound_step hGood.1 hGood.2 hKnows hOk hStep, knows_step hKnows hStep⟩
    · intro o s s' call call' other _ hKnows hOther _ hStep
      exact knows_grows (grows_step hKnows hStep) hOther
  obtain ⟨⟨hSound, hSeen⟩, -⟩ := hKept
  refine ⟨?_, ?_, ?_⟩
  · intro reference row hRow
    exact (hSound reference row hRow).at_most
  · intro reference row entry hRow hMem hCredit
    exact (hSound reference row hRow).amount entry hMem hCredit
  · intro reference row hRow hMem hPos
    exact Nat.le_antisymm (hSound reference row hRow).at_most
      (hSeen reference row hRow hMem hPos)

def paystackMetadata : Metadata where
  provider := some .paystack
  payoutApprovalStatus := none
  payoutApprovedBy := none
  nowpaymentsPayoutId := none
  nowpaymentsPayoutStatus := none
  nowpaymentsPayoutAmount := 0
  nowpaymentsCurrency := ""
  nowpaymentsAddress := ""
  conversionSnapshot := none
  paystackTransferCode := some "TRF_1"
  paystackTransferStatus := none
  paystackTransferRequiresOtp := false
  legacyStatus := none

def withdrawn (status : WithdrawalStatus) (paid : TransactionStatus) : Row where
  withdrawal := ⟨7, toNumber 10000000000, toNumber 150000000, toNumber 9850000000, .mobileMoney, none,
    none, none, some "0700000000", status, 0⟩
  transaction := ⟨2, paid, 10000000000, 150000000, 9850000000, paystackMetadata, 0⟩

/-- 0 and 1 are wallets of super admins, 2 is that of the user. The first withdrawal is from before
fees were credited with it, the second is on its way. -/
def twoWithdrawals : Store where
  db := {
    bank := {
      wallets := fun id => if id ≤ 2 then some ⟨30000000000, 10000000000, false⟩ else none
      platform := some 0
      transactions := []
      ledger := [⟨some 0, 2, .debit, 10000000000⟩] }
    activeWallet := fun userId => if userId = 7 then some 2 else none
    userNames := fun _ => ⟨none, none⟩
    rows := [withdrawn .completed .completed, withdrawn .processing .processing] }
  seen := []

def newAdmin : Outcome := ⟨some 1⟩

def runs (index steps : ℕ) : List (Move Request Outcome) := List.replicate steps (.run index newAdmin)

/-- Two repair runs that look for the credit before either of them commits. -/
def repairedTwice : List (Move Request Outcome) :=
  [.enter .reconcileCompletedPlatformFees, .enter .reconcileCompletedPlatformFees] ++ runs 0 3 ++
    runs 1 3 ++ runs 0 1 ++ runs 1 1

/-- The fee of a withdrawal goes to the first super admin, and then a repair run looks for it on the
wallet of the second. -/
def adminChanged : List (Move Request Outcome) :=
  [.enter (.markAsSuccess 1)] ++ runs 0 5 ++ [.enter .changeSuperAdmin] ++ runs 1 1 ++
    [.enter .reconcileCompletedPlatformFees] ++ runs 2 5

theorem fees_paid_twice :
    [repairedTwice, adminChanged].length = 2 ∧ ∀ moves ∈ [repairedTwice, adminChanged],
      ∃ c, program.Reaches anyStep (Program.idle twoWithdrawals) c ∧
        ∃ completed ∈ completedFees c.store.db,
          credits completed.reference c.store.db.bank.ledger = 2 := by
  refine ⟨rfl, ?_⟩
  intro moves hMem
  have hRun : (program.schedule moves (Program.idle twoWithdrawals)).any (fun c =>
      (completedFees c.store.db).any fun completed =>
        credits completed.reference c.store.db.bank.ledger == 2) = true := by
    rcases List.mem_cons.mp hMem with rfl | hMem
    · decide +kernel
    · rw [List.mem_singleton.mp hMem]
      decide +kernel
  obtain ⟨c, hReach, hEnd⟩ := Program.reaches_of_any hRun
  obtain ⟨completed, hCompleted, hTwice⟩ := List.any_eq_true.mp hEnd
  exact ⟨c, hReach, completed, hCompleted, beq_iff_eq.mp hTwice⟩

theorem started_twoWithdrawals : Started twoWithdrawals := by
  refine ⟨?_, rfl⟩
  intro reference row hRow
  match reference with
  | 0 =>
    cases hRow
    refine ⟨rfl, ?_, ?_, by decide, ?_⟩
    · intro hOpen
      cases hOpen
    · intro hOpen
      cases hOpen
    · decide
  | 1 =>
    cases hRow
    refine ⟨rfl, ?_, ?_, by decide, ?_⟩
    · intro _ hStatus
      cases hStatus
    · intro _
      rfl
    · decide
  | _ + 2 => cases hRow

/-- The second withdrawal is completed, and two repair runs go over both, one after the other. -/
def repairedInTurn : List (Move Request Outcome) :=
  [.enter (.markAsSuccess 1)] ++ runs 0 5 ++ [.enter .reconcileCompletedPlatformFees] ++ runs 1 5 ++
    [.enter .reconcileCompletedPlatformFees] ++ runs 2 5

theorem fees_paid_once_in_turn :
    ∃ c, program.Reaches Uncredited (Program.idle twoWithdrawals) c ∧
      c.store.db.bank.balanceOf 0 = 30300000000 ∧ 0 ∈ c.store.seen ∧ 1 ∈ c.store.seen ∧
      PaidOnce c.store := by
  have hRuns : ((program.guarded Uncredited).schedule repairedInTurn
      (Program.idle twoWithdrawals)).any (fun c => c.store.db.bank.balanceOf 0 == 30300000000 &&
        c.store.seen.contains 0 && c.store.seen.contains 1) = true := by
    decide +kernel
  obtain ⟨c, hRun, hEnd⟩ := Program.reaches_of_guarded_any hRuns
  simp only [Bool.and_eq_true, beq_iff_eq, List.contains_iff_mem] at hEnd
  exact ⟨c, hRun, hEnd.1.1, hEnd.1.2, hEnd.2, fees_paid_once started_twoWithdrawals hRun⟩

end FarmBackend.PlatformFees
