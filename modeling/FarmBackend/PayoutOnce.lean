import FarmBackend.PayoutBudget

/-!
# At most one payout, and only of locked funds

A withdrawal is open to be claimed while its status is `PENDING`; nothing makes it `PENDING`
again. With the budgets of the functions this makes the payout of a withdrawal a ticket.
-/

namespace FarmBackend.PayoutOnce
open Wallets Rows Withdrawals Interleaving Awaiting WithdrawCalls PayoutCalls Payouts PayoutBudget

set_option autoImplicit false

variable {γ : Type} {o : Outcome} {store store' : PayoutStore} {reference : ℕ}

/-! What an operation does to the rows and to the log. -/

/-- The statuses that are not `PENDING` stay so, the amounts stay, a new row has its lock in the
log, and the log grows by locks. -/
structure Advances (store store' : PayoutStore) : Prop where
  kept : ∀ (r : ℕ) (row : Row), store.db.rows[r]? = some row →
    ∃ row' : Row, store'.db.rows[r]? = some row' ∧ row'.withdrawal.amount = row.withdrawal.amount ∧
      (row.withdrawal.status ≠ .pending → row'.withdrawal.status ≠ .pending)
  new : ∀ (r : ℕ) (row' : Row), store'.db.rows[r]? = some row' →
    (∃ row, store.db.rows[r]? = some row) ∨ .locked r row'.withdrawal.amount ∈ store'.log
  log : ∃ entries, store'.log = store.log ++ entries ∧
    ∀ entry ∈ entries, ∀ r, entry.pays r = false

theorem Advances.of_rows_eq (hRows : store'.db.rows = store.db.rows)
    (hLog : store'.log = store.log) : Advances store store' where
  kept r row hRow := ⟨row, hRows ▸ hRow, rfl, id⟩
  new r row hRow := .inl ⟨row, hRows ▸ hRow⟩
  log := ⟨[], by simp [hLog], by simp⟩

theorem Advances.of_modify {f : Row → Row} {r : ℕ}
    (hRows : store'.db.rows = store.db.rows.modify r f) (hLog : store'.log = store.log)
    (hAmount : ∀ row, (f row).withdrawal.amount = row.withdrawal.amount)
    (hStatus : ∀ row : Row, row.withdrawal.status ≠ .pending →
      (f row).withdrawal.status ≠ .pending) : Advances store store' where
  kept other row hRow := by
    rw [hRows]
    by_cases hId : r = other
    · subst hId
      exact ⟨f row, getElem?_modify_self f hRow, hAmount row, hStatus row⟩
    · exact ⟨row, (getElem?_modify_ne f hId).trans hRow, rfl, id⟩
  new other row hRow := by
    rw [hRows] at hRow
    rcases getElem?_modify_cases hRow with ⟨rfl, old, hOld, _⟩ | ⟨_, hOld⟩
    · exact .inl ⟨old, hOld⟩
    · exact .inl ⟨row, hOld⟩
  log := ⟨[], by simp [hLog], by simp⟩

/-- A statement that fails leaves the store, or has done its work. -/
theorem Advances.attempt {α : Type} {result : PayoutStore × Reply α}
    (h : Advances store result.1) : Advances store (attempt o store result).1 := by
  unfold Payouts.attempt
  split
  · exact h
  · split
    · exact h
    · exact .of_rows_eq rfl rfl

theorem rows_lockFundsInTx {walletId : WalletId} {userId : UserId} {amount : ℚ}
    {limits : DailyLimits} {now : Time} {db db' : WithdrawDb}
    (h : db.lockFundsInTx walletId userId amount limits now = some db') : db'.rows = db.rows := by
  simp only [WithdrawDb.lockFundsInTx, Option.bind_eq_bind, Option.bind_eq_some_iff,
    Option.pure_def, Option.ite_none_right_eq_some, Option.some.injEq] at h
  obtain ⟨wallet, _, _, bank, _, rfl⟩ := h
  rfl

theorem advances_createWithdrawalTx (new : NewWithdrawal) :
    Advances store (createWithdrawalTx o store new).1 := by
  unfold createWithdrawalTx
  split
  · exact .of_rows_eq rfl rfl
  · rename_i db hLock
    have hRows := rows_lockFundsInTx hLock
    refine ⟨?_, ?_, ⟨_, rfl, ?_⟩⟩
    · intro r row hRow
      refine ⟨row, ?_, rfl, id⟩
      simp only [hRows]
      exact getElem?_append_of_some hRow
    · intro r row hRow
      simp only [hRows] at hRow
      rcases getElem?_insert_cases hRow with hOld | ⟨rfl, rfl⟩
      · exact .inl ⟨row, hOld⟩
      · exact .inr (by simp [newRow, hRows])
    · intro entry hEntry r
      rw [List.mem_singleton.mp hEntry]
      rfl

theorem claimPending_cases (r : ℕ) (db : WithdrawDb) :
    ((claimPending r db).2 = 0 ∧ (claimPending r db).1 = db) ∨
      ((claimPending r db).2 = 1 ∧
        (claimPending r db).1 = db.setWithdrawal r ({ · with status := .processing }) ∧
        ∃ row, db.rows[r]? = some row ∧ row.withdrawal.status = .pending) := by
  unfold claimPending
  cases hRow : db.rows[r]? with
  | none => simp
  | some row =>
    by_cases hPending : row.withdrawal.status = .pending
    · simp [hPending]
    · simp [hPending]

/-- The two updates of a settling transaction are one update of the row. -/
theorem Advances.of_settled {db : WithdrawDb} {r : ℕ} {status : WithdrawalStatus}
    (hStatus : status ≠ .pending) {g : WithdrawalTransaction → WithdrawalTransaction} {bank : Bank}
    (hDb : db = (({ store.db with bank := bank } : WithdrawDb).setWithdrawal r
      ({ · with status := status })).setTransaction r g) :
    Advances store ⟨db, store.log⟩ := by
  have hRows : db.rows = store.db.rows.modify r fun row =>
      ⟨{ row.withdrawal with status := status }, g row.transaction⟩ := by
    rw [hDb]
    exact List.modify_modify_eq _ _ _ _
  exact .of_modify hRows rfl (fun _ => rfl) (fun _ _ => hStatus)

theorem markAsSuccessTx_cases {r : ℕ} {withdrawal : Withdrawal}
    {transaction : WithdrawalTransaction} {walletId : WalletId} {db db' : WithdrawDb} {done : Bool}
    (h : db.markAsSuccessTx r withdrawal transaction walletId = some (db', done)) :
    db' = db ∨ ∃ bank g, db' = (({ db with bank := bank } : WithdrawDb).setWithdrawal r
      ({ · with status := .completed })).setTransaction r g := by
  simp only [WithdrawDb.markAsSuccessTx, Option.bind_eq_bind, Option.bind_eq_some_iff,
    Option.pure_def] at h
  obtain ⟨row, _, h⟩ := h
  split at h
  · simp only [Option.bind_eq_some_iff, Option.ite_none_right_eq_some, Option.some.injEq,
      Prod.mk.injEq] at h
    obtain ⟨wallet, _, _, bank, _, bank', _, rfl, _⟩ := h
    exact .inr ⟨bank', _, rfl⟩
  · simp only [Option.some.injEq, Prod.mk.injEq] at h
    exact .inl h.1.symm

theorem rejectWithdrawalTx_cases {r : ℕ} {withdrawal : Withdrawal}
    {transaction : WithdrawalTransaction} {walletId : WalletId} {db db' : WithdrawDb} {done : Bool}
    (h : db.rejectWithdrawalTx r withdrawal transaction walletId = some (db', done)) :
    db' = db ∨ ∃ bank g, db' = (({ db with bank := bank } : WithdrawDb).setWithdrawal r
      ({ · with status := .failed })).setTransaction r g := by
  simp only [WithdrawDb.rejectWithdrawalTx, Option.bind_eq_bind, Option.bind_eq_some_iff,
    Option.pure_def] at h
  obtain ⟨row, _, h⟩ := h
  split at h
  · simp only [Option.bind_eq_some_iff, Option.some.injEq, Prod.mk.injEq] at h
    obtain ⟨bank, _, rfl, _⟩ := h
    exact .inr ⟨bank, _, rfl⟩
  · simp only [Option.some.injEq, Prod.mk.injEq] at h
    exact .inl h.1.symm

/-- A settling transaction, whichever it is, settles the row or leaves it. -/
theorem advances_settleTx {r : ℕ} {status : WithdrawalStatus} (hStatus : status ≠ .pending)
    {transaction : Option WithdrawalTransaction}
    {tx : WithdrawalTransaction → WithdrawDb → Option (WithdrawDb × Bool)}
    (hTx : ∀ t db' done, tx t store.db = some (db', done) →
      db' = store.db ∨ ∃ bank g, db' = (({ store.db with bank := bank } : WithdrawDb).setWithdrawal
        r ({ · with status := status })).setTransaction r g) :
    Advances store (settleTx store transaction tx).1 := by
  unfold settleTx
  split
  · exact .of_rows_eq rfl rfl
  · rename_i db' done hSome
    obtain ⟨t, _, hDone⟩ := Option.bind_eq_some_iff.mp hSome
    rcases hTx t db' done hDone with hSame | ⟨bank, g, hSettled⟩
    · exact .of_rows_eq (by rw [hSame]) rfl
    · exact .of_settled hStatus hSettled

theorem advances_claimPending (r : ℕ) :
    Advances store ⟨(claimPending r store.db).1, store.log⟩ := by
  rcases claimPending_cases r store.db with ⟨_, hDb⟩ | ⟨_, hDb, _⟩
  · exact .of_rows_eq (by rw [hDb]) rfl
  · have hRows : (claimPending r store.db).1.rows = store.db.rows.modify r fun row =>
        { row with withdrawal := { row.withdrawal with status := .processing } } := by
      rw [hDb]
      rfl
    refine @Advances.of_modify store ⟨_, store.log⟩ _ r hRows rfl (fun _ => rfl) ?_
    intro row _ hPending
    cases hPending

theorem advances_setTransaction (r : ℕ) (g : WithdrawalTransaction → WithdrawalTransaction) :
    Advances store { store with db := store.db.setTransaction r g } :=
  @Advances.of_modify store { store with db := store.db.setTransaction r g } _ r rfl rfl
    (fun _ => rfl) (fun _ => id)

theorem Advances.trans {a b c : PayoutStore} (hab : Advances a b) (hbc : Advances b c) :
    Advances a c where
  kept r row hRow := by
    obtain ⟨row', hRow', hAmount', hStatus'⟩ := hab.kept r row hRow
    obtain ⟨row'', hRow'', hAmount'', hStatus''⟩ := hbc.kept r row' hRow'
    exact ⟨row'', hRow'', hAmount''.trans hAmount', hStatus'' ∘ hStatus'⟩
  new r row'' hRow'' := by
    obtain ⟨entries, hLog, _⟩ := hbc.log
    rcases hbc.new r row'' hRow'' with ⟨row', hRow'⟩ | hLocked
    · rcases hab.new r row' hRow' with hOld | hLocked
      · exact .inl hOld
      · obtain ⟨_, hRow₂, hAmount, _⟩ := hbc.kept r row' hRow'
        rw [hRow'', Option.some.injEq] at hRow₂
        subst hRow₂
        exact .inr (by rw [hAmount, hLog]; exact List.mem_append_left _ hLocked)
    · exact .inr hLocked
  log := by
    obtain ⟨entries, hLog, hLocks⟩ := hab.log
    obtain ⟨entries', hLog', hLocks'⟩ := hbc.log
    refine ⟨entries ++ entries', by rw [hLog', hLog, List.append_assoc], ?_⟩
    intro entry hEntry r
    rcases List.mem_append.mp hEntry with hIn | hIn
    · exact hLocks entry hIn r
    · exact hLocks' entry hIn r

theorem advances_exec (op : Op γ) (hOp : ∀ r, pays r op = false) :
    Advances store (exec o store op).1 := by
  cases op with
  | query query => exact .attempt (.of_rows_eq rfl rfl)
  | service call => exact .of_rows_eq rfl rfl
  | createWithdrawalTx new => exact .attempt (advances_createWithdrawalTx new)
  | claimProcessing r => exact .attempt (advances_claimPending r)
  | claimPayoutTx r metadata =>
    simp only [exec]
    split
    · exact .attempt ((advances_claimPending r).trans (advances_setTransaction r _))
    · exact .attempt (.of_rows_eq rfl rfl)
  | updateMetadata r metadata =>
    simp only [exec]
    split
    · exact .of_rows_eq rfl rfl
    · exact .attempt (advances_setTransaction r _)
  | markAsSuccessTx r withdrawal transaction walletId =>
    exact .attempt (advances_settleTx (by decide) fun _ _ _ => markAsSuccessTx_cases)
  | rejectWithdrawalTx r withdrawal transaction walletId =>
    exact .attempt (advances_settleTx (by decide) fun _ _ _ => rejectWithdrawalTx_cases)
  | initiateTransfer payload => simpa [pays] using hOp payload.reference
  | createPayout payload => simpa [pays] using hOp payload.reference
  | rejectWithdrawal r reason => exact .of_rows_eq rfl rfl

theorem exec_pays {op : Op γ} (hOp : pays reference op = true) :
    ∃ entry : LogEntry, (exec o store op).1 = ⟨store.db, store.log ++ [entry]⟩ ∧
      ∀ r, entry.pays r = pays r op := by
  cases op with
  | initiateTransfer payload => exact ⟨.initiateTransfer payload, rfl, fun _ => rfl⟩
  | createPayout payload => exact ⟨.createPayout payload, rfl, fun _ => rfl⟩
  | _ => simp [pays] at hOp

theorem claims_of_pays {op : Op γ} (hOp : ∃ r, pays r op = true) (answer : γ) :
    claims reference ⟨op, answer⟩ = false := by
  obtain ⟨r, hPays⟩ := hOp
  cases op <;> simp_all [pays, claims]

/-! The ticket. -/

/-- Nobody has claimed the withdrawal: it is not there yet, or it is `PENDING`. -/
def Unclaimed (reference : ℕ) (store : PayoutStore) : Prop :=
  ∀ row, store.db.rows[reference]? = some row → row.withdrawal.status = .pending

def payment (reference : ℕ) : Ticket PayoutStore (Running Thrown Op) where
  isOpen := Unclaimed reference
  fired store := store.log.countP (·.pays reference)
  holds call := (budget reference).run 0 call.history

theorem Advances.unclaimed (h : Advances store store') (hUnclaimed : Unclaimed reference store') :
    Unclaimed reference store := by
  intro row hRow
  obtain ⟨row', hRow', _, hStatus⟩ := h.kept reference row hRow
  by_contra hClaimed
  exact hStatus hClaimed (hUnclaimed row' hRow')

theorem Advances.countP_eq (h : Advances store store') :
    store'.log.countP (·.pays reference) = store.log.countP (·.pays reference) := by
  obtain ⟨entries, hLog, hLocks⟩ := h.log
  have hNone : entries.countP (·.pays reference) = 0 := by
    rw [List.countP_eq_zero]
    intro entry hEntry
    simp [hLocks entry hEntry reference]
  rw [hLog, List.countP_append, hNone, add_zero]

theorem claimPending_claims {db : WithdrawDb} (hCount : (claimPending reference db).2 = 1) :
    (∃ row, db.rows[reference]? = some row ∧ row.withdrawal.status = .pending) ∧
      ∃ row, (claimPending reference db).1.rows[reference]? = some row ∧
        row.withdrawal.status = .processing := by
  rcases claimPending_cases reference db with ⟨hZero, _⟩ | ⟨_, hDb, row, hRow, hPending⟩
  · omega
  · rw [hDb]
    exact ⟨⟨row, hRow, hPending⟩, _, getElem?_modify_self _ hRow, rfl⟩

theorem attempt_ok {α : Type} {result : PayoutStore × Reply α} {value : α}
    (h : (attempt o store result).2 = .ok value) : attempt o store result = result := by
  unfold attempt at h ⊢
  split
  · rfl
  · rename_i hFailure
    rw [hFailure] at h
    cases h

theorem exec_claims {op : Op γ} (h : claims reference ⟨op, (exec o store op).2⟩ = true) :
    (∃ row, store.db.rows[reference]? = some row ∧ row.withdrawal.status = .pending) ∧
      ∃ row, (exec o store op).1.db.rows[reference]? = some row ∧
        row.withdrawal.status = .processing := by
  cases op with
  | claimProcessing r =>
    cases hAnswer : (exec o store (.claimProcessing r)).2 with
    | error e => simp [claims, hAnswer] at h
    | ok count =>
      have hExec : exec o store (.claimProcessing r) = _ := attempt_ok hAnswer
      have hCount : (claimPending r store.db).2 = count := by
        rw [hExec] at hAnswer
        exact Except.ok.inj hAnswer
      simp only [claims, hAnswer, Bool.and_eq_true, beq_iff_eq] at h
      obtain ⟨rfl, rfl⟩ := h
      rw [hExec]
      exact claimPending_claims hCount
  | claimPayoutTx r metadata =>
    cases hAnswer : (exec o store (.claimPayoutTx r metadata)).2 with
    | error e => simp [claims, hAnswer] at h
    | ok done =>
      simp only [claims, hAnswer, Bool.and_eq_true, beq_iff_eq] at h
      obtain ⟨rfl, rfl⟩ := h
      simp only [exec] at hAnswer ⊢
      split at hAnswer
      · rename_i hCount
        obtain ⟨hBefore, row, hRow, hStatus⟩ := claimPending_claims hCount
        rw [if_pos hCount, attempt_ok hAnswer]
        exact ⟨hBefore, _, getElem?_modify_self _ hRow, hStatus⟩
      · rw [attempt_ok hAnswer] at hAnswer
        cases hAnswer
  | _ => simp [claims] at h

section Steps
variable {call call' : Running Thrown Op} {op : Op γ}

theorem holds_step {answer : γ} (hCall : call'.history = call.history ++ [⟨op, answer⟩]) :
    (payment reference).holds call' =
      (payment reference).holds call + (claims reference ⟨op, answer⟩).toNat -
        (pays reference op).toNat := by
  change (budget reference).run 0 call'.history = _
  rw [hCall, Monitor.run_append]
  rfl

/-- One operation keeps or takes the ticket of every withdrawal. -/
theorem payment_step
    (hAllowed : pays reference op = true → 1 ≤ (payment reference).holds call)
    (hCall : call'.history = call.history ++ [⟨op, (exec o store op).2⟩]) :
    (payment reference).Keeps store call (exec o store op).1 call' ∨
      (payment reference).Takes store call (exec o store op).1 call' := by
  have hHolds : (payment reference).holds call' = _ := holds_step hCall
  by_cases hSome : ∃ r, pays r op = true
  · obtain ⟨r, hPays⟩ := hSome
    obtain ⟨entry, hExec, hEntry⟩ := @exec_pays γ o store r op hPays
    rw [claims_of_pays ⟨r, hPays⟩, Bool.toNat_false, add_zero] at hHolds
    have hFired : (payment reference).fired (exec o store op).1 =
        (payment reference).fired store + (pays reference op).toNat := by
      change (exec o store op).1.log.countP _ = _
      rw [hExec, List.countP_append, List.countP_singleton, hEntry reference]
      cases pays reference op <;> rfl
    refine .inl ⟨?_, fun hOpen => .inl ?_⟩
    · cases hMine : pays reference op with
      | false => simp [hMine] at hHolds hFired; omega
      | true =>
        have hLeast := hAllowed hMine
        simp only [hMine, Bool.toNat_true] at hHolds hFired
        omega
    · change Unclaimed reference (exec o store op).1 at hOpen
      rw [hExec] at hOpen
      exact hOpen
  · have hNone : ∀ r, pays r op = false := by simpa using hSome
    have hAdvances := @advances_exec γ o store op hNone
    have hFired : (payment reference).fired (exec o store op).1 =
        (payment reference).fired store := hAdvances.countP_eq
    rw [hNone reference, Bool.toNat_false, Nat.sub_zero] at hHolds
    cases hClaims : claims reference ⟨op, (exec o store op).2⟩ with
    | false =>
      rw [hClaims, Bool.toNat_false, add_zero] at hHolds
      exact .inl ⟨by omega, fun hOpen => .inl (hAdvances.unclaimed hOpen)⟩
    | true =>
      obtain ⟨⟨row, hRow, hPending⟩, row', hRow', hProcessing⟩ := exec_claims hClaims
      rw [hClaims, Bool.toNat_true] at hHolds
      refine .inr ⟨?_, ?_, by omega⟩
      · intro other hOther
        rw [hRow, Option.some.injEq] at hOther
        exact hOther ▸ hPending
      · intro hOpen
        have hStill := hOpen row' hRow'
        rw [hProcessing] at hStill
        cases hStill

end Steps

/-! Runs. -/

/-- A payment comes after the lock of its withdrawal's amount. -/
def PaidAfterLock (store : PayoutStore) : Prop :=
  ∀ before entry after, store.log = before ++ entry :: after → ∀ r, entry.pays r = true →
    ∃ row : Row, store.db.rows[r]? = some row ∧ .locked r row.withdrawal.amount ∈ before

/-- Every withdrawal's amount was locked. -/
def RowsLocked (store : PayoutStore) : Prop :=
  ∀ (r : ℕ) (row : Row), store.db.rows[r]? = some row →
    .locked r row.withdrawal.amount ∈ store.log

theorem PaidAfterLock.append (h : PaidAfterLock store) {entries : List LogEntry}
    (hKept : ∀ (r : ℕ) (row : Row), store.db.rows[r]? = some row →
      ∃ row' : Row, store'.db.rows[r]? = some row' ∧
        row'.withdrawal.amount = row.withdrawal.amount)
    (hLog : store'.log = store.log ++ entries)
    (hNew : ∀ entry ∈ entries, ∀ r, entry.pays r = true → ∃ row : Row,
      store'.db.rows[r]? = some row ∧ .locked r row.withdrawal.amount ∈ store.log) :
    PaidAfterLock store' := by
  intro before entry after hSplit r hPays
  have hOld : ∀ tail, store.log = before ++ entry :: tail → ∃ row : Row,
      store'.db.rows[r]? = some row ∧ .locked r row.withdrawal.amount ∈ before := by
    intro tail hTail
    obtain ⟨row, hRow, hLocked⟩ := h before entry tail hTail r hPays
    obtain ⟨row', hRow', hAmount⟩ := hKept r row hRow
    exact ⟨row', hRow', hAmount ▸ hLocked⟩
  rw [hLog] at hSplit
  rcases List.append_eq_append_iff.mp hSplit with ⟨gap, hBefore, hEntries⟩ | ⟨gap, hBefore, hEntries⟩
  · obtain ⟨row, hRow, hLocked⟩ := hNew entry (by simp [hEntries]) r hPays
    exact ⟨row, hRow, hBefore ▸ List.mem_append_left _ hLocked⟩
  · cases gap with
    | nil =>
      rw [List.nil_append] at hEntries
      obtain ⟨row, hRow, hLocked⟩ := hNew entry (by simp [← hEntries]) r hPays
      exact ⟨row, hRow, by simpa [hBefore] using hLocked⟩
    | cons head gap =>
      rw [List.cons_append, List.cons.injEq] at hEntries
      obtain ⟨rfl, _⟩ := hEntries
      exact hOld gap hBefore

theorem Advances.rowsLocked (h : Advances store store') (hRows : RowsLocked store) :
    RowsLocked store' := by
  intro r row' hRow'
  rcases h.new r row' hRow' with ⟨row, hRow⟩ | hLocked
  · obtain ⟨row₂, hRow₂, hAmount, _⟩ := h.kept r row hRow
    obtain ⟨entries, hLog, _⟩ := h.log
    rw [hRow', Option.some.injEq] at hRow₂
    subst hRow₂
    rw [hAmount, hLog]
    exact List.mem_append_left _ (hRows r row hRow)
  · exact hLocked

theorem Advances.paidAfterLock (h : Advances store store') (hPaid : PaidAfterLock store) :
    PaidAfterLock store' := by
  obtain ⟨entries, hLog, hLocks⟩ := h.log
  refine hPaid.append ?_ hLog ?_
  · intro r row hRow
    obtain ⟨row', hRow', hAmount, _⟩ := h.kept r row hRow
    exact ⟨row', hRow', hAmount⟩
  · intro entry hEntry r hPays
    rw [hLocks entry hEntry r] at hPays
    cases hPays

/-- What a call knows: it is a run of what it entered, and what it has claimed is there. -/
def Claimant (store : PayoutStore) (call : Running Thrown Op) : Prop :=
  (∃ request, Runs (entry request) call.history call.rest) ∧
    ∀ r, 1 ≤ (payment r).holds call → ∃ row, store.db.rows[r]? = some row

theorem rows_exec (op : Op γ) {r : ℕ} (h : ∃ row, store.db.rows[r]? = some row) :
    ∃ row, (exec o store op).1.db.rows[r]? = some row := by
  obtain ⟨row, hRow⟩ := h
  by_cases hSome : ∃ r, pays r op = true
  · obtain ⟨r', hPays⟩ := hSome
    obtain ⟨_, hExec, _⟩ := @exec_pays γ o store r' op hPays
    rw [hExec]
    exact ⟨row, hRow⟩
  · obtain ⟨row', hRow', _⟩ := (advances_exec op (by simpa using hSome)).kept r row hRow
    exact ⟨row', hRow'⟩

theorem claimant_step {call call' : Running Thrown Op} {op : Op γ} {next : γ → AsyncFn Unit}
    (hRest : call.rest = .await op next)
    (hCall : call' = ⟨call.history ++ [⟨op, (exec o store op).2⟩], next (exec o store op).2⟩)
    (h : Claimant store call) : Claimant (exec o store op).1 call' := by
  obtain ⟨⟨request, hRun⟩, hClaimed⟩ := h
  rw [hRest] at hRun
  refine ⟨⟨request, hCall ▸ hRun.await _⟩, ?_⟩
  intro r hHolds
  cases hClaims : claims r ⟨op, (exec o store op).2⟩ with
  | true =>
    obtain ⟨_, row, hRow, _⟩ := exec_claims hClaims
    exact ⟨row, hRow⟩
  | false =>
    rw [holds_step (by rw [hCall]), hClaims, Bool.toNat_false] at hHolds
    exact rows_exec op (hClaimed r (by omega))

theorem locked_step {call : Running Thrown Op} {op : Op γ} {next : γ → AsyncFn Unit}
    (hRest : call.rest = .await op next) (hCall : Claimant store call)
    (hRows : RowsLocked store) (hPaid : PaidAfterLock store) :
    RowsLocked (exec o store op).1 ∧ PaidAfterLock (exec o store op).1 := by
  obtain ⟨⟨request, hRun⟩, hClaimed⟩ := hCall
  rw [hRest] at hRun
  by_cases hSome : ∃ r, pays r op = true
  · obtain ⟨r, hPays⟩ := hSome
    obtain ⟨entry, hExec, hEntry⟩ := @exec_pays γ o store r op hPays
    rw [hExec]
    refine ⟨fun r row hRow => List.mem_append_left _ (hRows r row hRow), ?_⟩
    refine hPaid.append (fun _ row hRow => ⟨row, hRow, rfl⟩) rfl ?_
    intro new hNew r' hPays'
    rw [List.mem_singleton.mp hNew, hEntry] at hPays'
    obtain ⟨row, hRow⟩ := hClaimed r' ((permits_entry request 0).allowed hRun hPays')
    exact ⟨row, hRow, hRows r' row hRow⟩
  · have hAdvances := @advances_exec γ o store op (by simpa using hSome)
    exact ⟨hAdvances.rowsLocked hRows, hAdvances.paidAfterLock hPaid⟩

section Reach
variable {start : PayoutStore} {c : Config PayoutStore (Running Thrown Op)}

theorem allowed_of_reaches (h : program.Reaches anyStep (Program.idle start) c)
    {call : Running Thrown Op} (hCall : call ∈ c.calls) {op : Op γ} {next : γ → AsyncFn Unit}
    (hRest : call.rest = .await op next) :
    pays reference op = true → 1 ≤ (payment reference).holds call := by
  obtain ⟨request, hRun⟩ := calls_run h call hCall
  rw [hRest] at hRun
  exact (permits_entry request 0).allowed hRun

theorem payment_sound (hLog : start.log = [])
    (h : program.Reaches anyStep (Program.idle start) c) : (payment reference).Sound c := by
  refine Ticket.Sound.reaches h ⟨?_, ?_⟩ (fun _ => rfl) ?_
  · simp [Ticket.spent, Program.idle, payment, hLog]
  · simp [Ticket.spent, Program.idle, payment, hLog]
  · intro o store store' call call' before after hReach _ hStep
    obtain ⟨_, op, next, hRest, rfl, rfl⟩ := asyncProgram_step hStep
    exact payment_step (allowed_of_reaches hReach (by simp) hRest) rfl

theorem paidAfterLock_of_reaches (hRows : start.db.rows = []) (hLog : start.log = [])
    (h : program.Reaches anyStep (Program.idle start) c) : PaidAfterLock c.store := by
  have hInit : RowsLocked start ∧ PaidAfterLock start := by
    refine ⟨?_, ?_⟩
    · intro r row hRow
      simp [hRows] at hRow
    · intro before entry after hSplit
      simp [hLog] at hSplit
  refine (h.assertions (fun store => RowsLocked store ∧ PaidAfterLock store) Claimant
    ⟨hInit, by simp [Program.idle]⟩ ?_ ?_ ?_).1.2
  · intro request store _
    refine ⟨⟨request, .start⟩, ?_⟩
    intro r hHolds
    exact absurd hHolds (Nat.not_succ_le_zero 0)
  · rintro o store store' call call' ⟨hLocked, hPaid⟩ hCall _ hStep
    obtain ⟨_, op, next, hRest, rfl, hNext⟩ := asyncProgram_step hStep
    exact ⟨locked_step hRest hCall hLocked hPaid, claimant_step hRest hNext hCall⟩
  · rintro o store store' call call' other _ _ ⟨hRun, hClaimed⟩ _ hStep
    obtain ⟨_, op, next, _, rfl, _⟩ := asyncProgram_step hStep
    exact ⟨hRun, fun r hHolds => rows_exec op (hClaimed r hHolds)⟩

/-- However the calls interleave, a payout is asked for at most once per withdrawal, and only
after the lock of that withdrawal's amount. -/
theorem payout_at_most_once_after_lock (hRows : start.db.rows = []) (hLog : start.log = [])
    (h : program.Reaches anyStep (Program.idle start) c) (reference : ℕ) :
    c.store.log.countP (·.pays reference) ≤ 1 ∧
      ∀ before entry after, c.store.log = before ++ entry :: after →
        entry.pays reference = true → ∃ row : Row, c.store.db.rows[reference]? = some row ∧
          .locked reference row.withdrawal.amount ∈ before := by
  refine ⟨(payment_sound hLog h).fired_le, ?_⟩
  intro before entry after hSplit hPays
  exact paidAfterLock_of_reaches hRows hLog h before entry after hSplit reference hPays

end Reach

/-! A withdrawal of 2000 FARM to a phone that two calls process at once. -/

namespace Sample

def start : PayoutStore where
  db :=
    { bank := ⟨fun id => if id = 0 then some ⟨toUnits 5000, 0, false⟩ else none, none, [], []⟩
      activeWallet := fun _ => some 0
      userNames := fun _ => ⟨some "Jane", some "Doe"⟩
      rows := [] }
  log := []

def service : (α : Type) → ServiceCall α → Reply α
  | _, .feeRule _ => .ok ⟨3 / 2, 0, 0, 0⟩
  | _, .farmKesRate => .ok (some 1)
  | _, .createTransferRecipient _ => .ok (some ⟨some "RCP_1"⟩)
  | _, _ => .error (.other "not asked")

def outcome : Outcome where
  now := 0
  limits := ⟨5, 1000000⟩
  service := service
  initiateTransfer := .ok ⟨some "TRF_1", none, some "pending"⟩
  createPayout := .error (.other "not asked")
  failure := none

def dto : CreateWithdrawDto :=
  ⟨2000, .mobileMoney, none, none, none, some "+254712345678", none, none, none⟩

/-- The first call creates the withdrawal and reads it, the second reads it too; both claim. -/
def moves : List (Move Request Outcome) :=
  [.enter (.createWithdrawal 0 dto true), .run 0 outcome, .run 0 outcome, .run 0 outcome,
    .run 0 outcome, .run 0 outcome, .enter (.processWithdrawal 0), .run 1 outcome, .run 0 outcome,
    .run 1 outcome, .run 0 outcome, .run 0 outcome, .run 0 outcome]

end Sample

/-- One of the two pays, after the lock. -/
theorem two_processors_pay_once :
    ∃ c, program.Reaches anyStep (Program.idle Sample.start) c ∧
      c.store.log = [.locked 0 2000, .initiateTransfer ⟨1970, some "RCP_1", 0⟩] ∧
      c.store.log.countP (·.pays 0) ≤ 1 ∧
      ∀ before entry after, c.store.log = before ++ entry :: after → entry.pays 0 = true →
        ∃ row : Row, c.store.db.rows[0]? = some row ∧
          .locked 0 row.withdrawal.amount ∈ before := by
  have hLog : (program.schedule Sample.moves (Program.idle Sample.start)).map
      (fun c => c.store.log) =
        some [.locked 0 2000, .initiateTransfer ⟨1970, some "RCP_1", 0⟩] := by
    decide +kernel
  obtain ⟨c, hSchedule, hLast⟩ := Option.map_eq_some_iff.mp hLog
  have hReach := Program.reaches_of_schedule hSchedule
  exact ⟨c, hReach, hLast, payout_at_most_once_after_lock rfl rfl hReach 0⟩

end FarmBackend.PayoutOnce
