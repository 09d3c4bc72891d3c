import Mathlib.Algebra.Order.BigOperators.Group.List
import FarmBackend.MerchantPayouts
import FarmBackend.Rows

/-!
# What backs a payout

Nothing: neither call of a payout changes a wallet. So the first positive amount that is completed is not
backed, and the money that a request has compared itself with can be spent before the decision.
-/

namespace FarmBackend.MerchantPayouts
open Decimal Fees Wallets Interleaving Rows
open Withdrawals (WithdrawDb DailyLimits unlock)

set_option autoImplicit false

/-! ### The counts -/

/-- In every run: what came in and did not go out is the balance, and nothing was taken for a payout. -/
structure Booked (wallet : WalletId) (s : Store) : Prop where
  balance : s.received - s.debited = s.bank.balanceOf wallet
  taken : s.taken = 0

section Counts
variable {owner : UserId} {wallet : WalletId} {o : Outcome} {s s' : Store} {call call' : Call}

theorem Booked.backed_iff (h : Booked wallet s) :
    Backed s ↔ completedTotal s.payouts ≤ 0 ∧ completedTotal s.payouts ≤ s.bank.balanceOf wallet := by
  obtain ⟨hBalance, hTaken⟩ := h
  rw [← hBalance, ← hTaken]
  constructor
  · exact fun hBacked => ⟨hBacked.taken, by linarith [hBacked.received]⟩
  · exact fun ⟨hLeft, hRight⟩ => ⟨hLeft, by linarith⟩

theorem bank_of_payout (hPayout : call.ofPayout = true) (h : act owner o s call = some (s', call')) :
    s'.bank = s.bank := by
  cases call with
  | requestPayout amount | payoutWallet amount =>
    simp only [act, Option.ite_none_right_eq_some, Option.some.injEq, Prod.mk.injEq] at h
    rw [h.2.1]
  | createPayout amount =>
    simp only [act, Option.some.injEq, Prod.mk.injEq] at h
    rw [← h.1]
    rfl
  | processPayout id adminId decision =>
    simp only [act, Option.bind_eq_bind, Option.bind_eq_some_iff, Option.pure_def, Option.some.injEq,
      Prod.mk.injEq] at h
    obtain ⟨_, -, rfl, -⟩ := h
    rfl
  | _ => cases hPayout

theorem booked_of_step (h : Booked wallet s) (hStep : step owner wallet o s call = some (s', call')) :
    Booked wallet s' := by
  obtain ⟨⟨next, call₁⟩, hAct, hCount⟩ := Option.map_eq_some_iff.mp hStep
  cases hCount
  obtain ⟨hBalance, hTaken⟩ := h
  have hSplit : ∀ n : ℤ, max 0 n - max 0 (-n) = n := by
    intro n
    rcases le_total 0 n with hn | hn
    · rw [max_eq_right hn, max_eq_left (by linarith), sub_zero]
    · rw [max_eq_left hn, max_eq_right (by linarith)]
      ring
  have hChange := hSplit (next.bank.balanceOf wallet - s.bank.balanceOf wallet)
  rw [neg_sub] at hChange
  cases hPayout : call.ofPayout with
  | true =>
    have hSame := bank_of_payout hPayout hAct
    refine ⟨?_, ?_⟩
    · change s.received + _ - (s.debited + 0) = next.bank.balanceOf wallet
      rw [hSame, sub_self, max_self, add_zero, add_zero, hBalance]
    · change s.taken + (_ + _) = 0
      rw [hSame, sub_self, sub_self, max_self, hTaken]
      rfl
  | false =>
    refine ⟨?_, ?_⟩
    · change s.received + _ - (s.debited + _) = next.bank.balanceOf wallet
      rw [if_neg Bool.false_ne_true]
      linarith
    · change s.taken + 0 = 0
      rw [hTaken, add_zero]

end Counts

/-! ### The balance -/

/-- The wallet is not overdrawn. -/
def Funds (wallet : WalletId) (bank : Bank) : Prop := 0 ≤ bank.balanceOf wallet

section Funds
variable {wallet id : WalletId} {bank bank' : Bank} {x : ℚ}

theorem Funds.update {f : Wallet → Wallet} (h : Funds wallet bank)
    (hf : wallet = id → ∀ w, bank.wallets id = some w → 0 ≤ (f w).balance)
    (hUpdate : bank.walletsUpdate id f = some bank') : Funds wallet bank' := by
  obtain ⟨w, hWallet, hBalance⟩ := Bank.balanceOf_walletsUpdate hUpdate
  unfold Funds
  rw [hBalance]
  split
  · rename_i hId
    exact hf hId w hWallet
  · exact h

theorem funds_transactionsCreate (row : Transaction) (h : Funds wallet bank) :
    Funds wallet (bank.transactionsCreate row) := h

theorem funds_ledgerCreate (entry : LedgerEntry) (h : Funds wallet bank) :
    Funds wallet (bank.ledgerCreate entry) := h

theorem nonneg_increment {w : Wallet} (h : -x ≤ toNumber w.balance) :
    0 ≤ (w.incrementBalance x).balance := column_nonneg (by linarith)

theorem nonneg_decrement {w : Wallet} (h : x ≤ toNumber w.balance) :
    0 ≤ (w.decrementBalance x).balance := column_nonneg (by linarith)

theorem Funds.credit {transactionId : Option ℕ} (h : Funds wallet bank)
    (hCredit : bank.creditPlatformInTx x transactionId = some bank') : Funds wallet bank' := by
  unfold Bank.creditPlatformInTx at hCredit
  split at hCredit
  · rename_i hAmount
    split at hCredit
    · cases hCredit
    · simp only [Bank.creditWalletInTx, if_pos hAmount, Option.bind_eq_bind, Option.bind_eq_some_iff,
        Option.pure_def, Option.some.injEq] at hCredit
      obtain ⟨bank₁, hUpdate, rfl⟩ := hCredit
      have hCredited : Funds wallet bank₁ := by
        refine h.update ?_ hUpdate
        rintro rfl w hWallet
        have hOld : 0 ≤ toNumber w.balance := value_nonneg.mpr (Bank.balanceOf_eq hWallet ▸ h)
        exact nonneg_increment (by linarith)
      exact hCredited
  · cases hCredit
    exact h

theorem funds_sendFundsTx {senderWalletId receiverWalletId : WalletId} {amount fee merchantFee : ℚ}
    {now : Time} (h : Funds wallet bank) (hOther : senderWalletId ≠ receiverWalletId)
    (hSender : senderWalletId = wallet →
      SendFunds.totalOut amount fee ≤ toNumber (bank.balanceOf wallet))
    (hReceiver : receiverWalletId = wallet →
      -SendFunds.receiverCredit amount merchantFee ≤ toNumber (bank.balanceOf wallet))
    (hTx : SendFunds.sendFundsTx senderWalletId receiverWalletId amount fee merchantFee now bank =
      some bank') : Funds wallet bank' := by
  simp only [SendFunds.sendFundsTx, Option.bind_eq_bind, Option.bind_eq_some_iff] at hTx
  obtain ⟨bank₁, hDebit, bank₂, hCredit, bank₃, hMerchantFee, hFee⟩ := hTx
  have hDebited : Funds wallet bank₁ := by
    refine (funds_transactionsCreate _ h).update ?_ hDebit
    rintro rfl w hWallet
    rw [Bank.wallets_transactionsCreate] at hWallet
    have hCovered := hSender rfl
    rw [Bank.balanceOf_eq hWallet] at hCovered
    exact nonneg_decrement hCovered
  have hCredited : Funds wallet bank₂ := by
    refine hDebited.update ?_ hCredit
    rintro rfl w hWallet
    obtain ⟨_, _, hWallets⟩ := Bank.wallets_walletsUpdate hDebit
    rw [hWallets, Function.update_of_ne hOther.symm, Bank.wallets_transactionsCreate] at hWallet
    have hCovered := hReceiver rfl
    rw [Bank.balanceOf_eq hWallet] at hCovered
    exact nonneg_increment hCovered
  have hFees : Funds wallet bank₃ :=
    (funds_ledgerCreate _ (funds_ledgerCreate _ hCredited)).credit hMerchantFee
  exact hFees.credit hFee

theorem funds_lockFundsInTx {db db' : WithdrawDb} {userId : UserId} {limits : DailyLimits}
    {now : Time} (h : Funds wallet db.bank) (hLock : db.lockFundsInTx id userId x limits now = some db') :
    Funds wallet db'.bank := by
  simp only [WithdrawDb.lockFundsInTx, Option.bind_eq_bind, Option.bind_eq_some_iff, Option.pure_def,
    Option.ite_none_right_eq_some, Option.some.injEq] at hLock
  obtain ⟨_, -, -, bank', hUpdate, rfl⟩ := hLock
  refine h.update ?_ hUpdate
  rintro rfl w hWallet
  exact Bank.balanceOf_eq hWallet ▸ h

/-- The debit of a withdrawal checks the row that it changes. -/
theorem funds_markAsSuccessTx {db db' : WithdrawDb} {reference : ℕ}
    {withdrawal : Withdrawals.Withdrawal} {transaction : Withdrawals.WithdrawalTransaction}
    {claimed : Bool} (h : Funds wallet db.bank)
    (hTx : db.markAsSuccessTx reference withdrawal transaction id = some (db', claimed)) :
    Funds wallet db'.bank := by
  simp only [WithdrawDb.markAsSuccessTx, Option.bind_eq_bind, Option.bind_eq_some_iff] at hTx
  obtain ⟨row, -, hTx⟩ := hTx
  split at hTx
  · simp only [Option.bind_eq_some_iff, Option.ite_none_right_eq_some, Option.pure_def,
      Option.some.injEq, Prod.mk.injEq, Withdrawals.creditPlatformFeeInTx] at hTx
    obtain ⟨w, hWallet, hFunds, bank₁, hUpdate, bank₂, hFee, rfl, -⟩ := hTx
    have hDebited : Funds wallet bank₁ := by
      refine h.update ?_ hUpdate
      rintro rfl w' hw'
      obtain rfl : w = w' := Option.some.inj (hWallet.symm.trans hw')
      exact nonneg_decrement hFunds
    have hAll : Funds wallet bank₂ := (funds_ledgerCreate _ hDebited).credit hFee
    exact hAll
  · simp only [Option.pure_def, Option.some.injEq, Prod.mk.injEq] at hTx
    exact hTx.1 ▸ h

theorem funds_rejectWithdrawalTx {db db' : WithdrawDb} {reference : ℕ}
    {withdrawal : Withdrawals.Withdrawal} {transaction : Withdrawals.WithdrawalTransaction}
    {claimed : Bool} (h : Funds wallet db.bank)
    (hTx : db.rejectWithdrawalTx reference withdrawal transaction id = some (db', claimed)) :
    Funds wallet db'.bank := by
  simp only [WithdrawDb.rejectWithdrawalTx, Option.bind_eq_bind, Option.bind_eq_some_iff] at hTx
  obtain ⟨row, -, hTx⟩ := hTx
  split at hTx
  · simp only [Option.bind_eq_some_iff, Option.pure_def, Option.some.injEq, Prod.mk.injEq] at hTx
    obtain ⟨bank', hUpdate, rfl, -⟩ := hTx
    have hUnlocked : Funds wallet bank' := by
      refine h.update ?_ hUpdate
      rintro rfl w hWallet
      exact Bank.balanceOf_eq hWallet ▸ h
    exact hUnlocked
  · simp only [Option.pure_def, Option.some.injEq, Prod.mk.injEq] at hTx
    exact hTx.1 ▸ h

end Funds

/-! ### Runs -/

/-- What the runs under the guard keep. -/
structure Kept (wallet : WalletId) (s : Store) : Prop where
  booked : Booked wallet s
  funds : Funds wallet s.bank
  unpaid : ∀ p ∈ s.payouts, p.status = .completed → p.amount ≤ 0

def Knows : Call → Prop
  | .send call => SendFunds.Knows call
  | _ => True

section Runs
variable {owner : UserId} {wallet : WalletId} {o : Outcome} {s s' start : Store} {call call' : Call}
  {c later : Config Store Call}

theorem completedTotal_nonpos {payouts : List Payout}
    (h : ∀ p ∈ payouts, p.status = .completed → p.amount ≤ 0) : completedTotal payouts ≤ 0 := by
  refine (List.sum_le_card_nsmul _ 0 ?_).trans_eq (nsmul_zero _)
  intro n hMem
  obtain ⟨p, hIn, rfl⟩ := List.mem_map.mp hMem
  obtain ⟨hPayout, hStatus⟩ := List.mem_filter.mp hIn
  exact h p hPayout (by simpa using hStatus)

theorem Kept.backed (h : Kept wallet s) : Backed s := by
  have hTotal := completedTotal_nonpos h.unpaid
  exact h.booked.backed_iff.mpr ⟨hTotal, hTotal.trans h.funds⟩

theorem funds_of_act (hFunds : Funds wallet s.bank) (hKnows : Knows call)
    (hOk : Sound wallet o s call) (h : act owner o s call = some (s', call')) :
    Funds wallet s'.bank := by
  cases hPayout : call.ofPayout with
  | true => exact bank_of_payout hPayout h ▸ hFunds
  | false =>
    cases call with
    | send inner =>
      simp only [act, Option.bind_eq_bind, Option.bind_eq_some_iff, Option.pure_def,
        Option.some.injEq, Prod.mk.injEq] at h
      obtain ⟨⟨db, next⟩, hSend, rfl, -⟩ := h
      rcases SendFunds.bank_of_step hSend with hSame | ⟨_, _, _, _, _, rfl, hTx⟩
      · have hBank : Funds wallet db.bank := hSame ▸ hFunds
        exact hBank
      · obtain ⟨hSender, hReceiver⟩ := of_decide_eq_true hOk
        exact funds_sendFundsTx hFunds hKnows hSender hReceiver hTx
    | lockFundsInTx new =>
      simp only [act, Option.bind_eq_bind, Option.bind_eq_some_iff, Option.pure_def,
        Option.some.injEq, Prod.mk.injEq] at h
      obtain ⟨db, hLock, rfl, -⟩ := h
      have hLocked := funds_lockFundsInTx hFunds hLock
      exact hLocked
    | markAsSuccessTx reference withdrawal transaction walletId =>
      simp only [act, Option.bind_eq_bind, Option.bind_eq_some_iff, Option.pure_def,
        Option.some.injEq, Prod.mk.injEq] at h
      obtain ⟨⟨db, claimed⟩, hTx, rfl, -⟩ := h
      exact funds_markAsSuccessTx hFunds hTx
    | rejectWithdrawalTx reference withdrawal transaction walletId =>
      simp only [act, Option.bind_eq_bind, Option.bind_eq_some_iff, Option.pure_def,
        Option.some.injEq, Prod.mk.injEq] at h
      obtain ⟨⟨db, claimed⟩, hTx, rfl, -⟩ := h
      exact funds_rejectWithdrawalTx hFunds hTx
    | done => cases h
    | _ => cases hPayout

/-- What a step does to the payouts. -/
inductive Filed (o : Outcome) (s s' : Store) : Call → Prop where
  | same {call : Call} (h : s'.payouts = s.payouts) : Filed o s s' call
  | created {amount : ℚ} (h : s'.payouts = s.payouts ++ [⟨Wallets.toUnits amount, .pending, none, none⟩]) :
      Filed o s s' (.createPayout amount)
  | processed {id : ℕ} {adminId : UserId} {decision : Decision}
      (h : s'.payouts = s.payouts.modify id fun p => { p with
        status := decision.status
        processedBy := some adminId
        processedAt := some o.now }) : Filed o s s' (.processPayout id adminId decision)

theorem filed_of_act (h : act owner o s call = some (s', call')) : Filed o s s' call := by
  cases call with
  | requestPayout amount | payoutWallet amount =>
    simp only [act, Option.ite_none_right_eq_some, Option.some.injEq, Prod.mk.injEq] at h
    exact .same (h.2.1 ▸ rfl)
  | createPayout amount =>
    simp only [act, Option.some.injEq, Prod.mk.injEq] at h
    exact .created (h.1 ▸ rfl)
  | processPayout id adminId decision =>
    simp only [act, Option.bind_eq_bind, Option.bind_eq_some_iff, Option.pure_def, Option.some.injEq,
      Prod.mk.injEq] at h
    obtain ⟨_, -, rfl, -⟩ := h
    exact .processed rfl
  | send inner =>
    simp only [act, Option.bind_eq_bind, Option.bind_eq_some_iff, Option.pure_def, Option.some.injEq,
      Prod.mk.injEq] at h
    obtain ⟨_, -, rfl, -⟩ := h
    exact .same rfl
  | lockFundsInTx | markAsSuccessTx | rejectWithdrawalTx =>
    simp only [act, Option.bind_eq_bind, Option.bind_eq_some_iff, Option.pure_def, Option.some.injEq,
      Prod.mk.injEq] at h
    obtain ⟨_, -, rfl, -⟩ := h
    exact .same rfl
  | done => cases h

theorem sound_row {id : ℕ} {adminId : UserId} {decision : Decision} {p : Payout}
    (hOk : Sound wallet o s (.processPayout id adminId decision)) (hRow : s.payouts[id]? = some p) :
    p.status = .pending ∧ (decision = .completed → p.amount ≤ 0) := by
  have hAll : s.payouts[id]?.all (fun p =>
    decide (p.status = .pending ∧ (decision = .completed → p.amount ≤ 0))) = true := hOk
  rw [hRow] at hAll
  exact of_decide_eq_true hAll

theorem unpaid_of_filed (hUnpaid : ∀ p ∈ s.payouts, p.status = .completed → p.amount ≤ 0)
    (hOk : Sound wallet o s call) (h : Filed o s s' call) :
    ∀ p ∈ s'.payouts, p.status = .completed → p.amount ≤ 0 := by
  cases h with
  | same h => rwa [h]
  | created h =>
    rw [h]
    intro p hMem hStatus
    rcases List.mem_append.mp hMem with hOld | hNew
    · exact hUnpaid p hOld hStatus
    · rw [List.mem_singleton.mp hNew] at hStatus
      cases hStatus
  | @processed id adminId decision h =>
    rw [h]
    intro p hMem hStatus
    obtain ⟨i, hAt⟩ := List.mem_iff_getElem?.mp hMem
    rcases getElem?_modify_cases hAt with ⟨rfl, old, hOld, rfl⟩ | ⟨-, hOld⟩
    · refine (sound_row hOk hOld).2 ?_
      cases decision with
      | completed => rfl
      | failed => cases hStatus
    · exact hUnpaid p (List.mem_of_getElem? hOld) hStatus

theorem decided_of_filed (hOk : Sound wallet o s call) (h : Filed o s s' call) : StaysDecided s s' := by
  intro id p hRow hDecided
  cases h with
  | same h => rwa [h]
  | created h =>
    rw [h]
    exact getElem?_append_of_some hRow
  | @processed other adminId decision h =>
    rw [h]
    by_cases hId : other = id
    · subst hId
      exact absurd (sound_row hOk hRow).1 hDecided
    · rwa [getElem?_modify_ne _ hId]

theorem kept_of_step (hKept : Kept wallet s) (hKnows : Knows call) (hOk : Sound wallet o s call)
    (hStep : step owner wallet o s call = some (s', call')) : Kept wallet s' ∧ Knows call' := by
  have hBooked := booked_of_step hKept.booked hStep
  obtain ⟨⟨next, call₁⟩, hAct, hCount⟩ := Option.map_eq_some_iff.mp hStep
  cases hCount
  have hUnpaid := unpaid_of_filed hKept.unpaid hOk (filed_of_act hAct)
  have hFunds := funds_of_act hKept.funds hKnows hOk hAct
  refine ⟨⟨hBooked, hFunds, hUnpaid⟩, ?_⟩
  cases call with
  | send inner =>
    simp only [act, Option.bind_eq_bind, Option.bind_eq_some_iff, Option.pure_def, Option.some.injEq,
      Prod.mk.injEq] at hAct
    obtain ⟨⟨db, after⟩, hSend, -, rfl⟩ := hAct
    exact SendFunds.knows_of_step hKnows hSend
  | requestPayout | payoutWallet =>
    simp only [act, Option.ite_none_right_eq_some, Option.some.injEq, Prod.mk.injEq] at hAct
    exact hAct.2.2 ▸ trivial
  | createPayout =>
    simp only [act, Option.some.injEq, Prod.mk.injEq] at hAct
    exact hAct.2 ▸ trivial
  | processPayout | lockFundsInTx | markAsSuccessTx | rejectWithdrawalTx =>
    simp only [act, Option.bind_eq_bind, Option.bind_eq_some_iff, Option.pure_def, Option.some.injEq,
      Prod.mk.injEq] at hAct
    obtain ⟨_, -, -, rfl⟩ := hAct
    exact trivial
  | done => cases hAct

theorem stays_decided (h : (program owner wallet).Reaches (Sound wallet) c later) :
    StaysDecided c.store later.store := by
  refine h.store_invariant (StaysDecided c.store) (fun _ _ hRow _ => hRow) ?_
  intro outcome store store' call call' hStays hOk hStep id p hRow hDecided
  obtain ⟨⟨next, call₁⟩, hAct, hCount⟩ := Option.map_eq_some_iff.mp hStep
  cases hCount
  exact decided_of_filed hOk (filed_of_act hAct) id p (hStays id p hRow hDecided) hDecided

/-- No payouts yet, and what the wallet holds is what it received. -/
structure Store.New (wallet : WalletId) (s : Store) : Prop where
  payouts : s.payouts = []
  booked : Booked wallet s
  funds : Funds wallet s.bank

/-- As long as only pending payouts are decided, no amount is completed and no transfer overdraws the
wallet, payouts are decided once and backed. -/
theorem payouts_backed (hStart : start.New wallet)
    (h : (program owner wallet).Reaches (Sound wallet) (Program.idle start) c) :
    Backed c.store ∧ ∀ later, (program owner wallet).Reaches (Sound wallet) c later →
      StaysDecided c.store later.store := by
  have hKept : Kept wallet start := ⟨hStart.booked, hStart.funds, by simp [hStart.payouts]⟩
  refine ⟨?_, fun later hLater => stays_decided hLater⟩
  refine Kept.backed (h.assertions (Kept wallet) (fun _ => Knows) ⟨hKept, ?_⟩ ?_ ?_ ?_).1
  · intro call hMem
    cases hMem
  · intro request _ _
    cases request <;> exact trivial
  · intro outcome store store' call call' hKept hKnows hOk hStep
    exact kept_of_step hKept hKnows hOk hStep
  · intro outcome store store' call call' other _ _ hOther _ _
    exact hOther

end Runs

/-- The merchant 8 has wallet 2 with 100 FARM, a friend wallet 3. -/
def hundred : Store where
  withdrawDb :=
    { bank :=
        { wallets := fun
            | 2 => some ⟨Wallets.toUnits 100, 0, false⟩
            | 3 => some ⟨0, 0, false⟩
            | _ => none
          platform := none
          transactions := []
          ledger := [] }
      activeWallet := fun userId => if userId = 8 then some 2 else some 3
      userNames := fun _ => ⟨none, none⟩
      rows := [] }
  findUser _ := some 9
  walletByAddress _ := none
  firstWallet _ := some 2
  payouts := []
  received := Wallets.toUnits 100
  debited := 0
  taken := 0

theorem hundred_new : hundred.New 2 := by
  refine ⟨rfl, ⟨?_, rfl⟩, ?_⟩
  · decide +kernel
  · unfold Funds
    decide +kernel

def runs (index n : ℕ) : List (Move Request Outcome) :=
  List.replicate n (.run index ⟨0, 0, FEE_DEFAULTS, true, ⟨0, 0⟩, true⟩)

/-- A payout of 60 is requested, 60 are sent to the friend, and the payout is completed. -/
def promised : List (Move Request Outcome) :=
  .enter (.requestPayout 60) :: runs 0 3 ++ .enter (.sendFunds 8 ⟨"friend", 60, false⟩) :: runs 1 6 ++
    .enter (.processPayout 0 1 .completed) :: runs 2 1

/-- The payout is completed although nothing was taken for it, and counted with the transfer more left the
wallet than it ever received; another click marks it as failed. -/
theorem payout_not_backed :
    (∃ c, (program 8 2).Reaches anyStep (Program.idle hundred) c ∧
      completedTotal c.store.payouts = Wallets.toUnits 60 ∧ c.store.debited = Wallets.toUnits 60 ∧
      c.store.received = Wallets.toUnits 100 ∧ ¬Backed c.store) ∧
    (∃ c later, (program 8 2).Reaches anyStep (Program.idle hundred) c ∧
      (program 8 2).Reaches anyStep c later ∧ ¬StaysDecided c.store later.store) := by
  have hPromised : ((program 8 2).schedule promised (Program.idle hundred)).any (fun c =>
      decide (completedTotal c.store.payouts = Wallets.toUnits 60 ∧ c.store.debited = Wallets.toUnits 60 ∧
        c.store.received = Wallets.toUnits 100 ∧ ¬Backed c.store)) = true := by
    decide +kernel
  have hDecided : ((program 8 2).schedule promised (Program.idle hundred)).any (fun c =>
      decide (c.store.payouts[0]?.any (·.status == .completed)) &&
        ((program 8 2).schedule (.enter (.processPayout 0 1 .failed) :: runs 3 1) c).any fun later =>
          later.store.payouts[0]?.any (·.status == .failed)) = true := by
    decide +kernel
  obtain ⟨c, hReach, hEnd⟩ := Program.reaches_of_any hPromised
  obtain ⟨c₁, hReach₁, hEnd₁⟩ := Program.reaches_of_any hDecided
  rw [Bool.and_eq_true] at hEnd₁
  obtain ⟨later, hLater, hFailed⟩ := Program.reaches_of_any hEnd₁.2
  obtain ⟨p, hRow, hStatus⟩ := (Option.any_eq_true _ _).mp (of_decide_eq_true hEnd₁.1)
  obtain ⟨p', hRow', hStatus'⟩ := (Option.any_eq_true _ _).mp hFailed
  refine ⟨⟨c, hReach, of_decide_eq_true hEnd⟩, c₁, later, hReach₁, hLater, fun hStays => ?_⟩
  have hCompleted : p.status = .completed := beq_iff_eq.mp hStatus
  have hSame := hStays 0 p hRow (by rw [hCompleted]; exact PayoutStatus.noConfusion)
  obtain rfl : p = p' := Option.some.inj (hSame.symm.trans hRow')
  rw [hCompleted] at hStatus'
  cases hStatus'

/-- A payout is requested and refused, and 60 FARM are sent. -/
theorem payout_refused : ∃ c, (program 8 2).Reaches (Sound 2) (Program.idle hundred) c ∧
    c.store.payouts.map (·.status) = [.failed] ∧ c.store.debited = Wallets.toUnits 60 ∧ Backed c.store ∧
    ∀ later, (program 8 2).Reaches (Sound 2) c later → StaysDecided c.store later.store := by
  have hRun : (((program 8 2).guarded (Sound 2)).schedule (.enter (.requestPayout 60) :: runs 0 3 ++
      .enter (.sendFunds 8 ⟨"friend", 60, false⟩) :: runs 1 6 ++
      .enter (.processPayout 0 1 .failed) :: runs 2 1) (Program.idle hundred)).any (fun c =>
      decide (c.store.payouts.map (·.status) = [.failed] ∧ c.store.debited = Wallets.toUnits 60)) = true := by
    decide +kernel
  obtain ⟨c, hReach, hEnd⟩ := Program.reaches_of_guarded_any hRun
  obtain ⟨hStatus, hDebited⟩ := of_decide_eq_true hEnd
  exact ⟨c, hReach, hStatus, hDebited, payouts_backed hundred_new hReach⟩

end FarmBackend.MerchantPayouts
