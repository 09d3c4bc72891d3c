import FarmBackend.CreditPending

/-!
# Every deposit from the chain is credited once (`chain-wallet/chain-wallet.service.ts`)

Which deposits are credited by calls of `creditPending` that come one after the other, and what calls
that are interleaved in any way have credited.
-/

namespace FarmBackend.CreditPending
open Interleaving Decimal Wallets
open ChainDeposits (Asset ChainDeposit)

set_option autoImplicit false

namespace Store

def isCreditedAt (s : Store) (id : ℕ) : Bool := s.deposits[id]?.any fun d => d.status == .credited

/-- The ledger entries whose transaction is of this deposit. -/
def creditsOf (s : Store) (id : ℕ) : List LedgerEntry :=
  s.ledger.filter fun e =>
    (e.transactionId.bind fun j => s.transactions[j]?).any fun t => t.chainDepositId == id

/-- The deposits are `detected` or `pending_rate`, and nothing is credited yet. -/
structure Recorded (s : Store) : Prop where
  isOpen : ∀ d ∈ s.deposits, d.status.isOpen = true
  ledger : s.ledger = []

end Store

/-- Call number `k` finds `TAKE` open deposits that are older, and neither it nor a later call can
credit one of them. -/
def Starved (os : ℕ → Outcome) (stores : ℕ → Store) (id k : ℕ) : Prop :=
  ∃ block : List ℕ, block.length = TAKE ∧ (block ++ [id]).Sublist (stores k).openIds ∧
    ∀ other ∈ block, ∀ j, k ≤ j → ready (os j) (stores k) other = false

/-- The deposit is open and has no credit, or it is credited and has one: of the floored conversion,
to the active wallet of its user. -/
def Once (s : Store) (id : ℕ) (d : Deposit) : Prop :=
  (d.status.isOpen = true ∧ s.creditsOf id = []) ∨
  (d.status = .credited ∧ ∃ j t, s.transactions[j]? = some t ∧ t.chainDepositId = id ∧
    (d.row.asset = .farm → t.rate = 1) ∧ s.activeWallet d.row.userId = some t.receiverWalletId ∧
    toNumber t.amount = farm t.rate d.row ∧
    s.creditsOf id = [⟨some j, t.receiverWalletId, .credit, t.amount⟩])

/-! ### One call after the other -/

section Calls
variable {os : ℕ → Outcome} {start : Store} {stores : ℕ → Store} {id : ℕ} {d : Deposit}

theorem starved_iff_blocked (h : Calls os start stores) (id k : ℕ) :
    Starved os stores id k ↔
      Windows.Blocked TAKE (fun j => ready (os j) start) start.openIds id k := by
  simp only [Starved, Windows.Blocked, stores_eq_calls h, openIds_calls, ready_calls]

theorem mem_openIds_iff (s : Store) (id : ℕ) : id ∈ s.openIds ↔ s.isOpenAt id = true := by
  rw [Store.openIds, List.mem_filter, List.mem_range, and_iff_right_iff_imp]
  intro hOpen
  obtain ⟨d, hRow, -⟩ := (Option.any_eq_true _ _).mp hOpen
  exact (List.getElem?_eq_some_iff.mp hRow).1

theorem openIds_of_recorded (h : start.Recorded) :
    start.openIds = List.range start.deposits.length := by
  apply List.filter_eq_self.mpr
  intro id hMem
  have hRow := List.getElem?_eq_getElem (List.mem_range.mp hMem)
  rw [Store.isOpenAt, hRow, Option.any_some]
  exact h.isOpen _ (List.getElem_mem _)

theorem isCreditedAt_calls (hRow : start.deposits[id]? = some d) (k : ℕ) :
    (calls os start k).isCreditedAt id = true ↔ id ∉ (calls os start k).openIds := by
  have hSame := rowAt_calls os start k id
  rw [Store.rowAt, Store.rowAt, hRow, Option.map_some] at hSame
  obtain ⟨d', hRow', -⟩ := Option.map_eq_some_iff.mp hSame
  rw [mem_openIds_iff, Store.isCreditedAt, Store.isOpenAt, hRow', Option.any_some, Option.any_some]
  cases d'.status <;> simp [DepositStatus.isOpen]

theorem ready_eq_hasWallet {o : Outcome} {rate : ℚ} (hRow : start.deposits[id]? = some d)
    (hRate : o.rateOf d.row.asset = some rate) (hFarm : 1 / 100 ≤ farm rate d.row) :
    ready o start id = start.hasWallet d.row.userId := by
  have hPos : 0 < farm rate d.row := lt_of_lt_of_le (by norm_num) hFarm
  rw [ready, Store.rowAt, hRow, Option.map_some, Option.any_some, Outcome.pays, hRate,
    Option.any_some, decide_eq_true hPos, Bool.true_and]

/-- A deposit that comes to 0.01 FARM with every call's rate is credited unless its user has no
active wallet or it is starved. -/
theorem exists_credited_iff (hStart : start.Recorded) (hCalls : Calls os start stores)
    (hRow : start.deposits[id]? = some d)
    (hRate : ∀ k, ∃ rate, (os k).rateOf d.row.asset = some rate ∧ 1 / 100 ≤ farm rate d.row) :
    (∃ k, (stores k).isCreditedAt id = true) ↔
      start.hasWallet d.row.userId = true ∧ ¬∃ k, Starved os stores id k := by
  have hReady : ∀ k, ready (os k) start id = start.hasWallet d.row.userId := by
    intro k
    obtain ⟨rate, hSome, hFarm⟩ := hRate k
    exact ready_eq_hasWallet hRow hSome hFarm
  have hOpen : id ∈ start.openIds := by
    rw [openIds_of_recorded hStart]
    exact List.mem_range.mpr (List.getElem?_eq_some_iff.mp hRow).1
  simp only [stores_eq_calls hCalls, isCreditedAt_calls hRow, openIds_calls,
    starved_iff_blocked hCalls]
  cases hHas : start.hasWallet d.row.userId with
  | true =>
    rw [Windows.leaves_iff_not_blocked fun k => (hReady k).trans hHas]
    simp
  | false =>
    have hStays := Windows.mem_passes_of_never_ready (n := TAKE) hOpen
      fun k => (hReady k).trans hHas
    simp [hStays]

/-- With fewer than `TAKE` older deposits nothing starves. -/
theorem not_starved_of_lt (hFew : id < TAKE) (k : ℕ) : ¬Starved os stores id k := by
  rintro ⟨block, hLength, hBlock, -⟩
  have hSorted : ((stores k).openIds).Pairwise (· < ·) := List.pairwise_lt_range.filter _
  have hBefore : ∀ other ∈ block, other < id := by
    intro other hMem
    have hPair := List.pairwise_append.mp (hSorted.sublist hBlock)
    exact hPair.2.2 other hMem id (List.mem_singleton.mpr rfl)
  have hNodup : block.Nodup :=
    ((hSorted.sublist hBlock).imp Nat.ne_of_lt).sublist (List.sublist_append_left block [id])
  have hShort : block.length ≤ (List.range id).length := by
    apply (hNodup.subperm _).length_le
    intro other hMem
    exact List.mem_range.mpr (hBefore other hMem)
  rw [List.length_range] at hShort
  omega

end Calls

/-! ### Interleaved calls -/

def Job.Read (start : Store) : Job → Prop
  | .credit id d r => start.rowAt id = some d.row ∧ (d.row.asset = .farm → r = 1)
  | .rate asset group => ∀ p ∈ group, start.rowAt p.1 = some p.2.row ∧ p.2.row.asset = asset
  | .hold _ => True

/-- What a call has read is what was recorded. -/
def Call.Read (start : Store) : Call → Prop
  | .work jobs _ => ∀ job ∈ jobs, job.Read start
  | _ => True

structure Sound (start s : Store) : Prop where
  rows : s.deposits.map Deposit.row = start.deposits.map Deposit.row
  entries : ∀ e ∈ s.ledger, ∃ j, e.transactionId = some j ∧ j < s.transactions.length
  once : ∀ id d, s.deposits[id]? = some d → Once s id d

section Interleaved
variable {start s s' : Store} {o : Outcome} {call call' : Call} {id : ℕ} {d : Deposit} {rate : ℚ}
  {walletId : WalletId} {wallet : Wallet}

theorem Sound.rowAt (h : Sound start s) (id : ℕ) : s.rowAt id = start.rowAt id := by
  rw [Store.rowAt, ← List.getElem?_map, h.rows, List.getElem?_map, Store.rowAt]

theorem sound_of_recorded (h : start.Recorded) : Sound start start := by
  refine ⟨rfl, ?_, ?_⟩
  · intro e hMem
    rw [h.ledger] at hMem
    cases hMem
  · intro id d hRow
    refine .inl ⟨h.isOpen d (List.mem_of_getElem? hRow), ?_⟩
    rw [Store.creditsOf, h.ledger, List.filter_nil]

theorem creditsOf_creditWrites
    (hEntries : ∀ e ∈ s.ledger, ∃ j, e.transactionId = some j ∧ j < s.transactions.length)
    (id other : ℕ) (d : Deposit) (rate : ℚ) (walletId : WalletId) (wallet : Wallet) :
    (s.creditWrites id d rate walletId wallet).creditsOf other = s.creditsOf other ++
      if id = other then
        [⟨some s.transactions.length, walletId, .credit, toUnits (farm rate d.row)⟩]
      else [] := by
  simp only [Store.creditsOf, Store.creditWrites, List.filter_append]
  congr 1
  · apply List.filter_congr
    intro e hMem
    obtain ⟨j, hTransaction, hLt⟩ := hEntries e hMem
    simp only [hTransaction, Option.bind_some, List.getElem?_append_left hLt]
  · by_cases hId : id = other
    · simp [hId]
    · simp [hId]

/-- What was credited once stays so while nothing more is credited. -/
theorem Once.congr (h : Once s id d) (hCredits : s'.creditsOf id = s.creditsOf id)
    (hTransactions : ∀ (j : ℕ) t, s.transactions[j]? = some t → s'.transactions[j]? = some t)
    (hWallet : s'.activeWallet = s.activeWallet) : Once s' id d := by
  rcases h with ⟨hOpen, hNone⟩ | ⟨hStatus, j, t, hAt, hDeposit, hPeg, hOwner, hAmount, hOne⟩
  · exact .inl ⟨hOpen, hCredits.trans hNone⟩
  · exact .inr ⟨hStatus, j, t, hTransactions j t hAt, hDeposit, hPeg, hWallet ▸ hOwner, hAmount,
      hCredits.trans hOne⟩

/-- The column holds the floored conversion. -/
theorem toNumber_farm (rate : ℚ) (row : ChainDeposit) :
    toNumber (toUnits (farm rate row)) = farm rate row := by
  rw [farm, FARM_DECIMALS, toNumber_cents, toUnits_toNumber]

theorem sound_creditWrites (h : Sound start s) (hOpen : s.isOpenAt id = true)
    (hRead : start.rowAt id = some d.row) (hPeg : d.row.asset = .farm → rate = 1)
    (hOwner : s.activeWallet d.row.userId = some walletId)
    (hWallet : s.wallets walletId = some wallet) :
    Sound start (s.creditWrites id d rate walletId wallet) := by
  have hCredits := creditsOf_creditWrites h.entries id
  refine ⟨(closes_creditWrites hWallet).rows.trans h.rows, ?_, ?_⟩
  · intro e hMem
    simp only [Store.creditWrites, List.length_append, List.length_singleton] at hMem ⊢
    rcases List.mem_append.mp hMem with hOld | hNew
    · obtain ⟨j, hTransaction, hLt⟩ := h.entries e hOld
      exact ⟨j, hTransaction, by omega⟩
    · rw [List.mem_singleton.mp hNew]
      exact ⟨s.transactions.length, rfl, by omega⟩
  · intro other d' hRow
    rcases Rows.getElem?_modify_cases hRow with ⟨rfl, old, hOld, rfl⟩ | ⟨hOther, hOld⟩
    · have hSame : old.row = d.row := by
        rw [← h.rowAt, Store.rowAt, hOld, Option.map_some] at hRead
        exact Option.some.inj hRead
      have hNone : s.creditsOf id = [] := by
        rw [Store.isOpenAt, hOld, Option.any_some] at hOpen
        rcases h.once id old hOld with ⟨-, hNone⟩ | ⟨hCredited, -⟩
        · exact hNone
        · rw [hCredited] at hOpen
          cases hOpen
      refine .inr ⟨rfl, s.transactions.length, _, List.getElem?_concat_length, rfl, ?_, ?_, ?_, ?_⟩
      · intro hFarm
        exact hPeg (hSame ▸ hFarm)
      · exact hSame.symm ▸ hOwner
      · rw [show (old.credit rate s.transactions.length).row = d.row from hSame]
        exact toNumber_farm rate d.row
      · rw [hCredits, hNone, if_pos rfl]
        rfl
    · apply (h.once other d' hOld).congr
      · rw [hCredits, if_neg hOther, List.append_nil]
      · intro j t hAt
        exact Rows.getElem?_append_of_some hAt
      · rfl

theorem sound_credit {credited : Bool} (h : Sound start s) (hRead : start.rowAt id = some d.row)
    (hPeg : d.row.asset = .farm → rate = 1) (hCredit : s.credit id d rate = some (s', credited)) :
    Sound start s' := by
  rcases credit_cases s id d rate with ⟨hSame, -⟩ | ⟨hNone, -⟩ |
    ⟨hOpen, -, -, walletId, wallet, hOwner, hWallet, hWrites⟩
  · rw [hSame] at hCredit
    cases hCredit
    exact h
  · rw [hNone] at hCredit
    cases hCredit
  · rw [hWrites] at hCredit
    cases hCredit
    exact sound_creditWrites h hOpen hRead hPeg hOwner hWallet

theorem sound_hold (h : Sound start s) (ids : List ℕ) : Sound start (s.hold ids) := by
  refine ⟨(closes_hold ids s).rows.trans h.rows, h.entries, ?_⟩
  intro id d hRow
  rw [Store.hold, List.getElem?_mapIdx] at hRow
  obtain ⟨old, hOld, rfl⟩ := Option.map_eq_some_iff.mp hRow
  have hOnce : Once (s.hold ids) id old := (h.once id old hOld).congr rfl (fun _ _ hAt => hAt) rfl
  split
  · rename_i hHeld
    rcases hOnce with ⟨-, hNone⟩ | ⟨hCredited, -⟩
    · exact .inl ⟨rfl, hNone⟩
    · rw [hHeld.2] at hCredited
      cases hCredited
  · exact hOnce

theorem read_creditJobs {group : List (ℕ × Deposit)}
    (hGroup : ∀ p ∈ group, start.rowAt p.1 = some p.2.row ∧ (p.2.row.asset = .farm → rate = 1)) :
    ∀ job ∈ creditJobs rate group, job.Read start := by
  intro job hMem
  obtain ⟨p, hIn, rfl⟩ := List.mem_map.mp hMem
  exact hGroup p hIn

theorem read_jobsOf {pending : List (ℕ × Deposit)}
    (hPending : ∀ p ∈ pending, start.rowAt p.1 = some p.2.row) :
    ∀ job ∈ jobsOf pending, job.Read start := by
  have hRateJobs : ∀ asset, ∀ job ∈ rateJobs asset pending, job.Read start := by
    intro asset job hMem
    simp only [rateJobs] at hMem
    split at hMem
    · cases hMem
    · rw [List.mem_singleton.mp hMem]
      intro p hIn
      obtain ⟨hPair, hAsset⟩ := List.mem_filter.mp hIn
      exact ⟨hPending p hPair, beq_iff_eq.mp hAsset⟩
  intro job hMem
  rcases List.mem_append.mp hMem with hFirst | hAlgo
  · rcases List.mem_append.mp hFirst with hFarm | hUsdc
    · apply read_creditJobs ?_ job hFarm
      intro p hIn
      exact ⟨hPending p (List.mem_filter.mp hIn).1, fun _ => rfl⟩
    · exact hRateJobs .usdc job hUsdc
  · exact hRateJobs .algo job hAlgo

theorem sound_step (h : Sound start s) (hRead : call.Read start)
    (hStep : step o s call = some (s', call')) : Sound start s' ∧ call'.Read start := by
  cases call with
  | creditPending =>
    simp only [step, Option.ite_none_left_eq_some, Option.some.injEq, Prod.mk.injEq] at hStep
    obtain ⟨-, rfl, rfl⟩ := hStep
    refine ⟨h, ?_⟩
    apply read_jobsOf
    intro p hMem
    obtain ⟨id, -, hFound⟩ := List.mem_filterMap.mp hMem
    obtain ⟨d, hRow, rfl⟩ := Option.map_eq_some_iff.mp hFound
    rw [← h.rowAt, Store.rowAt, hRow, Option.map_some]
  | work jobs counts =>
    cases jobs with
    | nil =>
      cases hStep
      exact ⟨h, trivial⟩
    | cons job jobs =>
      have hJob : job.Read start := hRead job List.mem_cons_self
      have hJobs : ∀ later ∈ jobs, later.Read start := fun later hMem =>
        hRead later (List.mem_cons_of_mem _ hMem)
      cases job with
      | credit id d rate =>
        simp only [step] at hStep
        split at hStep
        · rename_i s₁ credited hCredit
          cases hStep
          refine ⟨?_, hJobs⟩
          rw [Option.ite_none_left_eq_some] at hCredit
          exact sound_credit h hJob.1 hJob.2 hCredit.2
        · cases hStep
          exact ⟨h, hJobs⟩
      | rate asset group =>
        simp only [step] at hStep
        split at hStep
        · rename_i rate hRate
          cases hStep
          refine ⟨h, ?_⟩
          intro job hMem
          rcases List.mem_append.mp hMem with hNew | hOld
          · apply read_creditJobs ?_ job hNew
            intro p hIn
            obtain ⟨hRow, hAsset⟩ := hJob p hIn
            refine ⟨hRow, ?_⟩
            intro hFarm
            rw [← hAsset, hFarm] at hRate
            exact (Option.some.inj hRate).symm
          · exact hJobs job hOld
        · cases hStep
          refine ⟨h, ?_⟩
          intro job hMem
          rcases List.mem_cons.mp hMem with rfl | hOld
          · trivial
          · exact hJobs job hOld
      | hold group =>
        simp only [step, Option.ite_none_left_eq_some, Option.some.injEq, Prod.mk.injEq] at hStep
        obtain ⟨-, rfl, rfl⟩ := hStep
        exact ⟨sound_hold h _, hJobs⟩
  | done => cases hStep

theorem sound_of_reaches {c : Config Store Call} (hStart : start.Recorded)
    (h : program.Reaches anyStep (Program.idle start) c) : Sound start c.store := by
  refine (h.assertions (Sound start) (fun _ call => call.Read start) ?_ ?_ ?_ ?_).1
  · refine ⟨sound_of_recorded hStart, ?_⟩
    intro call hMem
    cases hMem
  · intro _ _ _
    trivial
  · intro o s s' call call' hSound hRead _ hStep
    exact sound_step hSound hRead hStep
  · intro _ _ _ _ _ other _ _ hOther _ _
    exact hOther

end Interleaved

/-- A detected deposit of so many millionths of a USDC. -/
def usdc (txId amountUnits : ℕ) : Deposit :=
  ⟨⟨txId, .usdc, 0, 1, 2, amountUnits, 6, 40⟩, .detected, none, none, none⟩

/-- User 0 has the active wallet 7. -/
def received (deposits : List Deposit) : Store where
  deposits := deposits
  activeWallet := fun userId => if userId = 0 then some 7 else none
  wallets := fun walletId => if walletId = 7 then some ⟨0, 0, false⟩ else none
  transactions := []
  ledger := []

/-- One USDC is 129.37 KSh. -/
def converting : Outcome := ⟨false, some (12937 / 100), none⟩

/-- Five USDC after a hundred deposits of a millionth. -/
def dusty : Store := received ((List.range 100).map (fun txId => usdc txId 1) ++ [usdc 100 5000000])

theorem recorded_received {deposits : List Deposit} (h : ∀ d ∈ deposits, d.status = .detected) :
    (received deposits).Recorded := by
  refine ⟨?_, rfl⟩
  intro d hMem
  rw [h d hMem]
  rfl

/-- Two calls read the deposit before either of them credits it. -/
def readTwice : List (Move Unit Outcome) :=
  [.enter (), .enter (), .run 0 converting, .run 1 converting, .run 0 converting, .run 1 converting,
    .run 0 converting, .run 1 converting]

end FarmBackend.CreditPending
