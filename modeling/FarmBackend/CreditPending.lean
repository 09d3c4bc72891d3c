import FarmBackend.ChainDeposits
import FarmBackend.Rows
import FarmBackend.Serial
import FarmBackend.Wallets
import FarmBackend.Windows

/-!
# Crediting deposits from the chain (`chain-wallet/chain-wallet.service.ts`)

`creditPending` and `credit`. A call stops at every statement, at every transaction and at every
answer of the rate service. The deposits are kept in the order of `created_at`; the id of a deposit
is its place in it.
-/

namespace FarmBackend.CreditPending
open Interleaving Decimal Wallets
open ChainDeposits (Asset ChainDeposit)

set_option autoImplicit false

def FARM_DECIMALS : ℕ := 2

/-- How many deposits a call looks at. -/
def TAKE : ℕ := 100

inductive DepositStatus where
  | detected
  | pendingRate
  | credited
  deriving DecidableEq

def DepositStatus.isOpen : DepositStatus → Bool
  | .detected | .pendingRate => true
  | .credited => false

/-- A row of `chain_deposits`: what was recorded, and what `credit` writes. -/
structure Deposit where
  row : ChainDeposit
  status : DepositStatus
  rateKes : Option ℤ
  farmAmount : Option ℤ
  transactionId : Option ℕ

/-- The `transactions` row of a credit; the last three are of its metadata. -/
structure Credit where
  receiverWalletId : WalletId
  amount : ℤ
  netAmount : ℤ
  chainDepositId : ℕ
  chainSettled : Bool
  rate : ℚ

/-- Ledger entries name the row of `transactions` by its place. -/
structure Store where
  deposits : List Deposit
  activeWallet : UserId → Option WalletId
  wallets : WalletId → Option Wallet
  transactions : List Credit
  ledger : List LedgerEntry

/-- FARM for a deposit, floored. -/
def farm (rate : ℚ) (d : ChainDeposit) : ℚ :=
  value FARM_DECIMALS ⌊(d.amountUnits : ℚ) / 10 ^ d.decimals * rate * 10 ^ FARM_DECIMALS⌋

def Deposit.credit (rate : ℚ) (transactionId : ℕ) (d : Deposit) : Deposit :=
  { d with
    status := .credited
    rateKes := some (column 8 rate)
    farmAmount := some (toUnits (farm rate d.row))
    transactionId := some transactionId }

namespace Store

def isOpenAt (s : Store) (id : ℕ) : Bool := s.deposits[id]?.any fun d => d.status.isOpen

def openIds (s : Store) : List ℕ := (List.range s.deposits.length).filter s.isOpenAt

/-- `findMany` of `creditPending`. -/
def pending (s : Store) : List (ℕ × Deposit) :=
  (s.openIds.take TAKE).filterMap fun id => s.deposits[id]?.map fun d => (id, d)

/-- The writes of `credit`. -/
def creditWrites (id : ℕ) (d : Deposit) (rate : ℚ) (walletId : WalletId) (wallet : Wallet)
    (s : Store) : Store :=
  let amount := toUnits (farm rate d.row)
  { s with
    deposits := s.deposits.modify id (Deposit.credit rate s.transactions.length)
    wallets := Function.update s.wallets walletId
      (some (wallet.incrementBalance (farm rate d.row)))
    transactions := s.transactions ++
      [⟨walletId, amount, amount, id, d.row.asset == .farm, rate⟩]
    ledger := s.ledger ++ [⟨some s.transactions.length, walletId, .credit, amount⟩] }

/-- The transaction of `credit`, with the deposit as it was read; the answer is whether it has
credited. -/
def creditTx (id : ℕ) (d : Deposit) (rate : ℚ) (s : Store) : Option (Store × Bool) :=
  if s.isOpenAt id then do
    let walletId ← s.activeWallet d.row.userId
    let wallet ← s.wallets walletId
    return (s.creditWrites id d rate walletId wallet, true)
  else some (s, false)

def credit (id : ℕ) (d : Deposit) (rate : ℚ) (s : Store) : Option (Store × Bool) :=
  if 0 < farm rate d.row then s.creditTx id d rate else some (s, false)

/-- No live rate: hold, never guess. -/
def hold (ids : List ℕ) (s : Store) : Store :=
  { s with
    deposits := s.deposits.mapIdx fun id d =>
      if id ∈ ids ∧ d.status = .detected then { d with status := .pendingRate } else d }

end Store

structure Counts where
  credited : ℕ
  waiting : ℕ

/-- A deposit of FARM that was not credited is not counted. -/
def Counts.add (d : Deposit) (credited : Bool) (counts : Counts) : Counts :=
  if credited then { counts with credited := counts.credited + 1 }
  else if d.row.asset = .farm then counts
  else { counts with waiting := counts.waiting + 1 }

inductive Job where
  | credit (id : ℕ) (d : Deposit) (rate : ℚ)
  | rate (asset : Asset) (group : List (ℕ × Deposit))
  | hold (group : List (ℕ × Deposit))

inductive Call where
  | creditPending
  | work (jobs : List Job) (counts : Counts)
  | done (counts : Counts)

/-- `fails` fails the statement or the transaction. A rate is there when conversion is enabled and the
rate service has one. -/
structure Outcome where
  fails : Bool
  usdcKes : Option ℚ
  algoKes : Option ℚ

/-- FARM is pegged. -/
def Outcome.rateOf (o : Outcome) : Asset → Option ℚ
  | .farm => some 1
  | .usdc => o.usdcKes
  | .algo => o.algoKes

def groupOf (asset : Asset) (pending : List (ℕ × Deposit)) : List (ℕ × Deposit) :=
  pending.filter fun p => p.2.row.asset == asset

def creditJobs (rate : ℚ) (group : List (ℕ × Deposit)) : List Job :=
  group.map fun p => .credit p.1 p.2 rate

def rateJobs (asset : Asset) (pending : List (ℕ × Deposit)) : List Job :=
  let group := groupOf asset pending
  if group.isEmpty then [] else [.rate asset group]

def jobsOf (pending : List (ℕ × Deposit)) : List Job :=
  creditJobs 1 (groupOf .farm pending) ++ rateJobs .usdc pending ++ rateJobs .algo pending

def step (o : Outcome) (s : Store) : Call → Option (Store × Call)
  | .creditPending => if o.fails then none else some (s, .work (jobsOf s.pending) ⟨0, 0⟩)
  | .work [] counts => some (s, .done counts)
  | .work (.credit id d rate :: jobs) counts =>
    -- What the transaction throws is caught.
    match if o.fails then none else s.credit id d rate with
    | some (s', credited) => some (s', .work jobs (counts.add d credited))
    | none => some (s, .work jobs (counts.add d false))
  | .work (.rate asset group :: jobs) counts =>
    match o.rateOf asset with
    | some rate => some (s, .work (creditJobs rate group ++ jobs) counts)
    | none => some (s, .work (.hold group :: jobs) counts)
  | .work (.hold group :: jobs) counts =>
    if o.fails then none
    else some (s.hold (group.map Prod.fst),
      .work jobs { counts with waiting := counts.waiting + group.length })
  | .done _ => none

def program : Program Store Call Unit Outcome := ⟨fun _ => .creditPending, step⟩

/-! ### One call alone -/

def tryCredit (rate : ℚ) (s : Store) (p : ℕ × Deposit) : Store :=
  match s.credit p.1 p.2 rate with
  | some (s', _) => s'
  | none => s

def creditEach (rate : ℚ) (group : List (ℕ × Deposit)) (s : Store) : Store :=
  group.foldl (tryCredit rate) s

def creditGroup (o : Outcome) (asset : Asset) (pending : List (ℕ × Deposit)) (s : Store) : Store :=
  let group := groupOf asset pending
  if group.isEmpty then s
  else
    match o.rateOf asset with
    | some rate => creditEach rate group s
    | none => s.hold (group.map Prod.fst)

/-- What a call leaves that runs alone and whose database calls all succeed. -/
def creditPending (o : Outcome) (s : Store) : Store :=
  creditGroup o .algo s.pending (creditGroup o .usdc s.pending (creditGroup o .farm s.pending s))

/-- The store before call number `k`. -/
def calls (os : ℕ → Outcome) (start : Store) : ℕ → Store
  | 0 => start
  | k + 1 => creditPending (os k) (calls os start k)

/-- Every step is answered by `o`, and no database call fails. -/
def Answered (o : Outcome) : Guard Store Call Outcome := fun o' _ _ => o' = o ∧ o.fails = false

/-- Calls one after the other, each alone and with no database call that fails; `stores k` is what
call number `k` finds. -/
structure Calls (os : ℕ → Outcome) (start : Store) (stores : ℕ → Store) : Prop where
  first : stores 0 = start
  next : ∀ k, program.Alone (Answered (os k)) (stores k) (program.enter ()) (stores (k + 1))

section Alone
variable {o : Outcome} {s s' : Store} {jobs : List Job} {counts : Counts} {rate : ℚ}
  {asset : Asset} {pending group : List (ℕ × Deposit)}

theorem alone_creditJobs (hFails : o.fails = false)
    (h : ∀ counts, program.Alone (Answered o) (creditEach rate group s) (.work jobs counts) s') :
    program.Alone (Answered o) s (.work (creditJobs rate group ++ jobs) counts) s' := by
  induction group generalizing s counts with
  | nil => exact h counts
  | cons p group ih =>
    have hStep : ∃ counts', step o s (.work (creditJobs rate (p :: group) ++ jobs) counts) =
        some (tryCredit rate s p, .work (creditJobs rate group ++ jobs) counts') := by
      simp only [creditJobs, List.map_cons, List.cons_append, step, hFails, tryCredit,
        Bool.false_eq_true, if_false]
      cases s.credit p.1 p.2 rate with
      | none => exact ⟨_, rfl⟩
      | some r => exact ⟨_, rfl⟩
    obtain ⟨counts', hStep⟩ := hStep
    exact .next ⟨rfl, hFails⟩ hStep (ih h)

theorem alone_rateJobs (hFails : o.fails = false)
    (h : ∀ counts,
      program.Alone (Answered o) (creditGroup o asset pending s) (.work jobs counts) s') :
    program.Alone (Answered o) s (.work (rateJobs asset pending ++ jobs) counts) s' := by
  simp only [creditGroup] at h
  simp only [rateJobs]
  split
  · rename_i hEmpty
    rw [if_pos hEmpty] at h
    exact h counts
  · rename_i hSome
    rw [if_neg hSome] at h
    cases hRate : o.rateOf asset with
    | some rate =>
      simp only [hRate] at h
      have hStep : step o s (.work ([.rate asset (groupOf asset pending)] ++ jobs) counts) =
          some (s, .work (creditJobs rate (groupOf asset pending) ++ jobs) counts) := by
        simp only [List.singleton_append, step, hRate]
      exact .next ⟨rfl, hFails⟩ hStep (alone_creditJobs hFails h)
    | none =>
      simp only [hRate] at h
      have hAsk : step o s (.work ([.rate asset (groupOf asset pending)] ++ jobs) counts) =
          some (s, .work (.hold (groupOf asset pending) :: jobs) counts) := by
        simp only [List.singleton_append, step, hRate]
      have hHold : step o s (.work (.hold (groupOf asset pending) :: jobs) counts) =
          some (s.hold ((groupOf asset pending).map Prod.fst), .work jobs
            { counts with waiting := counts.waiting + (groupOf asset pending).length }) := by
        simp only [step, hFails, Bool.false_eq_true, if_false]
      exact .next ⟨rfl, hFails⟩ hAsk (.next ⟨rfl, hFails⟩ hHold (h _))

theorem creditGroup_farm (o : Outcome) (pending : List (ℕ × Deposit)) (s : Store) :
    creditGroup o .farm pending s = creditEach 1 (groupOf .farm pending) s := by
  simp only [creditGroup, Outcome.rateOf]
  split
  · rename_i hEmpty
    rw [List.isEmpty_iff.mp hEmpty]
    rfl
  · rfl

/-- The steps of a call that runs alone. -/
theorem alone_creditPending (hFails : o.fails = false) (s : Store) :
    program.Alone (Answered o) s (program.enter ()) (creditPending o s) := by
  have hStart : step o s .creditPending = some (s, .work (jobsOf s.pending) ⟨0, 0⟩) := by
    simp only [step, hFails, Bool.false_eq_true, if_false]
  refine .next ⟨rfl, hFails⟩ hStart ?_
  rw [jobsOf, List.append_assoc]
  apply alone_creditJobs hFails
  intro _
  rw [← creditGroup_farm o]
  apply alone_rateJobs hFails
  intro _
  rw [← List.append_nil (rateJobs .algo s.pending)]
  apply alone_rateJobs hFails
  intro counts
  exact .next ⟨rfl, hFails⟩ rfl (.ends ⟨rfl, hFails⟩ rfl)

/-- A call that has been answered was answered without a failure. -/
theorem fails_of_alone {call : Call} (h : program.Alone (Answered o) s call s') :
    o.fails = false := by
  cases h with
  | ends hOk _ => exact hOk.2
  | next hOk _ _ => exact hOk.2

theorem eq_creditPending (h : program.Alone (Answered o) s (program.enter ()) s') :
    s' = creditPending o s := by
  apply (alone_creditPending (fails_of_alone h) s).unique ?_ h
  intro o₁ o₂ _ _ hOk hOk'
  exact hOk.1.trans hOk'.1.symm

theorem stores_eq_calls {os : ℕ → Outcome} {start : Store} {stores : ℕ → Store}
    (h : Calls os start stores) (k : ℕ) : stores k = calls os start k := by
  induction k with
  | zero => exact h.first
  | succ k ih => rw [eq_creditPending (h.next k), ih, calls]

theorem calls_of_not_fails {os : ℕ → Outcome} (hFails : ∀ k, (os k).fails = false)
    (start : Store) : Calls os start (calls os start) := by
  refine ⟨rfl, ?_⟩
  intro k
  exact alone_creditPending (hFails k) _

end Alone

/-! ### What a call closes -/

namespace Store

def rowAt (s : Store) (id : ℕ) : Option ChainDeposit := s.deposits[id]?.map Deposit.row

/-- `findFirst` finds an active wallet of the user. -/
def hasWallet (s : Store) (userId : UserId) : Bool :=
  (s.activeWallet userId).any fun walletId => (s.wallets walletId).isSome

end Store

/-- There is a rate for the deposit, and it comes to some FARM. -/
def Outcome.pays (o : Outcome) (row : ChainDeposit) : Bool :=
  (o.rateOf row.asset).any fun rate => decide (0 < farm rate row)

/-- `credit` goes through for the deposit. -/
def ready (o : Outcome) (s : Store) (id : ℕ) : Bool :=
  (s.rowAt id).any fun row => o.pays row && s.hasWallet row.userId

/-- The open deposits of which `P` holds are credited, and no others. -/
structure Closes (P : ℕ → Prop) (s s' : Store) : Prop where
  rows : s'.deposits.map Deposit.row = s.deposits.map Deposit.row
  hasWallet : ∀ userId, s'.hasWallet userId = s.hasWallet userId
  isOpenAt : ∀ id, s'.isOpenAt id = true ↔ s.isOpenAt id = true ∧ ¬P id

/-- A deposit of the group is credited with the rate of its asset. -/
def Paid (o : Outcome) (s : Store) (group : List (ℕ × Deposit)) (id : ℕ) : Prop :=
  ∃ p ∈ group, p.1 = id ∧ o.pays p.2.row = true ∧ s.hasWallet p.2.row.userId = true

section Closing
variable {o : Outcome} {s s' s'' : Store} {P Q : ℕ → Prop} {id : ℕ} {d : Deposit} {rate : ℚ}
  {asset : Asset} {pending group : List (ℕ × Deposit)}

theorem Closes.refl (hNone : ∀ id, s.isOpenAt id = true → ¬P id) : Closes P s s := by
  refine ⟨rfl, fun _ => rfl, ?_⟩
  intro id
  exact ⟨fun hOpen => ⟨hOpen, hNone id hOpen⟩, And.left⟩

theorem Closes.trans (h : Closes P s s') (h' : Closes Q s' s'') :
    Closes (fun id => P id ∨ Q id) s s'' := by
  refine ⟨h'.rows.trans h.rows, fun userId => (h'.hasWallet userId).trans (h.hasWallet userId), ?_⟩
  intro id
  rw [h'.isOpenAt, h.isOpenAt, not_or, and_assoc]

theorem Closes.congr (h : Closes P s s') (hSame : ∀ id, P id ↔ Q id) : Closes Q s s' := by
  refine ⟨h.rows, h.hasWallet, ?_⟩
  intro id
  rw [h.isOpenAt, hSame]

theorem Closes.rowAt (h : Closes P s s') (id : ℕ) : s'.rowAt id = s.rowAt id := by
  rw [Store.rowAt, ← List.getElem?_map, h.rows, List.getElem?_map, Store.rowAt]

theorem Closes.ready (h : Closes P s s') (o : Outcome) (id : ℕ) : ready o s' id = ready o s id := by
  simp only [CreditPending.ready, h.rowAt, h.hasWallet]

theorem Closes.paid (h : Closes P s s') (o : Outcome) (group : List (ℕ × Deposit)) (id : ℕ) :
    Paid o s' group id ↔ Paid o s group id := by
  simp only [Paid, h.hasWallet]

/-- A credit writes the columns of one deposit that are not those of its row. -/
theorem map_row_credit (rate : ℚ) (transactionId id : ℕ) (deposits : List Deposit) :
    (deposits.modify id (Deposit.credit rate transactionId)).map Deposit.row =
      deposits.map Deposit.row := by
  apply List.ext_getElem?
  intro other
  rw [List.getElem?_map, List.getElem?_map]
  by_cases hId : id = other
  · subst hId
    rw [List.getElem?_modify_eq]
    cases deposits[id]? <;> rfl
  · rw [Rows.getElem?_modify_ne _ hId]

theorem isOpenAt_credit (rate : ℚ) (transactionId id other : ℕ) (deposits : List Deposit) :
    ((deposits.modify id (Deposit.credit rate transactionId))[other]?.any
        fun d => d.status.isOpen) = true ↔
      (deposits[other]?.any fun d => d.status.isOpen) = true ∧ ¬other = id := by
  by_cases hId : id = other
  · subst hId
    rw [List.getElem?_modify_eq]
    cases deposits[id]? <;> simp [Deposit.credit, DepositStatus.isOpen]
  · rw [Rows.getElem?_modify_ne _ hId]
    exact ⟨fun hOpen => ⟨hOpen, Ne.symm hId⟩, And.left⟩

theorem closes_creditWrites {walletId : WalletId} {wallet : Wallet}
    (hWallet : s.wallets walletId = some wallet) :
    Closes (fun i => i = id) s (s.creditWrites id d rate walletId wallet) := by
  refine ⟨map_row_credit _ _ _ _, ?_, ?_⟩
  · intro userId
    simp only [Store.hasWallet, Store.creditWrites]
    congr 1
    funext other
    by_cases hOther : other = walletId
    · subst hOther
      simp [hWallet]
    · rw [Function.update_of_ne hOther]
  · intro i
    exact isOpenAt_credit _ _ _ _ _

/-- The three ways that `credit` goes. -/
theorem credit_cases (s : Store) (id : ℕ) (d : Deposit) (rate : ℚ) :
    (s.credit id d rate = some (s, false) ∧ ¬(s.isOpenAt id = true ∧ 0 < farm rate d.row)) ∨
    (s.credit id d rate = none ∧ s.hasWallet d.row.userId = false) ∨
    (s.isOpenAt id = true ∧ 0 < farm rate d.row ∧ s.hasWallet d.row.userId = true ∧
      ∃ walletId wallet, s.activeWallet d.row.userId = some walletId ∧
        s.wallets walletId = some wallet ∧
        s.credit id d rate = some (s.creditWrites id d rate walletId wallet, true)) := by
  by_cases hFarm : 0 < farm rate d.row
  · by_cases hOpen : s.isOpenAt id = true
    · rw [Store.credit, if_pos hFarm, Store.creditTx, if_pos hOpen, Store.hasWallet]
      cases hActive : s.activeWallet d.row.userId with
      | none => exact .inr (.inl ⟨rfl, rfl⟩)
      | some walletId =>
        cases hWallet : s.wallets walletId with
        | none => exact .inr (.inl ⟨by simp [hWallet], by simp [hWallet]⟩)
        | some wallet =>
          exact .inr (.inr ⟨hOpen, hFarm, by simp [hWallet], walletId, wallet, rfl, hWallet,
            by simp [hWallet]⟩)
    · rw [Store.credit, if_pos hFarm, Store.creditTx, if_neg hOpen]
      exact .inl ⟨rfl, fun hBoth => hOpen hBoth.1⟩
  · rw [Store.credit, if_neg hFarm]
    exact .inl ⟨rfl, fun hBoth => hFarm hBoth.2⟩

theorem closes_tryCredit (rate : ℚ) (s : Store) (id : ℕ) (d : Deposit) :
    Closes (fun i => id = i ∧ 0 < farm rate d.row ∧ s.hasWallet d.row.userId = true) s
      (tryCredit rate s (id, d)) := by
  simp only [tryCredit]
  rcases credit_cases s id d rate with ⟨hCredit, hNot⟩ | ⟨hCredit, hNoWallet⟩ |
    ⟨-, hFarm, hHas, walletId, wallet, -, hWallet, hCredit⟩
  · rw [hCredit]
    apply Closes.refl
    rintro i hOpen ⟨rfl, hFarm, -⟩
    exact hNot ⟨hOpen, hFarm⟩
  · rw [hCredit]
    apply Closes.refl
    rintro i - ⟨-, -, hHas⟩
    exact Bool.false_ne_true (hNoWallet.symm.trans hHas)
  · rw [hCredit]
    apply (closes_creditWrites hWallet).congr
    intro i
    exact ⟨fun hId => ⟨hId.symm, hFarm, hHas⟩, fun hAll => hAll.1.symm⟩

theorem closes_creditEach (hRate : o.rateOf asset = some rate)
    (hAsset : ∀ p ∈ group, p.2.row.asset = asset) :
    Closes (Paid o s group) s (creditEach rate group s) := by
  induction group generalizing s with
  | nil =>
    apply Closes.refl
    rintro id - ⟨p, hMem, -⟩
    cases hMem
  | cons p group ih =>
    obtain ⟨id, d⟩ := p
    have hFirst := closes_tryCredit rate s id d
    have hRest := ih (s := tryCredit rate s (id, d))
      fun p hMem => hAsset p (List.mem_cons_of_mem _ hMem)
    have hPays : o.pays d.row = true ↔ 0 < farm rate d.row := by
      rw [Outcome.pays, hAsset (id, d) List.mem_cons_self, hRate, Option.any_some, decide_eq_true_eq]
    apply (hFirst.trans hRest).congr
    intro i
    rw [hFirst.paid, ← hPays]
    simp only [Paid, List.mem_cons, exists_eq_or_imp]

theorem closes_hold (ids : List ℕ) (s : Store) : Closes (fun _ => False) s (s.hold ids) := by
  have hRow : ∀ (id : ℕ) (d : Deposit), (if id ∈ ids ∧ d.status = .detected then
      { d with status := .pendingRate } else d).row = d.row ∧
      (if id ∈ ids ∧ d.status = .detected then
        { d with status := .pendingRate } else d).status.isOpen = d.status.isOpen := by
    intro id d
    split
    · rename_i hBoth
      rw [hBoth.2]
      exact ⟨rfl, rfl⟩
    · exact ⟨rfl, rfl⟩
  refine ⟨?_, fun _ => rfl, ?_⟩
  · apply List.ext_getElem?
    intro id
    rw [Store.hold, List.getElem?_map, List.getElem?_mapIdx, List.getElem?_map]
    cases s.deposits[id]? with
    | none => rfl
    | some d => exact congrArg some (hRow id d).1
  · intro id
    rw [Store.isOpenAt, Store.hold, List.getElem?_mapIdx, Store.isOpenAt, not_false_eq_true, and_true]
    cases s.deposits[id]? with
    | none => rfl
    | some d =>
      rw [Option.map_some, Option.any_some, (hRow id d).2, Option.any_some]

theorem closes_creditGroup (o : Outcome) (asset : Asset) (pending : List (ℕ × Deposit)) (s : Store) :
    Closes (Paid o s (groupOf asset pending)) s (creditGroup o asset pending s) := by
  have hAsset : ∀ p ∈ groupOf asset pending, p.2.row.asset = asset := by
    intro p hMem
    exact beq_iff_eq.mp (List.mem_filter.mp hMem).2
  simp only [creditGroup]
  split
  · rename_i hEmpty
    apply Closes.refl
    rintro id - ⟨p, hMem, -⟩
    rw [List.isEmpty_iff.mp hEmpty] at hMem
    cases hMem
  · cases hRate : o.rateOf asset with
    | some rate => exact closes_creditEach hRate hAsset
    | none =>
      apply (closes_hold _ s).congr
      intro id
      refine ⟨False.elim, ?_⟩
      rintro ⟨p, hMem, -, hPays, -⟩
      rw [Outcome.pays, hAsset p hMem, hRate] at hPays
      cases hPays

theorem paid_groups (o : Outcome) (s : Store) (pending : List (ℕ × Deposit)) (id : ℕ) :
    (Paid o s (groupOf .farm pending) id ∨ Paid o s (groupOf .usdc pending) id) ∨
      Paid o s (groupOf .algo pending) id ↔ Paid o s pending id := by
  simp only [Paid, groupOf, List.mem_filter, beq_iff_eq]
  constructor
  · rintro ((⟨p, ⟨hMem, -⟩, hPaid⟩ | ⟨p, ⟨hMem, -⟩, hPaid⟩) | ⟨p, ⟨hMem, -⟩, hPaid⟩) <;>
      exact ⟨p, hMem, hPaid⟩
  · rintro ⟨p, hMem, hPaid⟩
    cases hAsset : p.2.row.asset with
    | farm => exact .inl (.inl ⟨p, ⟨hMem, hAsset⟩, hPaid⟩)
    | usdc => exact .inl (.inr ⟨p, ⟨hMem, hAsset⟩, hPaid⟩)
    | algo => exact .inr ⟨p, ⟨hMem, hAsset⟩, hPaid⟩

theorem paid_pending (o : Outcome) (s : Store) (id : ℕ) :
    Paid o s s.pending id ↔ id ∈ s.openIds.take TAKE ∧ ready o s id = true := by
  constructor
  · rintro ⟨p, hMem, rfl, hPays, hHas⟩
    obtain ⟨id, hIn, hFound⟩ := List.mem_filterMap.mp hMem
    obtain ⟨d, hRow, rfl⟩ := Option.map_eq_some_iff.mp hFound
    exact ⟨hIn, by simp [ready, Store.rowAt, hRow, hPays, hHas]⟩
  · rintro ⟨hIn, hReady⟩
    obtain ⟨row, hRow, hBoth⟩ := (Option.any_eq_true _ _).mp hReady
    obtain ⟨d, hDeposit, rfl⟩ := Option.map_eq_some_iff.mp hRow
    obtain ⟨hPays, hHas⟩ := (Bool.and_eq_true _ _).mp hBoth
    refine ⟨(id, d), ?_, rfl, hPays, hHas⟩
    exact List.mem_filterMap.mpr ⟨id, hIn, by rw [hDeposit, Option.map_some]⟩

/-- A call credits those of the first `TAKE` open deposits for which `credit` goes through. -/
theorem closes_creditPending (o : Outcome) (s : Store) :
    Closes (fun id => id ∈ s.openIds.take TAKE ∧ ready o s id = true) s (creditPending o s) := by
  have hFarm := closes_creditGroup o .farm s.pending s
  have hUsdc := hFarm.trans (closes_creditGroup o .usdc s.pending _)
  have hAlgo := hUsdc.trans (closes_creditGroup o .algo s.pending _)
  apply hAlgo.congr
  intro id
  rw [hUsdc.paid, hFarm.paid, paid_groups, paid_pending]

theorem openIds_creditPending (o : Outcome) (s : Store) :
    (creditPending o s).openIds = Windows.pass TAKE (ready o s) s.openIds := by
  have hCloses := closes_creditPending o s
  have hLength : (creditPending o s).deposits.length = s.deposits.length := by
    have hRows := congrArg List.length hCloses.rows
    rwa [List.length_map, List.length_map] at hRows
  have hNodup : s.openIds.Nodup := List.nodup_range.filter _
  rw [Windows.pass_eq_filter hNodup, Store.openIds, hLength]
  generalize s.openIds.take TAKE = head at hCloses ⊢
  rw [Store.openIds, List.filter_filter]
  apply List.filter_congr
  intro id _
  rw [Bool.eq_iff_iff, hCloses.isOpenAt]
  by_cases hIn : id ∈ head
  · simp [hIn, and_comm]
  · simp [hIn]

end Closing

/-! ### Calls one after the other -/

section Calls
variable {os : ℕ → Outcome} {start : Store} {id : ℕ}

theorem ready_calls (os : ℕ → Outcome) (start : Store) (k : ℕ) (o : Outcome) (id : ℕ) :
    ready o (calls os start k) id = ready o start id := by
  induction k with
  | zero => rfl
  | succ k ih => rw [calls, (closes_creditPending _ _).ready, ih]

theorem rowAt_calls (os : ℕ → Outcome) (start : Store) (k id : ℕ) :
    (calls os start k).rowAt id = start.rowAt id := by
  induction k with
  | zero => rfl
  | succ k ih => rw [calls, (closes_creditPending _ _).rowAt, ih]

/-- The open deposits are a queue of which every call looks at the head. -/
theorem openIds_calls (os : ℕ → Outcome) (start : Store) (k : ℕ) :
    (calls os start k).openIds =
      Windows.passes TAKE (fun j => ready (os j) start) start.openIds k := by
  induction k with
  | zero => rfl
  | succ k ih =>
    have hReady : ready (os k) (calls os start k) = ready (os k) start := by
      funext id
      exact ready_calls os start k (os k) id
    rw [calls, openIds_creditPending, hReady, ih, Windows.passes]

end Calls

end FarmBackend.CreditPending
