import FarmBackend.Interleaving
import FarmBackend.Wallets

/-!
# `WalletsService.sendFunds`

Any number of sends at once at READ COMMITTED. The sender's wallet is read without a lock, so
every read is a step of its own and sees the last committed rows; the writes lock the rows they
change until the transaction commits, and are one step.
-/

namespace FarmBackend.SendFunds
open Decimal Fees Wallets Interleaving

set_option autoImplicit false

/-- `findUser` looks an active user up by username or phone, `activeWallet` is a user's first
active wallet, `walletByAddress` finds a wallet by its address. -/
structure SendDb where
  bank : Bank
  findUser : String → Option UserId
  activeWallet : UserId → Option WalletId
  walletByAddress : String → Option WalletId

/-- The request; `merchantFee` is the option of the merchant flows. -/
structure SendDto where
  recipientIdentifier : String
  amount : ℚ
  merchantFee : Bool

structure Outcome where
  now : Time
  todayStart : Time
  rules : FeeRules
  verified : Bool

def MAX_SINGLE_TX : ℚ := 100000

def MAX_DAILY : ℚ := 500000

namespace SendDb

def recipient (identifier : String) (db : SendDb) : Option WalletId :=
  match db.findUser identifier >>= db.activeWallet with
  | some walletId => some walletId
  | none => db.walletByAddress identifier

def sentSince (walletId : WalletId) (since : Time) (db : SendDb) : List Transaction :=
  db.bank.transactions.filter fun t => t.senderWalletId == some walletId &&
    t.transactionType == .transfer && t.status == .completed && decide (since ≤ t.createdAt)

def sentToday (walletId : WalletId) (todayStart : Time) (db : SendDb) : ℚ :=
  toNumber ((db.sentSince walletId todayStart).map Transaction.amount).sum

def recentDuplicate (walletId : WalletId) (amount : ℚ) (now : Time) (db : SendDb) : Bool :=
  (db.sentSince walletId (now - 60000)).any fun t => decide (toNumber t.amount = amount)

end SendDb

/-- What the recipient gets: a merchant pays its fee out of the amount. -/
def receiverCredit (amount merchantFee : ℚ) : ℚ := toFixed 8 (amount - merchantFee)

def totalOut (amount fee : ℚ) : ℚ := amount + fee

def transferFee (rules : FeeRules) (amount : ℚ) : ℚ := computeFee (rules .transfer) amount 8

/-- The fee of a merchant payment; other sends have none. -/
def merchantFeeOf (rules : FeeRules) (isMerchant : Bool) (amount : ℚ) : ℚ :=
  if isMerchant then computeFee (rules .merchant) amount 8 else 0

/-- The writes of the transaction. The row is created as processing and completed in the end. -/
def sendFundsTx (senderWalletId receiverWalletId : WalletId) (amount fee merchantFee : ℚ)
    (now : Time) (bank : Bank) : Option Bank := do
  let txnId := bank.transactions.length
  let bank := bank.transactionsCreate
    { senderWalletId := some senderWalletId
      receiverWalletId := some receiverWalletId
      transactionType := .transfer
      status := .completed
      amount := toUnits amount
      fee := toUnits fee
      netAmount := toUnits (receiverCredit amount merchantFee)
      createdAt := now }
  let bank ← bank.walletsUpdate senderWalletId (Wallet.decrementBalance (totalOut amount fee))
  let bank ← bank.walletsUpdate receiverWalletId
    (Wallet.incrementBalance (receiverCredit amount merchantFee))
  let bank := bank.ledgerCreate
    ⟨some txnId, senderWalletId, .debit, toUnits (totalOut amount fee)⟩
  let bank := bank.ledgerCreate
    ⟨some txnId, receiverWalletId, .credit, toUnits (receiverCredit amount merchantFee)⟩
  let bank ← bank.creditPlatformInTx merchantFee (some txnId)
  bank.creditPlatformInTx fee (some txnId)

structure Request where
  senderId : UserId
  dto : SendDto

/-- A running send, named after its next step. -/
inductive Call where
  | recipient (senderId : UserId) (dto : SendDto)
  | senderWallet (senderId : UserId) (dto : SendDto) (receiverWalletId : WalletId)
  | dailyVolume (senderWalletId : WalletId) (senderWallet : Wallet) (dto : SendDto)
      (receiverWalletId : WalletId)
  | fees (senderWalletId : WalletId) (senderWallet : Wallet) (dto : SendDto)
      (receiverWalletId : WalletId)
  | recentDuplicate (senderWalletId receiverWalletId : WalletId) (amount fee merchantFee : ℚ)
  | commit (senderWalletId receiverWalletId : WalletId) (amount fee merchantFee : ℚ)
  | done

def step (o : Outcome) (db : SendDb) : Call → Option (SendDb × Call)
  | .recipient senderId dto => do
    let receiverWalletId ← db.recipient dto.recipientIdentifier
    if 0 < dto.amount ∧ o.verified then return (db, .senderWallet senderId dto receiverWalletId)
    else none
  | .senderWallet senderId dto receiverWalletId => do
    let senderWalletId ← db.activeWallet senderId
    let senderWallet ← db.bank.wallets senderWalletId
    if senderWallet.isFrozen = false ∧ dto.amount ≤ MAX_SINGLE_TX then
      return (db, .dailyVolume senderWalletId senderWallet dto receiverWalletId)
    else none
  | .dailyVolume senderWalletId senderWallet dto receiverWalletId =>
    if db.sentToday senderWalletId o.todayStart + dto.amount ≤ MAX_DAILY ∧
        senderWalletId ≠ receiverWalletId then
      some (db, .fees senderWalletId senderWallet dto receiverWalletId)
    else none
  | .fees senderWalletId senderWallet dto receiverWalletId =>
    let fee := transferFee o.rules dto.amount
    let merchantFee := merchantFeeOf o.rules dto.merchantFee dto.amount
    if totalOut dto.amount fee ≤ senderWallet.available then
      some (db, .recentDuplicate senderWalletId receiverWalletId dto.amount fee merchantFee)
    else none
  | .recentDuplicate senderWalletId receiverWalletId amount fee merchantFee =>
    if db.recentDuplicate senderWalletId amount o.now = false then
      some (db, .commit senderWalletId receiverWalletId amount fee merchantFee)
    else none
  | .commit senderWalletId receiverWalletId amount fee merchantFee => do
    let bank ← sendFundsTx senderWalletId receiverWalletId amount fee merchantFee o.now db.bank
    return ({ db with bank := bank }, .done)
  | .done => none

def program : Program SendDb Call Request Outcome where
  enter r := .recipient r.senderId r.dto
  step := step

/-! No wallet below what it has locked. -/

/-- Every wallet covers its locked balance. -/
def Solvent (bank : Bank) : Prop :=
  ∀ id w, bank.wallets id = some w → w.lockedBalance ≤ w.balance

section Solvent
variable {bank bank' : Bank}

theorem solvent_walletsUpdate {id : WalletId} {f : Wallet → Wallet} (hSolvent : Solvent bank)
    (hf : ∀ w, bank.wallets id = some w → (f w).lockedBalance ≤ (f w).balance)
    (h : bank.walletsUpdate id f = some bank') : Solvent bank' := by
  obtain ⟨w, hw, hWallets⟩ := Bank.wallets_walletsUpdate h
  intro other w' hw'
  rw [hWallets] at hw'
  by_cases hId : other = id
  · subst hId
    rw [Function.update_self, Option.some.injEq] at hw'
    exact hw' ▸ hf w hw
  · rw [Function.update_of_ne hId] at hw'
    exact hSolvent other w' hw'

theorem solvent_transactionsCreate (row : Transaction) (hSolvent : Solvent bank) :
    Solvent (bank.transactionsCreate row) := hSolvent

theorem solvent_ledgerCreate (entry : LedgerEntry) (hSolvent : Solvent bank) :
    Solvent (bank.ledgerCreate entry) := hSolvent

theorem le_toUnits {n : ℤ} {x : ℚ} (h : toNumber n ≤ x) : n ≤ toUnits x := by
  have hMono : column 8 (toNumber n) ≤ column 8 x := column_mono h
  rwa [column_value] at hMono

theorem covers_decrementBalance {w : Wallet} {x : ℚ} (h : x ≤ w.available) :
    (w.decrementBalance x).lockedBalance ≤ (w.decrementBalance x).balance := by
  unfold Wallet.available at h
  have hLeft : toNumber w.lockedBalance ≤ toNumber w.balance - x := by linarith
  exact le_toUnits hLeft

theorem covers_incrementBalance {w : Wallet} {x : ℚ} (h : -x ≤ w.available) :
    (w.incrementBalance x).lockedBalance ≤ (w.incrementBalance x).balance := by
  unfold Wallet.available at h
  have hLeft : toNumber w.lockedBalance ≤ toNumber w.balance + x := by linarith
  exact le_toUnits hLeft

theorem solvent_creditPlatformInTx {amount : ℚ} {transactionId : Option ℕ}
    (hSolvent : Solvent bank) (h : bank.creditPlatformInTx amount transactionId = some bank') :
    Solvent bank' := by
  unfold Bank.creditPlatformInTx at h
  split at h
  · rename_i hAmount
    split at h
    · cases h
    · simp only [Bank.creditWalletInTx, if_pos hAmount, Option.bind_eq_bind,
        Option.bind_eq_some_iff, Option.pure_def, Option.some.injEq] at h
      obtain ⟨bank₁, hUpdate, rfl⟩ := h
      refine solvent_ledgerCreate _ (solvent_walletsUpdate hSolvent ?_ hUpdate)
      intro w hw
      have hOld : 0 ≤ w.available := sub_nonneg.mpr (value_le_value.mpr (hSolvent _ w hw))
      exact covers_incrementBalance (by linarith)
  · simp only [Option.some.injEq] at h
    exact h ▸ hSolvent

/-- A commit whose debits are covered by the rows it writes keeps every wallet solvent. -/
theorem solvent_sendFundsTx {senderWalletId receiverWalletId : WalletId}
    {amount fee merchantFee : ℚ} {now : Time} (hSolvent : Solvent bank)
    (hOther : senderWalletId ≠ receiverWalletId)
    (hSender : ∀ w, bank.wallets senderWalletId = some w → totalOut amount fee ≤ w.available)
    (hReceiver : ∀ w, bank.wallets receiverWalletId = some w →
      -receiverCredit amount merchantFee ≤ w.available)
    (h : sendFundsTx senderWalletId receiverWalletId amount fee merchantFee now bank = some bank') :
    Solvent bank' := by
  simp only [sendFundsTx, Option.bind_eq_bind, Option.bind_eq_some_iff] at h
  obtain ⟨bank₁, hDebit, bank₂, hCredit, bank₃, hMerchantFee, hFee⟩ := h
  have hDebited : Solvent bank₁ := by
    refine solvent_walletsUpdate (solvent_transactionsCreate _ hSolvent) ?_ hDebit
    exact fun w hw => covers_decrementBalance (hSender w hw)
  have hCredited : Solvent bank₂ := by
    refine solvent_walletsUpdate hDebited ?_ hCredit
    intro w hw
    obtain ⟨_, _, hWallets⟩ := Bank.wallets_walletsUpdate hDebit
    rw [hWallets, Function.update_of_ne hOther.symm] at hw
    exact covers_incrementBalance (hReceiver w hw)
  have hBooked := solvent_ledgerCreate ⟨some bank.transactions.length, receiverWalletId, .credit,
    toUnits (receiverCredit amount merchantFee)⟩ (solvent_ledgerCreate
      ⟨some bank.transactions.length, senderWalletId, .debit, toUnits (totalOut amount fee)⟩
      hCredited)
  have hPaid : Solvent bank₃ := solvent_creditPlatformInTx hBooked hMerchantFee
  exact solvent_creditPlatformInTx hPaid hFee

end Solvent

def affords (x : ℚ) (row : Option Wallet) : Bool :=
  match row with
  | none => true
  | some w => decide (x ≤ w.available)

/-- A commit finds what it takes: the sender's current row passes the check that its earlier
read passed, and a merchant whose fee exceeds the payment can pay the difference. -/
def covered (db : SendDb) : Call → Bool
  | .commit senderWalletId receiverWalletId amount fee merchantFee =>
    affords (totalOut amount fee) (db.bank.wallets senderWalletId) &&
      affords (-receiverCredit amount merchantFee) (db.bank.wallets receiverWalletId)
  | _ => true

abbrev Covered : Guard SendDb Call Outcome := fun _ db call => covered db call = true

/-- Past its own check, no send goes to its own wallet. -/
def Knows : Call → Prop
  | .fees senderWalletId _ _ receiverWalletId => senderWalletId ≠ receiverWalletId
  | .recentDuplicate senderWalletId receiverWalletId _ _ _ => senderWalletId ≠ receiverWalletId
  | .commit senderWalletId receiverWalletId _ _ _ => senderWalletId ≠ receiverWalletId
  | _ => True

theorem le_available_of_affords {x : ℚ} {row : Option Wallet} (h : affords x row = true)
    {w : Wallet} (hw : row = some w) : x ≤ w.available := by
  subst hw
  exact of_decide_eq_true h

section Runs
variable {o : Outcome} {db db' : SendDb} {call call' : Call}

theorem knows_of_step (hKnows : Knows call) (hStep : step o db call = some (db', call')) :
    Knows call' := by
  cases call with
  | recipient senderId dto =>
    simp only [step, Option.bind_eq_bind, Option.bind_eq_some_iff, Option.pure_def,
      Option.ite_none_right_eq_some, Option.some.injEq, Prod.mk.injEq] at hStep
    obtain ⟨receiverWalletId, -, -, -, rfl⟩ := hStep
    exact trivial
  | senderWallet senderId dto receiverWalletId =>
    simp only [step, Option.bind_eq_bind, Option.bind_eq_some_iff, Option.pure_def,
      Option.ite_none_right_eq_some, Option.some.injEq, Prod.mk.injEq] at hStep
    obtain ⟨senderWalletId, -, senderWallet, -, -, -, rfl⟩ := hStep
    exact trivial
  | dailyVolume senderWalletId senderWallet dto receiverWalletId =>
    simp only [step, Option.ite_none_right_eq_some, Option.some.injEq, Prod.mk.injEq] at hStep
    obtain ⟨⟨-, hOther⟩, -, rfl⟩ := hStep
    exact hOther
  | fees senderWalletId senderWallet dto receiverWalletId =>
    simp only [step, Option.ite_none_right_eq_some, Option.some.injEq, Prod.mk.injEq] at hStep
    obtain ⟨-, -, rfl⟩ := hStep
    exact hKnows
  | recentDuplicate senderWalletId receiverWalletId amount fee merchantFee =>
    simp only [step, Option.ite_none_right_eq_some, Option.some.injEq, Prod.mk.injEq] at hStep
    obtain ⟨-, -, rfl⟩ := hStep
    exact hKnows
  | commit senderWalletId receiverWalletId amount fee merchantFee =>
    simp only [step, Option.bind_eq_bind, Option.bind_eq_some_iff, Option.pure_def,
      Option.some.injEq, Prod.mk.injEq] at hStep
    obtain ⟨bank', -, -, rfl⟩ := hStep
    exact trivial
  | done => cases hStep

/-- The transaction of a send, or nothing, is all that a step does to the wallets. -/
theorem bank_of_step (hStep : step o db call = some (db', call')) :
    db'.bank = db.bank ∨ ∃ senderWalletId receiverWalletId amount fee merchantFee,
      call = .commit senderWalletId receiverWalletId amount fee merchantFee ∧
      sendFundsTx senderWalletId receiverWalletId amount fee merchantFee o.now db.bank =
        some db'.bank := by
  cases call with
  | commit senderWalletId receiverWalletId amount fee merchantFee =>
    simp only [step, Option.bind_eq_bind, Option.bind_eq_some_iff, Option.pure_def,
      Option.some.injEq, Prod.mk.injEq] at hStep
    obtain ⟨bank', hTx, rfl, -⟩ := hStep
    exact .inr ⟨_, _, _, _, _, rfl, hTx⟩
  | recipient senderId dto =>
    simp only [step, Option.bind_eq_bind, Option.bind_eq_some_iff, Option.pure_def,
      Option.ite_none_right_eq_some, Option.some.injEq, Prod.mk.injEq] at hStep
    obtain ⟨receiverWalletId, -, -, rfl, -⟩ := hStep
    exact .inl rfl
  | senderWallet senderId dto receiverWalletId =>
    simp only [step, Option.bind_eq_bind, Option.bind_eq_some_iff, Option.pure_def,
      Option.ite_none_right_eq_some, Option.some.injEq, Prod.mk.injEq] at hStep
    obtain ⟨senderWalletId, -, senderWallet, -, -, rfl, -⟩ := hStep
    exact .inl rfl
  | dailyVolume | fees | recentDuplicate =>
    simp only [step, Option.ite_none_right_eq_some, Option.some.injEq, Prod.mk.injEq] at hStep
    exact .inl (hStep.2.1 ▸ rfl)
  | done => cases hStep

theorem step_of_covered (hSolvent : Solvent db.bank) (hKnows : Knows call)
    (hOk : Covered o db call) (hStep : step o db call = some (db', call')) :
    Solvent db'.bank ∧ Knows call' := by
  refine ⟨?_, knows_of_step hKnows hStep⟩
  rcases bank_of_step hStep with hSame | ⟨_, _, _, _, _, rfl, hTx⟩
  · rw [hSame]
    exact hSolvent
  · simp only [Covered, covered, Bool.and_eq_true] at hOk
    refine solvent_sendFundsTx hSolvent hKnows ?_ ?_ hTx
    · exact fun w hw => le_available_of_affords hOk.1 hw
    · exact fun w hw => le_available_of_affords hOk.2 hw

/-- As long as every commit still finds the money its check saw, no wallet ever falls below its
locked balance. -/
theorem balance_covers_locked {start : SendDb} {c : Config SendDb Call}
    (hStart : ∀ id w, start.bank.wallets id = some w →
      0 ≤ w.lockedBalance ∧ w.lockedBalance ≤ w.balance)
    (h : program.Reaches Covered (Program.idle start) c) :
    ∀ id w, c.store.bank.wallets id = some w → w.lockedBalance ≤ w.balance := by
  refine (h.assertions (fun db => Solvent db.bank) (fun _ => Knows) ⟨?_, ?_⟩ ?_ ?_ ?_).1
  · exact fun id w hw => (hStart id w hw).2
  · intro call hMem
    cases hMem
  · intro _ _ _
    exact trivial
  · intro outcome store store' call call' hSolvent hKnows hOk hStep
    exact step_of_covered hSolvent hKnows hOk hStep
  · intro outcome store store' call call' other _ _ hOther _ _
    exact hOther

end Runs

def oneSender : SendDb where
  bank :=
    { wallets := fun id => if id = 1 then some ⟨toUnits 100, 0, false⟩
        else if id = 2 then some ⟨0, 0, false⟩ else none
      platform := none
      transactions := []
      ledger := [] }
  findUser := fun identifier => if identifier = "friend" then some 2 else none
  activeWallet := some
  walletByAddress := fun _ => none

/-- A send takes six steps; the amounts differ, so neither is the other's duplicate. -/
def sendSteps (first second : ℕ) : List (Move Request Outcome) :=
  let o : Outcome := ⟨100000, 0, FEE_DEFAULTS, true⟩
  [.enter ⟨1, "friend", 60, false⟩, .enter ⟨1, "friend", 70, false⟩] ++
    List.replicate first (.run 0 o) ++ List.replicate second (.run 1 o) ++
    List.replicate (6 - first) (.run 0 o)

/-- Two sends read 100 FARM and pass, one debits 60 and the other 70. -/
theorem balance_below_locked :
    ∃ c, program.Reaches anyStep (Program.idle oneSender) c ∧
      ¬∀ id w, c.store.bank.wallets id = some w → w.lockedBalance ≤ w.balance := by
  have hRuns : ((program.schedule (sendSteps 5 6) (Program.idle oneSender)).map
      fun c => c.store.bank.wallets 1) = some (some ⟨toUnits (-30), 0, false⟩) := by
    decide +kernel
  obtain ⟨c, hRun, hWallet⟩ := Option.map_eq_some_iff.mp hRuns
  refine ⟨c, Program.reaches_of_schedule hRun, ?_⟩
  intro hCovered
  exact absurd (hCovered 1 _ hWallet) (by decide +kernel)

/-- One send after the other: the second is refused, and nothing is overdrawn. -/
theorem balance_covers_locked_in_turn :
    ∃ c, program.Reaches Covered (Program.idle oneSender) c ∧
      c.store.bank.wallets 1 = some ⟨toUnits 40, 0, false⟩ ∧
      ∀ id w, c.store.bank.wallets id = some w → w.lockedBalance ≤ w.balance := by
  have hRuns : (((program.guarded Covered).schedule (sendSteps 6 3) (Program.idle oneSender)).map
      fun c => c.store.bank.wallets 1) = some (some ⟨toUnits 40, 0, false⟩) := by
    decide +kernel
  obtain ⟨c, hRun, hWallet⟩ := Option.map_eq_some_iff.mp hRuns
  have hReach : program.Reaches Covered (Program.idle oneSender) c :=
    Program.reaches_of_guarded (Program.reaches_of_schedule hRun)
  refine ⟨c, hReach, hWallet, balance_covers_locked ?_ hReach⟩
  intro id w hw
  simp only [oneSender] at hw
  split at hw
  · simp only [Option.some.injEq] at hw
    subst hw
    decide +kernel
  · split at hw
    · simp only [Option.some.injEq] at hw
      subst hw
      decide
    · cases hw

end FarmBackend.SendFunds
