import FarmBackend.Accounts
import FarmBackend.ChainLegs
import FarmBackend.DepositCalls
import FarmBackend.Payouts

/-!
# Deleting accounts while money moves

`AuthService.deleteAccount`, `AdminService.deleteUser` and `deleteAdmin`, cut at their database calls,
beside whatever moves money: ledger transactions and withdrawals are their commits, with whatever
their callers read, and deposits run call by call. Sessions, tokens, notifications and the audit log
are left out.
-/

namespace FarmBackend.AccountDeletion
open Decimal Fees Wallets Interleaving
open Accounts (DeleteAccountDto)
open ChainLegs (LedgerOp)
open Deposits (Deposit DepositTransaction)
open Escrow (EscrowContract EscrowDb)
open Withdrawals (DailyLimits UserNames Withdrawal WithdrawDb WithdrawalTransaction)
open WithdrawCalls (NewWithdrawal)

set_option autoImplicit false

inductive Role where
  | user
  | merchant
  | admin
  | superAdmin
  deriving DecidableEq, Repr

/-- A row of `users`. Without a hash `password_hash` is the text `!deleted!`, which no password
matches. -/
structure User (bcrypt : Bcrypt) where
  username : String
  phone : String
  names : UserNames
  passwordHash : Option bcrypt.Hash
  role : Option Role
  isActive : Option Bool
  isSuspended : Option Bool
  isDeleted : Option Bool

/-- The rows of one deposit reference. -/
structure DepositRows where
  deposit : Option Deposit
  transaction : Option DepositTransaction
  transactionId : ℕ
  nextDepositId : ℕ

/-- The id of a user is the position. `activeWallets` are a user's active wallets, in the order a
query without one gives them; `userWallet` is the first of type `user`. -/
structure Store (bcrypt : Bcrypt) where
  users : List (User bcrypt)
  activeWallets : UserId → List WalletId
  userWallet : UserId → Option WalletId
  merchantUser : ℕ → Option UserId
  nextWalletId : WalletId
  wallets : WalletId → Option Wallet
  transactions : List Transaction
  ledger : List LedgerEntry
  escrows : List EscrowContract
  withdrawals : List Withdrawals.Row
  deposits : List DepositRows

variable {bcrypt : Bcrypt}

namespace Store

def activeWallet (s : Store bcrypt) (userId : UserId) : Option WalletId :=
  (s.activeWallets userId).head?

/-- The active wallet of the super admin, who must not be deleted. -/
def platform (s : Store bcrypt) : Option WalletId := do
  let userId ← s.users.findIdx? fun user =>
    user.role == some .superAdmin && user.isDeleted == some false
  s.activeWallet userId

def bank (s : Store bcrypt) : Bank := ⟨s.wallets, s.platform, s.transactions, s.ledger⟩

def setBank (bank : Bank) (s : Store bcrypt) : Store bcrypt :=
  { s with wallets := bank.wallets, transactions := bank.transactions, ledger := bank.ledger }

def findUser (s : Store bcrypt) (identifier : String) : Option UserId :=
  s.users.findIdx? fun user =>
    (user.username == identifier || user.phone == identifier) && user.isDeleted == some false

def escrowDb (s : Store bcrypt) : EscrowDb := ⟨s.bank, s.findUser, s.activeWallet, s.escrows⟩

def setEscrowDb (db : EscrowDb) (s : Store bcrypt) : Store bcrypt :=
  { s.setBank db.bank with escrows := db.escrows }

def userNames (s : Store bcrypt) (userId : UserId) : UserNames :=
  (s.users[userId]?.map User.names).getD ⟨none, none⟩

def withdrawDb (s : Store bcrypt) : WithdrawDb :=
  ⟨s.bank, s.activeWallet, s.userNames, s.withdrawals⟩

def setWithdrawDb (db : WithdrawDb) (s : Store bcrypt) : Store bcrypt :=
  { s.setBank db.bank with withdrawals := db.rows }

/-- One reference and the wallets. -/
def depositStore (rows : DepositRows) (s : Store bcrypt) : Deposits.Store where
  deposit := rows.deposit
  transaction := rows.transaction
  transactionId := rows.transactionId
  nextDepositId := rows.nextDepositId
  bank := s.bank
  activeWallet := s.activeWallet
  userWallet := s.userWallet
  nextWalletId := s.nextWalletId
  merchantUser := s.merchantUser
  credits := []

/-- A deposit opens a wallet only for a user who has no active one. -/
def walletsWith (d : Deposits.Store) (s : Store bcrypt) (userId : UserId) : List WalletId :=
  if s.activeWallets userId = [] then (d.activeWallet userId).toList else s.activeWallets userId

def setDepositStore (reference : ℕ) (d : Deposits.Store) (s : Store bcrypt) : Store bcrypt :=
  { s.setBank d.bank with
    activeWallets := s.walletsWith d
    userWallet := d.userWallet
    nextWalletId := d.nextWalletId
    deposits := s.deposits.set reference
      ⟨d.deposit, d.transaction, d.transactionId, d.nextDepositId⟩ }

def pendingWithdrawals (userId : UserId) (s : Store bcrypt) : ℕ :=
  s.withdrawals.countP fun row =>
    row.withdrawal.userId == userId && row.withdrawal.status.isOpen

def pendingDeposits (userId : UserId) (s : Store bcrypt) : ℕ :=
  s.deposits.countP fun rows => rows.deposit.any fun d =>
    d.userId == userId && (d.status == .pending || d.status == .processing)

/-- `users.update({ where: { id } })`, which throws when the row is missing. -/
def updateUser (userId : UserId) (f : User bcrypt → User bcrypt) (s : Store bcrypt) :
    Option (Store bcrypt) :=
  match s.users[userId]? with
  | none => none
  | some _ => some { s with users := s.users.modify userId f }

end Store

/-- One commit that moves money, or the rows of a new deposit. -/
inductive MoneyOp where
  | ledger (op : LedgerOp)
  | dispute (escrowId : ℕ)
  | createWithdrawal (new : NewWithdrawal)
  | markAsSuccess (reference : ℕ) (withdrawal : Withdrawal) (transaction : WithdrawalTransaction)
      (walletId : WalletId)
  | rejectWithdrawal (reference : ℕ) (withdrawal : Withdrawal)
      (transaction : WithdrawalTransaction) (walletId : WalletId)
  | openDeposit (rows : DepositRows)

inductive Request where
  | money (op : MoneyOp)
  | deposit (reference : ℕ) (request : Deposits.Request)
  | deleteAccount (userId : UserId) (dto : DeleteAccountDto)
  | deleteUser (userId : UserId)
  | deleteAdmin (adminId : UserId)

/-- A running call, named after its next step. -/
inductive Call where
  | money (op : MoneyOp)
  | deposit (reference : ℕ) (call : Deposits.Call)
  | deleteAccount (userId : UserId) (dto : DeleteAccountDto)
  | countWithdrawals (userId : UserId)
  | countDeposits (userId : UserId)
  | eraseAccount (userId : UserId)
  | deleteUser (userId : UserId)
  | markDeleted (userId : UserId)
  | deleteAdmin (adminId : UserId)
  | eraseAdmin (adminId : UserId)
  | done

structure Outcome where
  now : Time
  salt : ℕ
  rules : FeeRules
  limits : DailyLimits
  verified : Bool
  dbFails : Bool

def Outcome.deposit (o : Outcome) : Deposits.Outcome :=
  ⟨o.now, o.rules .merchant, o.verified, o.dbFails⟩

namespace User

/-- The columns that `deleteAccount` blanks. -/
def erase (o : Outcome) (userId : UserId) (user : User bcrypt) : User bcrypt :=
  { user with
    isActive := some false
    isDeleted := some true
    phone := "deleted_" ++ String.ofList ((toString userId).toList.take 12)
    username := "deleted_" ++ toString userId
    passwordHash := some (bcrypt.hash o.salt
      ("deleted-" ++ toString userId ++ "-" ++ toString o.now)) }

def markDeleted (user : User bcrypt) : User bcrypt := { user with isDeleted := some true }

/-- The columns that `deleteAdmin` blanks. -/
def eraseAdmin (adminId : UserId) (user : User bcrypt) : User bcrypt :=
  { user with
    isDeleted := some true
    isActive := some false
    isSuspended := some true
    names := ⟨some "Deleted", some "Admin"⟩
    username := "deleted_" ++ toString adminId
    phone := "deleted_" ++ String.ofList ((toString adminId).toList.take 12)
    passwordHash := none }

end User

/-- What a caller of a withdrawal's end has read is at least the minimum of a withdrawal. -/
def MINIMUM_WITHDRAWAL : ℚ := 10

def MoneyOp.commit (o : Outcome) (s : Store bcrypt) : MoneyOp → Option (Store bcrypt)
  | .ledger op => (op.commit o.rules o.now s.escrowDb).map fun db => s.setEscrowDb db
  | .dispute escrowId => (s.escrowDb.disputeTx escrowId).map fun db => s.setEscrowDb db
  | .createWithdrawal new =>
    if MINIMUM_WITHDRAWAL ≤ new.amount then
      (s.withdrawDb.lockFundsInTx new.walletId new.userId new.amount o.limits o.now).map fun db =>
        s.setWithdrawDb { db with rows := db.rows ++ [Payouts.newRow o.now new] }
    else none
  | .markAsSuccess reference withdrawal transaction walletId =>
    if MINIMUM_WITHDRAWAL ≤ withdrawal.amount then
      (s.withdrawDb.markAsSuccessTx reference withdrawal transaction walletId).map fun r =>
        s.setWithdrawDb r.1
    else none
  | .rejectWithdrawal reference withdrawal transaction walletId =>
    if MINIMUM_WITHDRAWAL ≤ withdrawal.amount then
      (s.withdrawDb.rejectWithdrawalTx reference withdrawal transaction walletId).map fun r =>
        s.setWithdrawDb r.1
    else none
  | .openDeposit rows => some { s with deposits := s.deposits ++ [rows] }

/-- A hash that is none compares equal to nothing. -/
def passwordMatches (password : String) (user : User bcrypt) : Bool :=
  user.passwordHash.any fun hash => bcrypt.compare password hash

def step (o : Outcome) (s : Store bcrypt) : Call → Option (Store bcrypt × Call)
  | .money op => (op.commit o s).map fun s => (s, .done)
  | .deposit reference call => do
    let rows ← s.deposits[reference]?
    let (d, call) ← Deposits.step o.deposit (s.depositStore rows) call
    return (s.setDepositStore reference d, .deposit reference call)
  | .deleteAccount userId dto => do
    let user ← s.users[userId]?
    -- The only look at money, and at one wallet.
    let empty : Bool := match s.activeWallet userId with
      | none => true
      | some walletId => s.bank.balanceOf walletId == 0
    if dto.password ≠ "" ∧ dto.acknowledged ∧ dto.confirmDelete ∧
        passwordMatches dto.password user ∧ empty then
      return (s, .countWithdrawals userId)
    else none
  | .countWithdrawals userId =>
    if s.pendingWithdrawals userId = 0 then some (s, .countDeposits userId) else none
  | .countDeposits userId =>
    if s.pendingDeposits userId = 0 then some (s, .eraseAccount userId) else none
  | .eraseAccount userId => (s.updateUser userId (User.erase o userId)).map fun s => (s, .done)
  | .deleteUser userId => do
    let user ← s.users[userId]?
    if user.isDeleted = some true then none else return (s, .markDeleted userId)
  | .markDeleted userId => (s.updateUser userId User.markDeleted).map fun s => (s, .done)
  | .deleteAdmin adminId => do
    let admin ← s.users[adminId]?
    if admin.role = some .admin ∧ admin.isDeleted = some false then return (s, .eraseAdmin adminId)
    else none
  | .eraseAdmin adminId => (s.updateUser adminId (User.eraseAdmin adminId)).map fun s => (s, .done)
  | .done => none

def enter : Request → Call
  | .money op => .money op
  | .deposit reference request => .deposit reference (Deposits.enter request)
  | .deleteAccount userId dto => .deleteAccount userId dto
  | .deleteUser userId => .deleteUser userId
  | .deleteAdmin adminId => .deleteAdmin adminId

def program (bcrypt : Bcrypt) : Program (Store bcrypt) Call Request Outcome := ⟨enter, step⟩

/-! What a commit pays into wallets or locks there. -/

abbrev Payment := WalletId × ℚ

/-- The wallet neither holds nor locks anything. -/
def EmptyAt (bank : Bank) (id : WalletId) : Prop := bank.balanceOf id ≤ 0 ∧ bank.lockedOf id ≤ 0

def feePayments (platform : Option WalletId) (fee : ℚ) : List Payment :=
  platform.toList.map fun walletId => (walletId, fee)

def releasePayments (rules : FeeRules) (platform : Option WalletId) (sellerWalletId : Option WalletId)
    (amount : ℚ) : List Payment :=
  let fee := feeFor rules .escrowRelease amount 2
  (sellerWalletId.toList.map fun walletId => (walletId, toFixed 8 (amount - fee))) ++
    feePayments platform fee

def ledgerPayments (rules : FeeRules) (db : EscrowDb) : LedgerOp → List Payment
  | .sendFunds _ receiverWalletId amount isMerchant =>
    let merchantFee := SendFunds.merchantFeeOf rules isMerchant amount
    [(receiverWalletId, SendFunds.receiverCredit amount merchantFee)] ++
      feePayments db.bank.platform merchantFee ++
      feePayments db.bank.platform (SendFunds.transferFee rules amount)
  | .acceptAndTransfer _ _ requesterWalletId amount => [(requesterWalletId, toNumber amount)]
  | .create _ dto buyerWalletId _ _ =>
    [(buyerWalletId, dto.amount)] ++
      feePayments db.bank.platform (Escrow.creationFee rules dto.amount)
  | .releasePartial _ escrow _ amount =>
    releasePayments rules db.bank.platform escrow.sellerWalletId (toFixed 2 amount)
  | .executeRelease escrowId escrow _ =>
    match db.escrows[escrowId]? with
    | none => []
    | some fresh => releasePayments rules db.bank.platform escrow.sellerWalletId
        (Escrow.remainingAmount fresh.amount fresh.releasedAmount)
  | .executeRefund _ _ _ => []

def MoneyOp.payments (o : Outcome) (s : Store bcrypt) : MoneyOp → List Payment
  | .ledger op => ledgerPayments o.rules s.escrowDb op
  | .createWithdrawal new => [(new.walletId, new.amount)]
  | .markAsSuccess _ withdrawal _ _ => feePayments s.platform withdrawal.fee
  | .dispute _ | .rejectWithdrawal _ _ _ _ | .openDeposit _ => []

/-- The user whose wallet a settling transaction looks up, and opens when there is none. -/
def opensFor (d : Deposits.Store) : Deposits.Call → Option UserId
  | .finalizePendingDeposit _ deposit _ | .creditPendingDeposit _ deposit _ => some deposit.userId
  | .creditPendingTransactionTx _ t =>
    match t.receiverWalletId.filter fun id => (d.bank.wallets id).isSome with
    | some _ => none
    | none => t.metadata.userId
  | _ => none

def depositPayments (o : Deposits.Outcome) (d : Deposits.Store) : Deposits.Call → List Payment
  | .finalizePendingDeposit service deposit t | .creditPendingDeposit service deposit t =>
    [((d.findOrCreateWallet deposit.userId).2, Deposits.creditAmount service deposit t)]
  | .creditPendingTransactionTx service t =>
    (d.transactionWallet t).toList.map fun r => (r.2, Deposits.transactionCreditAmount service t)
  | .finalizeMerchantQr deposit t =>
    let amount := Deposits.normalizeAmount deposit.amount
    let fee := Deposits.normalizeAmount (computeFee o.merchantRule amount 8)
    let walletId := (t.metadata.merchantId.bind d.merchantUser).bind d.userWallet
    (walletId.toList.map fun id => (id, Deposits.normalizeAmount (amount - fee))) ++
      feePayments d.bank.platform fee
  | _ => []

/-- The wallets as a step has them once it has opened the one it looks for. -/
def opened (s : Store bcrypt) : Call → Store bcrypt
  | .deposit reference call =>
    match s.deposits[reference]? with
    | none => s
    | some rows =>
      match opensFor (s.depositStore rows) call with
      | none => s
      | some userId =>
        s.setDepositStore reference ((s.depositStore rows).findOrCreateWallet userId).1
  | _ => s

def payments (o : Outcome) (s : Store bcrypt) : Call → List Payment
  | .money op => op.payments o s
  | .deposit reference call =>
    match s.deposits[reference]? with
    | none => []
    | some rows => depositPayments o.deposit (s.depositStore rows) call
  | _ => []

/-- The user whom the next step marks as deleted. -/
def Call.deletes : Call → Option UserId
  | .eraseAccount userId | .markDeleted userId | .eraseAdmin userId => some userId
  | _ => none

namespace Store

def Deleted (s : Store bcrypt) (userId : UserId) : Prop :=
  ∃ user, s.users[userId]? = some user ∧ user.isDeleted = some true

def Emptied (s : Store bcrypt) (userId : UserId) : Prop :=
  ∀ id ∈ s.activeWallets userId, EmptyAt s.bank id

def NothingStranded (s : Store bcrypt) : Prop := ∀ userId, s.Deleted userId → s.Emptied userId

end Store

/-- The step pays or locks a positive amount in an active wallet of the user. -/
def Pays (o : Outcome) (s : Store bcrypt) (call : Call) (userId : UserId) : Prop :=
  ∃ p ∈ payments o s call, 0 < toUnits p.2 ∧ p.1 ∈ (opened s call).activeWallets userId

/-- A deletion finds the user's active wallets empty, and nothing is paid to a deleted user. -/
def Heeds (o : Outcome) (s : Store bcrypt) (call : Call) : Prop :=
  (∀ userId, call.deletes = some userId → s.Emptied userId) ∧
    ∀ userId, s.Deleted userId → ¬ Pays o s call userId

end FarmBackend.AccountDeletion
