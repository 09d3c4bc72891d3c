import FarmBackend.Interleaving
import FarmBackend.KeyedTable

/-!
# Deposits from the chain

The pollers of `ChainWalletService` and what they read: the chain, the custodial wallets and their
provisioning, the cursors of `chain_sync_state`. A call stops at every database statement and at every
answer of the node or the indexer. The indexer answers a search with any transactions of the chain that
match it, up to its limit.
-/

namespace FarmBackend.ChainDeposits
open Interleaving

set_option autoImplicit false

inductive Asset where
  | usdc
  | farm
  | algo
  deriving DecidableEq

def Asset.decimals : Asset → ℕ
  | .usdc => 6
  | .farm => 2
  | .algo => 6

abbrev Address := ℕ

/-- A confirmed transaction. -/
structure IncomingTransfer where
  txId : ℕ
  asset : Asset
  sender : Address
  receiver : Address
  amount : ℕ
  round : ℕ
  deriving DecidableEq

inductive WalletStatus where
  | created
  | provisioning
  | ready
  | failed
  deriving DecidableEq

/-- A row of `user_chain_wallets`; the user and the address are unique. -/
structure UserChainWallet where
  userId : ℕ
  address : Address
  status : WalletStatus
  fundedTxId : Option ℕ
  deriving DecidableEq

/-- A row of `chain_deposits`. -/
structure ChainDeposit where
  txId : ℕ
  asset : Asset
  userId : ℕ
  address : Address
  sender : Address
  amountUnits : ℕ
  decimals : ℕ
  confirmedRound : ℕ
  deriving DecidableEq

namespace ChainDeposit

/-- The row of a transfer to a user. -/
def of (userId : ℕ) (t : IncomingTransfer) : ChainDeposit :=
  ⟨t.txId, t.asset, userId, t.receiver, t.sender, t.amount, t.asset.decimals, t.round⟩

/-- The unique key of the table. -/
def key (row : ChainDeposit) : ℕ × Asset := (row.txId, row.asset)

end ChainDeposit

/-- FARM's own addresses that are not custodial. -/
structure Settings where
  reserve : Address
  funder : Address

/-- `cursor` is `chain_sync_state`, and `firstRound` the round that a cursor was created with: nothing
before it is backfilled. `round` is that of the last block. -/
structure Store where
  chain : List IncomingTransfer
  round : ℕ
  wallets : List UserChainWallet
  cursor : Asset → Option ℕ
  firstRound : Asset → Option ℕ
  deposits : List ChainDeposit

/-- `block` is the chain's own: a block with these transfers is confirmed. -/
inductive Request where
  | pollDeposits
  | pollAlgo
  | mine (userId : ℕ)
  | provision (userId : ℕ)
  | block (transfers : List IncomingTransfer)

/-- A running call, named after its next statement. -/
inductive Call where
  | pollDeposits
  | findCursor (assets : List Asset)
  | currentRound (asset : Asset) (rest : List Asset)
  | createCursor (asset : Asset) (rest : List Asset) (round : ℕ)
  | transfersSince (asset : Asset) (rest : List Asset) (cur : ℕ)
  | findOwners (asset : Asset) (rest : List Asset) (cur : ℕ) (txs : List IncomingTransfer)
  | createMany (asset : Asset) (rest : List Asset) (cur maxRound : ℕ) (rows : List ChainDeposit)
  | updateCursor (asset : Asset) (rest : List Asset) (cur maxRound : ℕ)
  | pollAlgo
  | head (cur : Option ℕ)
  | createHead (head : ℕ)
  | findWallets (cur head : ℕ)
  | paymentsTo (cur head : ℕ) (wallets rest : List UserChainWallet)
  | createPayments (cur head : ℕ) (wallets rest : List UserChainWallet) (rows : List ChainDeposit)
  | updateHead (cur head : ℕ)
  | mine (userId : ℕ)
  | provision (userId : ℕ)
  | fund (userId : ℕ)
  | block (transfers : List IncomingTransfer)
  | done

/-- `enabled` is `deposits.enabled`, `round` the node's answer, `txs` the indexer's, `address` that of a
new account. `funded` is the confirmed funding payment, and nothing if the provisioning failed. -/
structure Outcome where
  enabled : Bool
  round : ℕ
  txs : List IncomingTransfer
  address : Address
  funded : Option ℕ

namespace Store

def isCustodial (address : Address) (s : Store) : Bool := s.wallets.any (·.address == address)

/-- What the indexer may answer to a search. -/
def Answers (asset : Asset) (minRound limit : ℕ) (txs : List IncomingTransfer) (s : Store) : Prop :=
  txs.length ≤ limit ∧ ∀ t ∈ txs, t ∈ s.chain ∧ t.asset = asset ∧ minRound ≤ t.round

instance (asset : Asset) (minRound limit : ℕ) (txs : List IncomingTransfer) (s : Store) :
    Decidable (s.Answers asset minRound limit txs) :=
  inferInstanceAs (Decidable (_ ∧ _))

/-- The custodial wallets among the receivers and the senders. -/
def owners (txs : List IncomingTransfer) (s : Store) : List UserChainWallet :=
  s.wallets.filter fun w => txs.any fun t => w.address == t.receiver || w.address == t.sender

def createCursor (asset : Asset) (round : ℕ) (s : Store) : Store :=
  { s with
    cursor := Function.update s.cursor asset (some round)
    firstRound := Function.update s.firstRound asset (some round) }

def setCursor (asset : Asset) (round : ℕ) (s : Store) : Store :=
  { s with cursor := Function.update s.cursor asset (some round) }

/-- `createMany` with `skipDuplicates`. -/
def createMany (rows : List ChainDeposit) (s : Store) : Store :=
  { s with deposits := KeyedTable.insertMany ChainDeposit.key s.deposits rows }

/-- No transfer and no wallet has named the address. -/
def Unused (address : Address) (s : Store) : Prop :=
  s.isCustodial address = false ∧ ∀ t ∈ s.chain, t.receiver ≠ address ∧ t.sender ≠ address

instance (address : Address) (s : Store) : Decidable (s.Unused address) :=
  inferInstanceAs (Decidable (_ ∧ _))

def createWallet (userId : ℕ) (address : Address) (s : Store) : Store :=
  { s with wallets := s.wallets ++ [⟨userId, address, .created, none⟩] }

def updateWallet (userId : ℕ) (f : UserChainWallet → UserChainWallet) (s : Store) : Store :=
  { s with wallets := s.wallets.map fun w => if w.userId = userId then f w else w }

/-- The transaction is a confirmed payment of the funder. -/
def Funds (funder : Address) (txId : ℕ) (s : Store) : Prop :=
  ∃ t ∈ s.chain, t.txId = txId ∧ t.sender = funder

instance (funder : Address) (txId : ℕ) (s : Store) : Decidable (s.Funds funder txId) :=
  inferInstanceAs (Decidable (∃ t ∈ s.chain, _))

/-- Every transaction has an id of its own. -/
def Extends (transfers : List IncomingTransfer) (s : Store) : Prop :=
  ((s.chain ++ transfers).map IncomingTransfer.txId).Nodup

instance (transfers : List IncomingTransfer) (s : Store) : Decidable (s.Extends transfers) :=
  inferInstanceAs (Decidable (List.Nodup _))

def addBlock (transfers : List IncomingTransfer) (s : Store) : Store :=
  { s with
    chain := s.chain ++ transfers.map ({ · with round := s.round + 1 })
    round := s.round + 1 }

end Store

def UserChainWallet.setReady (txId : ℕ) (w : UserChainWallet) : UserChainWallet :=
  { w with status := .ready, fundedTxId := w.fundedTxId.or (some txId) }

def claimable (userId : ℕ) (w : UserChainWallet) : Bool :=
  w.userId == userId && (w.status == .created || w.status == .failed)

/-- The largest round of an answer, and the cursor if there is none. -/
def maxRound (cur : ℕ) (txs : List IncomingTransfer) : ℕ :=
  txs.foldl (fun m t => if m < t.round then t.round else m) cur

section Polls
variable (cfg : Settings)

/-- What `pollDeposits` records of an answer. -/
def depositRows (asset : Asset) (owners : List UserChainWallet) (txs : List IncomingTransfer) :
    List ChainDeposit :=
  let byAddr (address : Address) := owners.find? (·.address == address)
  let isInternal (address : Address) := address == cfg.reserve || (byAddr address).isSome
  (txs.filter fun t => decide (0 < t.amount) && t.sender != t.receiver &&
    !(asset == .farm && isInternal t.sender)).filterMap fun t =>
      (byAddr t.receiver).map fun w => .of w.userId t

/-- What `pollAlgo` records of the payments to one wallet. -/
def paymentRows (wallets : List UserChainWallet) (w : UserChainWallet)
    (txs : List IncomingTransfer) : List ChainDeposit :=
  (txs.filter fun t => t.receiver == w.address && decide (0 < t.amount) &&
    t.sender != t.receiver && t.sender != cfg.funder && t.sender != cfg.reserve &&
    !(wallets.any (·.address == t.sender)) && !(wallets.any (·.fundedTxId == some t.txId))).map
      (.of w.userId)

def step (o : Outcome) (s : Store) : Call → Option (Store × Call)
  | .pollDeposits => if o.enabled then some (s, .findCursor [.usdc, .farm]) else none
  | .findCursor [] => some (s, .pollAlgo)
  | .findCursor (asset :: rest) =>
    match s.cursor asset with
    | none => some (s, .currentRound asset rest)
    | some cur => some (s, .transfersSince asset rest cur)
  | .currentRound asset rest =>
    if o.round ≤ s.round then some (s, .createCursor asset rest o.round) else none
  | .createCursor asset rest round =>
    match s.cursor asset with
    | none => some (s.createCursor asset round, .transfersSince asset rest round)
    | some _ => none
  | .transfersSince asset rest cur =>
    if s.Answers asset cur 500 o.txs then some (s, .findOwners asset rest cur o.txs) else none
  | .findOwners asset rest cur txs =>
    some (s, .createMany asset rest cur (maxRound cur txs)
      (depositRows cfg asset (s.owners txs) txs))
  | .createMany asset rest cur maxRound rows =>
    some (s.createMany rows, .updateCursor asset rest cur maxRound)
  | .updateCursor asset rest cur maxRound =>
    some (if cur < maxRound then s.setCursor asset maxRound else s, .findCursor rest)
  | .pollAlgo => some (s, .head (s.cursor .algo))
  | .head cur =>
    if o.round ≤ s.round then
      match cur with
      | none => some (s, .createHead o.round)
      | some cur => some (s, .findWallets cur o.round)
    else none
  | .createHead head =>
    match s.cursor .algo with
    | none => some (s.createCursor .algo head, .done)
    | some _ => none
  | .findWallets cur head =>
    let wallets := s.wallets.filter (·.status == .ready)
    if wallets.isEmpty then some (s.setCursor .algo head, .done)
    else some (s, .paymentsTo cur head wallets wallets)
  | .paymentsTo cur head _ [] => some (s, .updateHead cur head)
  | .paymentsTo cur head wallets (w :: rest) =>
    if s.Answers .algo cur 200 o.txs then
      some (s, .createPayments cur head wallets rest (paymentRows cfg wallets w o.txs))
    else none
  | .createPayments cur head wallets rest rows =>
    some (s.createMany rows, .paymentsTo cur head wallets rest)
  -- "Rounds up to `head` were covered for every address"
  | .updateHead cur head => some (if cur < head then s.setCursor .algo head else s, .done)
  | .mine userId =>
    if s.wallets.any (·.userId == userId) then some (s, .provision userId)
    else if s.Unused o.address then some (s.createWallet userId o.address, .provision userId)
    else none
  | .provision userId =>
    if s.wallets.any (claimable userId) then
      some (s.updateWallet userId ({ · with status := .provisioning }), .fund userId)
    else some (s, .done)
  | .fund userId =>
    match o.funded with
    | none => some (s.updateWallet userId ({ · with status := .failed }), .done)
    | some txId =>
      if s.Funds cfg.funder txId then
        some (s.updateWallet userId (.setReady txId), .done)
      else none
  | .block transfers =>
    if s.Extends transfers then some (s.addBlock transfers, .done) else none
  | .done => none

def enter : Request → Call
  | .pollDeposits => .pollDeposits
  | .pollAlgo => .pollAlgo
  | .mine userId => .mine userId
  | .provision userId => .provision userId
  | .block transfers => .block transfers

def program : Program Store Call Request Outcome := ⟨enter, step cfg⟩

/-! What the cursors promise. -/

namespace Store

/-- A transfer from outside to a custodial address, whatever the status of its wallet. -/
structure IsExternal (s : Store) (t : IncomingTransfer) : Prop where
  amount : 0 < t.amount
  receiver : s.isCustodial t.receiver = true
  sender : s.isCustodial t.sender = false
  reserve : t.sender ≠ cfg.reserve
  funder : t.sender ≠ cfg.funder

instance (s : Store) (t : IncomingTransfer) : Decidable (s.IsExternal cfg t) :=
  decidable_of_iff (0 < t.amount ∧ s.isCustodial t.receiver = true ∧ s.isCustodial t.sender = false ∧
    t.sender ≠ cfg.reserve ∧ t.sender ≠ cfg.funder)
    ⟨fun ⟨h₁, h₂, h₃, h₄, h₅⟩ => ⟨h₁, h₂, h₃, h₄, h₅⟩, fun ⟨h₁, h₂, h₃, h₄, h₅⟩ => ⟨h₁, h₂, h₃, h₄, h₅⟩⟩

/-- The transfer's row is in the table, under a user of its address. -/
def IsRecorded (s : Store) (t : IncomingTransfer) : Prop :=
  ∃ w ∈ s.wallets, w.address = t.receiver ∧ .of w.userId t ∈ s.deposits

instance (s : Store) (t : IncomingTransfer) : Decidable (s.IsRecorded t) :=
  inferInstanceAs (Decidable (∃ w ∈ s.wallets, _))

/-- The external transfers of the rounds `lo ≤ round < hi` that are not recorded have the property. -/
def Passing (asset : Asset) (lo hi : ℕ) (P : IncomingTransfer → Prop) (s : Store) : Prop :=
  ∀ t ∈ s.chain, s.IsExternal cfg t → t.asset = asset → lo ≤ t.round → t.round < hi →
    s.IsRecorded t ∨ P t

instance (asset : Asset) (lo hi : ℕ) (P : IncomingTransfer → Prop) [DecidablePred P] (s : Store) :
    Decidable (s.Passing cfg asset lo hi P) :=
  inferInstanceAs (Decidable (∀ t ∈ s.chain, _))

/-- No cursor is past a round with an external transfer that is not recorded. -/
def NothingMissed (s : Store) : Prop :=
  ∀ asset, ∀ cur ∈ s.cursor asset, ∀ first ∈ s.firstRound asset,
    s.Passing cfg asset first cur fun _ => False

/-- A store as the pollers can find it. -/
structure Sound (s : Store) : Prop where
  ids : (s.chain.map IncomingTransfer.txId).Nodup
  rounds : ∀ t ∈ s.chain, t.round ≤ s.round
  cursors : ∀ asset, ∀ cur ∈ s.cursor asset, cur ≤ s.round
  funded : ∀ w ∈ s.wallets, ∀ txId ∈ w.fundedTxId, s.Funds cfg.funder txId
  deposits : ∀ row ∈ s.deposits, ∃ t ∈ s.chain, ∃ w ∈ s.wallets,
    w.address = t.receiver ∧ row = .of w.userId t

end Store

/-- The answer to a search has every external transfer of the rounds that the cursor then passes, and
the ready wallets are those that were paid in them. -/
def Heeds (o : Outcome) (s : Store) : Call → Prop
  | .transfersSince asset _ cur => s.Passing cfg asset cur (maxRound cur o.txs) (· ∈ o.txs)
  | .findWallets cur head =>
    s.Passing cfg .algo cur head fun t => ∃ w ∈ s.wallets, w.status = .ready ∧ w.address = t.receiver
  | .paymentsTo cur head _ (w :: _) =>
    s.Passing cfg .algo cur head fun t => t.receiver = w.address → t ∈ o.txs
  | _ => True

instance (o : Outcome) (s : Store) (call : Call) : Decidable (Heeds cfg o s call) :=
  match call with
  | .transfersSince asset _ cur =>
    inferInstanceAs (Decidable (s.Passing cfg asset cur (maxRound cur o.txs) (· ∈ o.txs)))
  | .findWallets cur head =>
    inferInstanceAs (Decidable (s.Passing cfg .algo cur head fun t =>
      ∃ w ∈ s.wallets, w.status = .ready ∧ w.address = t.receiver))
  | .paymentsTo cur head _ (w :: _) =>
    inferInstanceAs (Decidable (s.Passing cfg .algo cur head fun t =>
      t.receiver = w.address → t ∈ o.txs))
  | .paymentsTo _ _ _ [] | .pollDeposits | .findCursor _ | .currentRound _ _ | .createCursor _ _ _
  | .findOwners _ _ _ _ | .createMany _ _ _ _ _ | .updateCursor _ _ _ _ | .pollAlgo | .head _
  | .createHead _ | .createPayments _ _ _ _ _ | .updateHead _ _ | .mine _ | .provision _ | .fund _
  | .block _ | .done => .isTrue trivial

end Polls

end FarmBackend.ChainDeposits
