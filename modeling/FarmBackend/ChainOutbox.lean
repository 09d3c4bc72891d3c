import FarmBackend.Ticket
import Mathlib.Data.List.Nodup

/-!
# `ChainSyncService.process`

One row of `chain_outbox`, the workers that have read it, and the chain: the current round, the
transfers of the row that a node has taken and those of them that are confirmed. A transfer's id
determines its last round. What an await answers, and whether it throws, is the outcome.
-/

namespace FarmBackend.ChainOutbox
open Interleaving

set_option autoImplicit false

abbrev TxId := ℕ

inductive OutboxStatus where
  | pending
  | failed
  | blocked
  | sending
  | sent
  deriving DecidableEq, Repr

/-- The statuses that `process` looks for. -/
def OutboxStatus.isWaiting : OutboxStatus → Bool
  | .pending | .failed | .blocked => true
  | .sending | .sent => false

structure OutboxRow where
  status : OutboxStatus
  amountUnits : ℕ
  txId : Option TxId
  lastValid : Option ℕ
  attempts : ℕ
  nextAttemptAt : ℕ
  deriving DecidableEq

structure Store where
  row : OutboxRow
  round : ℕ
  broadcast : List TxId
  confirmed : List TxId
  deriving DecidableEq

/-- A worker's calls work on the row as it was read. The last two are the network's. -/
inductive Call where
  | findMany
  | claim (r : OutboxRow) (h : r.status.isWaiting = true)
  | txStatus (r : OutboxRow) (txId : TxId)
  | currentRound (r : OutboxRow)
  | checks (r : OutboxRow)
  | prepare (r : OutboxRow)
  | storeTx (r : OutboxRow) (txId : TxId)
  | sendRaw (r : OutboxRow) (txId : TxId)
  | wait (r : OutboxRow) (txId : TxId)
  | markSent (r : OutboxRow)
  | fail (r : OutboxRow) (status : OutboxStatus) (inTry : Bool)
  | retryNow
  | tick
  | confirm (txId : TxId)
  | done
  deriving DecidableEq

inductive Request where
  | process
  | retryNow
  | tick
  | confirm (txId : TxId)

/-- `pendingLookup` and `indexer` say whether the two services answer; `txId` is what
`prepareFarmTransfer` builds. -/
structure Outcome where
  now : ℕ
  throws : Bool
  pendingLookup : Bool
  indexer : Bool
  isInternal : Bool
  balance : ℕ
  signerReady : Bool
  txId : TxId
  accepted : Bool

inductive TxStatus where
  | confirmed
  | pending
  | unknown
  deriving DecidableEq, Repr

/-- The node knows what is in its pool or confirmed, the indexer what is confirmed; each may be out,
and neither having an answer is `unknown`. -/
def txStatus (o : Outcome) (s : Store) (txId : TxId) : TxStatus :=
  if o.pendingLookup = true ∧ txId ∈ s.broadcast then
    if txId ∈ s.confirmed then .confirmed else .pending
  else if o.indexer = true ∧ txId ∈ s.confirmed then .confirmed
  else .unknown

def backoff (now attempts : ℕ) : ℕ := now + min (30000 * 2 ^ attempts) 3600000

variable (lastValid : TxId → ℕ)

def step (o : Outcome) (s : Store) : Call → Option (Store × Call)
  | .findMany =>
    if o.throws then none
    else if h : s.row.status.isWaiting = true then
      if s.row.nextAttemptAt ≤ o.now then some (s, .claim s.row h) else some (s, .done)
    else some (s, .done)
  | .claim r _ =>
    if o.throws then none
    else if s.row.status = r.status then
      some ({ s with row := { s.row with status := .sending, attempts := s.row.attempts + 1 } },
        match r.txId with
        | some txId => .txStatus r txId
        | none => .checks r)
    else some (s, .done)
  | .txStatus r txId =>
    match txStatus o s txId with
    | .confirmed => some (s, .markSent r)
    | .pending => some (s, .fail r .failed true)
    | .unknown => some (s, .currentRound r)
  | .currentRound r =>
    if o.throws then some (s, .fail r .failed false)
    else if s.round ≤ r.lastValid.getD 0 then some (s, .fail r .failed true)
    else some (s, .checks r)
  | .checks r =>
    -- the destination, the balance and the sender's wallet
    if o.throws = true ∨ o.isInternal = false then some (s, .fail r .failed false)
    else if o.balance < r.amountUnits then some (s, .fail r .blocked true)
    else if o.signerReady = false then some (s, .fail r .failed false)
    else some (s, .prepare r)
  | .prepare r => if o.throws then some (s, .fail r .failed false) else some (s, .storeTx r o.txId)
  | .storeTx r txId =>
    if o.throws then some (s, .fail r .failed false)
    else some ({ s with row := { s.row with
      txId := some txId, lastValid := some (lastValid txId) } }, .sendRaw r txId)
  | .sendRaw r txId =>
    let s' := if o.accepted then { s with broadcast := s.broadcast ++ [txId] } else s
    -- an accepted broadcast may throw all the same
    if o.throws = true ∨ o.accepted = false then some (s', .fail r .failed false)
    else some (s', .wait r txId)
  | .wait r txId =>
    if o.throws then some (s, .fail r .failed false)
    else if txId ∈ s.confirmed then some (s, .markSent r) else none
  | .markSent r =>
    if o.throws then some (s, .fail r .failed false)
    else some ({ s with row := { s.row with status := .sent } }, .done)
  | .fail r status inTry =>
    if o.throws then
      if inTry then some (s, .fail r .failed false) else none
    else some ({ s with row := { s.row with
      status := status, nextAttemptAt := backoff o.now r.attempts } }, .done)
  | .retryNow =>
    if o.throws then none
    else if s.row.status = .failed ∨ s.row.status = .blocked then
      some ({ s with row := { s.row with nextAttemptAt := o.now } }, .done)
    else some (s, .done)
  | .tick => some ({ s with round := s.round + 1 }, .done)
  | .confirm txId =>
    -- once, and not after its last round
    if txId ∈ s.broadcast ∧ txId ∉ s.confirmed ∧ s.round ≤ lastValid txId then
      some ({ s with confirmed := s.confirmed ++ [txId] }, .done)
    else none
  | .done => none

def program : Program Store Call Request Outcome where
  enter
    | .process => .findMany
    | .retryNow => .retryNow
    | .tick => .tick
    | .confirm txId => .confirm txId
  step := step lastValid

end FarmBackend.ChainOutbox
