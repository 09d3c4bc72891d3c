import FarmBackend.Interleaving
import FarmBackend.Wallets

/-!
# Requests for money (`transfer-requests` and `payment-requests`)

`TransferRequestsService` and `PaymentRequestsService` run the same operations on their own
tables; what differs is that the payment service expires at most 500 requests in one job. One
request, any number of each operation at once, READ COMMITTED: every read is a step, a
transaction's writes are a step, and so is every update outside a transaction.

The payer is `sender` of a transfer request and `recipient` of a payment request.
-/

namespace FarmBackend.MoneyRequests
open Decimal Fees Wallets Interleaving

set_option autoImplicit false

inductive RequestStatus where
  | pending
  | accepted
  | rejected
  | expired
  | completed
  | cancelled
  deriving DecidableEq, Repr

structure MoneyRequest where
  requesterUserId : Option UserId
  requesterWalletId : Option WalletId
  payerUserId : Option UserId
  payerWalletId : Option WalletId
  amount : ℤ
  status : RequestStatus
  transactionId : Option ℕ
  expiresAt : Option Time
  deriving DecidableEq

/-- `id` is the id of the request. -/
structure RequestDb where
  bank : Bank
  id : ℕ
  request : MoneyRequest

/-- What sets the two services apart: how many rows `processExpiredRequests` takes. -/
structure Service where
  take : Option ℕ

def transferRequests : Service := ⟨none⟩

def paymentRequests : Service := ⟨some 500⟩

/-- `place` is where the request stands among the expired rows a job selects. -/
structure Outcome where
  now : Time
  rules : FeeRules
  verified : Bool
  place : ℕ

def transferFee (rules : FeeRules) (amount : ℤ) : ℚ :=
  computeFee (rules .transfer) (toNumber amount) 8

/-- The writes of `acceptAndTransfer` to the wallets. -/
def acceptTx (requestId : ℕ) (payerWalletId requesterWalletId : WalletId) (amount : ℤ) (fee : ℚ)
    (now : Time) (bank : Bank) : Option Bank := do
  let totalOut := toNumber amount + fee
  let txnId := bank.transactions.length
  let bank := bank.transactionsCreate
    { senderWalletId := some payerWalletId
      receiverWalletId := some requesterWalletId
      transactionType := .transfer
      status := .completed
      amount := amount
      fee := toUnits fee
      netAmount := toUnits (toNumber amount - fee)
      requestId := some requestId
      createdAt := now }
  let bank ← bank.walletsUpdate payerWalletId (Wallet.decrementBalance totalOut)
  let bank ← bank.walletsUpdate requesterWalletId (Wallet.incrementBalance (toNumber amount))
  let bank := bank.ledgerCreate ⟨some txnId, payerWalletId, .debit, toUnits totalOut⟩
  return bank.ledgerCreate ⟨some txnId, requesterWalletId, .credit, amount⟩

namespace RequestDb

def setStatus (status : RequestStatus) (db : RequestDb) : RequestDb :=
  { db with request := { db.request with status := status } }

/-- The transfers that were made for the request. -/
def moves (db : RequestDb) : ℕ :=
  db.bank.transactions.countP fun t => t.requestId == some db.id

def expiredBy (now : Time) (db : RequestDb) : Bool :=
  match db.request.expiresAt with
  | none => false
  | some t => decide (t ≤ now)

end RequestDb

inductive Request where
  | acceptAndTransfer (payerUserId : UserId)
  | rejectRequest (payerUserId : UserId)
  | cancelRequest (requesterUserId : UserId)
  | getPendingRequests (userId : UserId)
  | processExpiredRequests

/-- A running call, named after its next step. -/
inductive Call where
  | acceptAndTransfer (payerUserId : UserId)
  | acceptWallets (request : MoneyRequest)
  | acceptCommit (payerWalletId requesterWalletId : WalletId) (amount : ℤ) (fee : ℚ)
  | rejectRequest (payerUserId : UserId)
  | cancelRequest (requesterUserId : UserId)
  | getPendingRequests (userId : UserId)
  | processExpiredRequests
  | update (status : RequestStatus)
  | done

def enter : Request → Call
  | .acceptAndTransfer payerUserId => .acceptAndTransfer payerUserId
  | .rejectRequest payerUserId => .rejectRequest payerUserId
  | .cancelRequest requesterUserId => .cancelRequest requesterUserId
  | .getPendingRequests userId => .getPendingRequests userId
  | .processExpiredRequests => .processExpiredRequests

def step (service : Service) (o : Outcome) (db : RequestDb) : Call → Option (RequestDb × Call)
  -- An expired request is marked and the transaction then throws, which undoes the mark.
  | .acceptAndTransfer payerUserId =>
    if o.verified ∧ db.request.payerUserId = some payerUserId ∧ db.request.status = .pending ∧
        ¬∃ t ∈ db.request.expiresAt, t < o.now then
      some (db, .acceptWallets db.request)
    else none
  | .acceptWallets request => do
    let payerWalletId ← request.payerWalletId
    let requesterWalletId ← request.requesterWalletId
    let payerWallet ← db.bank.wallets payerWalletId
    let fee := transferFee o.rules request.amount
    if payerWallet.isFrozen = false ∧ toNumber request.amount + fee ≤ payerWallet.available then
      return (db, .acceptCommit payerWalletId requesterWalletId request.amount fee)
    else none
  | .acceptCommit payerWalletId requesterWalletId amount fee => do
    let bank ← acceptTx db.id payerWalletId requesterWalletId amount fee o.now db.bank
    let request := { db.request with
      status := .completed
      transactionId := some db.bank.transactions.length }
    return ({ db with bank := bank, request := request }, .done)
  | .rejectRequest payerUserId =>
    if db.request.payerUserId = some payerUserId ∧ db.request.status = .pending then
      some (db, .update .rejected)
    else none
  | .cancelRequest requesterUserId =>
    if db.request.requesterUserId = some requesterUserId ∧ db.request.status = .pending then
      some (db, .update .cancelled)
    else none
  | .getPendingRequests userId =>
    let expires := db.request.payerUserId = some userId ∧ db.request.status = .pending ∧
      db.expiredBy o.now
    some (if expires then db.setStatus .expired else db, .done)
  | .processExpiredRequests =>
    let selected := db.request.status = .pending ∧ db.expiredBy o.now ∧
      ∀ n ∈ service.take, o.place < n
    some (db, if selected then .update .expired else .done)
  | .update status => some (db.setStatus status, .done)
  | .done => none

def program (service : Service) : Program RequestDb Call Request Outcome := ⟨enter, step service⟩

def RequestStatus.isClosed (status : RequestStatus) : Bool :=
  status == .rejected || status == .cancelled || status == .expired

/-- A write by id alone finds the request as its read left it: still pending for a transfer,
not completed in the meantime for a rejection, a cancellation or an expiry. -/
def stillOpen (db : RequestDb) : Call → Bool
  | .acceptCommit _ _ _ _ => db.request.status == .pending
  | .update _ => db.request.status != .completed
  | _ => true

abbrev StillOpen : Guard RequestDb Call Outcome := fun _ db call => stillOpen db call = true

/-- A pending update closes the request. -/
def Knows : Call → Prop
  | .update status => status.isClosed = true
  | _ => True

/-- All that a step under the guard can do to the request and its transfers. -/
inductive Effect (db db' : RequestDb) : Prop where
  | stays (hStatus : db'.request.status = db.request.status) (hMoves : db'.moves = db.moves)
  | completes (hPending : db.request.status = .pending) (hStatus : db'.request.status = .completed)
      (hMoves : db'.moves = db.moves + 1)
  | closes (hOpen : db.request.status ≠ .completed) (hStatus : db'.request.status.isClosed = true)
      (hMoves : db'.moves = db.moves)

theorem transactions_acceptTx {requestId : ℕ} {payerWalletId requesterWalletId : WalletId}
    {amount : ℤ} {fee : ℚ} {now : Time} {bank bank' : Bank}
    (h : acceptTx requestId payerWalletId requesterWalletId amount fee now bank = some bank') :
    ∃ row : Transaction, row.requestId = some requestId ∧
      bank'.transactions = bank.transactions ++ [row] := by
  simp only [acceptTx, Option.bind_eq_bind, Option.bind_eq_some_iff, Option.pure_def,
    Option.some.injEq] at h
  obtain ⟨bank₁, hDebit, bank₂, hCredit, rfl⟩ := h
  simp only [Bank.transactions_ledgerCreate]
  rw [(Bank.rest_walletsUpdate hCredit).2.1, (Bank.rest_walletsUpdate hDebit).2.1]
  exact ⟨_, rfl, rfl⟩

section Steps
variable {service : Service} {o : Outcome} {db db' : RequestDb} {call call' : Call}

theorem effect_of_step (hKnows : Knows call) (hOk : StillOpen o db call)
    (hStep : step service o db call = some (db', call')) : Effect db db' ∧ Knows call' := by
  cases call with
  | acceptAndTransfer payerUserId =>
    simp only [step, Option.ite_none_right_eq_some, Option.some.injEq, Prod.mk.injEq] at hStep
    obtain ⟨-, rfl, rfl⟩ := hStep
    exact ⟨.stays rfl rfl, trivial⟩
  | acceptWallets request =>
    simp only [step, Option.bind_eq_bind, Option.bind_eq_some_iff, Option.pure_def,
      Option.ite_none_right_eq_some, Option.some.injEq, Prod.mk.injEq] at hStep
    obtain ⟨payerWalletId, -, requesterWalletId, -, payerWallet, -, -, rfl, rfl⟩ := hStep
    exact ⟨.stays rfl rfl, trivial⟩
  | acceptCommit payerWalletId requesterWalletId amount fee =>
    simp only [step, Option.bind_eq_bind, Option.bind_eq_some_iff, Option.pure_def,
      Option.some.injEq, Prod.mk.injEq] at hStep
    obtain ⟨bank', hTx, rfl, rfl⟩ := hStep
    obtain ⟨row, hRow, hTransactions⟩ := transactions_acceptTx hTx
    refine ⟨.completes (by simpa [StillOpen, stillOpen] using hOk) rfl ?_, trivial⟩
    simp [RequestDb.moves, hTransactions, hRow]
  | rejectRequest payerUserId =>
    simp only [step, Option.ite_none_right_eq_some, Option.some.injEq, Prod.mk.injEq] at hStep
    obtain ⟨-, rfl, rfl⟩ := hStep
    exact ⟨.stays rfl rfl, rfl⟩
  | cancelRequest requesterUserId =>
    simp only [step, Option.ite_none_right_eq_some, Option.some.injEq, Prod.mk.injEq] at hStep
    obtain ⟨-, rfl, rfl⟩ := hStep
    exact ⟨.stays rfl rfl, rfl⟩
  | getPendingRequests userId =>
    simp only [step, Option.some.injEq, Prod.mk.injEq] at hStep
    obtain ⟨rfl, rfl⟩ := hStep
    refine ⟨?_, trivial⟩
    split
    · rename_i hExpires
      exact .closes (by rw [hExpires.2.1]; exact RequestStatus.noConfusion) rfl rfl
    · exact .stays rfl rfl
  | processExpiredRequests =>
    simp only [step, Option.some.injEq, Prod.mk.injEq] at hStep
    obtain ⟨rfl, rfl⟩ := hStep
    refine ⟨.stays rfl rfl, ?_⟩
    split
    · exact rfl
    · exact trivial
  | update status =>
    simp only [step, Option.some.injEq, Prod.mk.injEq] at hStep
    obtain ⟨rfl, rfl⟩ := hStep
    exact ⟨.closes (by simpa [StillOpen, stillOpen] using hOk) hKnows rfl, trivial⟩
  | done => cases hStep

theorem not_completed_of_isClosed {status : RequestStatus} (h : status.isClosed = true) :
    status ≠ .completed := by
  rintro rfl
  cases h

theorem Effect.moves (h : Effect db db')
    (hMoves : db.moves = if db.request.status = .completed then 1 else 0) :
    db'.moves = if db'.request.status = .completed then 1 else 0 := by
  cases h with
  | stays hStatus hSame => rw [hSame, hStatus, hMoves]
  | completes hPending hStatus hMore =>
    rw [hMore, hStatus, hMoves, hPending]
    rfl
  | closes hOpen hStatus hSame =>
    rw [hSame, hMoves, if_neg hOpen, if_neg (not_completed_of_isClosed hStatus)]

theorem Effect.absorbs (h : Effect db db') :
    (db.request.status.isClosed = true →
      db'.request.status.isClosed = true ∧ db'.moves = db.moves) ∧
    (db.request.status = .completed → db'.request.status = .completed) := by
  cases h with
  | stays hStatus hSame => exact ⟨fun hClosed => ⟨hStatus ▸ hClosed, hSame⟩, fun hDone => hStatus ▸ hDone⟩
  | completes hPending hStatus hMore =>
    refine ⟨fun hClosed => ?_, fun _ => hStatus⟩
    rw [hPending] at hClosed
    cases hClosed
  | closes hOpen hStatus hSame => exact ⟨fun _ => ⟨hStatus, hSame⟩, fun hDone => absurd hDone hOpen⟩

end Steps

section Runs
variable {service : Service} {start : RequestDb} {c later : Config RequestDb Call}

theorem knows_of_reaches (h : (program service).Reaches StillOpen (Program.idle start) c) :
    ∀ call ∈ c.calls, Knows call := by
  refine (h.assertions (fun _ => True) (fun _ => Knows) ⟨trivial, ?_⟩ ?_ ?_ ?_).2
  · intro call hMem
    cases hMem
  · intro request _ _
    cases request <;> exact trivial
  · intro outcome store store' call call' _ hKnows hOk hStep
    exact ⟨trivial, (effect_of_step hKnows hOk hStep).2⟩
  · intro outcome store store' call call' other _ _ hOther _ _
    exact hOther

theorem effect_of_reaches (h : (program service).Reaches StillOpen (Program.idle start) c)
    (hStep : (program service).Step StillOpen c later) : Effect c.store later.store := by
  have hKnows := knows_of_reaches h
  cases hStep with
  | enter request store calls => exact .stays rfl rfl
  | call before after hOk hCall =>
    exact (effect_of_step (hKnows _ (by simp)) hOk hCall).1

theorem moves_of_reaches (hPending : start.request.status = .pending) (hStart : start.moves = 0)
    (h : (program service).Reaches StillOpen (Program.idle start) c) :
    c.store.moves = if c.store.request.status = .completed then 1 else 0 := by
  induction h with
  | refl => simp [Program.idle, hPending, hStart]
  | tail hRun hStep ih => exact (effect_of_reaches hRun hStep).moves ih

theorem absorbed_of_reaches (h : (program service).Reaches StillOpen (Program.idle start) c)
    (hLater : (program service).Reaches StillOpen c later) :
    (c.store.request.status.isClosed = true →
      later.store.request.status.isClosed = true ∧ later.store.moves = c.store.moves) ∧
    (c.store.request.status = .completed → later.store.request.status = .completed) := by
  induction hLater with
  | refl => exact ⟨fun hClosed => ⟨hClosed, rfl⟩, id⟩
  | tail hRun hStep ih =>
    obtain ⟨hClosed, hDone⟩ := (effect_of_reaches (h.trans hRun) hStep).absorbs
    refine ⟨fun hWas => ?_, fun hWas => hDone (ih.2 hWas)⟩
    obtain ⟨hStill, hSame⟩ := ih.1 hWas
    exact ⟨(hClosed hStill).1, (hClosed hStill).2.trans hSame⟩

/-- What a request promises in a state and from there on, in the runs under a guard. -/
structure MovesOnce (service : Service) (ok : Guard RequestDb Call Outcome)
    (c : Config RequestDb Call) : Prop where
  moves_le : c.store.moves ≤ 1
  completed_iff : c.store.request.status = .completed ↔ c.store.moves = 1
  closed_absorbs : c.store.request.status.isClosed = true →
    ∀ later, (program service).Reaches ok c later → later.store.moves = c.store.moves
  completed_absorbs : c.store.request.status = .completed →
    ∀ later, (program service).Reaches ok c later → later.store.request.status = .completed

/-- Either service keeps the promise in every run in which no write by id comes too late. -/
theorem request_moves_money_once (service : Service) (hPending : start.request.status = .pending)
    (hStart : start.moves = 0) (h : (program service).Reaches StillOpen (Program.idle start) c) :
    MovesOnce service StillOpen c := by
  have hMoves := moves_of_reaches hPending hStart h
  refine ⟨?_, ?_, ?_, ?_⟩
  · rw [hMoves]
    split <;> omega
  · rw [hMoves]
    split <;> simp [*]
  · exact fun hClosed later hLater => ((absorbed_of_reaches h hLater).1 hClosed).2
  · exact fun hDone later hLater => (absorbed_of_reaches h hLater).2 hDone

end Runs

/-- User 1 is asked for 30 FARM and has 100. -/
def askedForThirty : RequestDb where
  bank :=
    { wallets := fun id => if id = 1 then some ⟨toUnits 100, 0, false⟩
        else if id = 2 then some ⟨0, 0, false⟩ else none
      platform := none
      transactions := []
      ledger := [] }
  id := 7
  request := ⟨some 2, some 2, some 1, some 1, toUnits 30, .pending, none, none⟩

def quiet : Outcome := ⟨0, FEE_DEFAULTS, true, 0⟩

/-- The payer taps twice: both transfers read the request while it is pending. -/
def acceptedTwice : List (Move Request Outcome) :=
  [.enter (.acceptAndTransfer 1), .enter (.acceptAndTransfer 1), .run 0 quiet, .run 1 quiet,
    .run 0 quiet, .run 1 quiet, .run 0 quiet, .run 1 quiet]

theorem request_moves_money_twice :
    (∃ c, (program transferRequests).Reaches anyStep (Program.idle askedForThirty) c ∧
      ¬MovesOnce transferRequests anyStep c) ∧
    (∃ c, (program paymentRequests).Reaches anyStep (Program.idle askedForThirty) c ∧
      ¬MovesOnce paymentRequests anyStep c) := by
  have hTransfer : ((program transferRequests).schedule acceptedTwice
      (Program.idle askedForThirty)).map (fun c => c.store.moves) = some 2 := by decide +kernel
  have hPayment : ((program paymentRequests).schedule acceptedTwice
      (Program.idle askedForThirty)).map (fun c => c.store.moves) = some 2 := by decide +kernel
  obtain ⟨c₁, hRun₁, hTwice₁⟩ := Option.map_eq_some_iff.mp hTransfer
  obtain ⟨c₂, hRun₂, hTwice₂⟩ := Option.map_eq_some_iff.mp hPayment
  refine ⟨⟨c₁, Program.reaches_of_schedule hRun₁, ?_⟩, ⟨c₂, Program.reaches_of_schedule hRun₂, ?_⟩⟩
  · intro hOnce
    have hLe := hOnce.moves_le
    omega
  · intro hOnce
    have hLe := hOnce.moves_le
    omega

/-- A rejection that reads the completed request is refused. -/
def acceptedThenRejected : List (Move Request Outcome) :=
  [.enter (.acceptAndTransfer 1), .enter (.rejectRequest 1), .run 0 quiet, .run 0 quiet,
    .run 0 quiet]

theorem accepted_request_moves_money_once :
    ∃ c, (program transferRequests).Reaches StillOpen (Program.idle askedForThirty) c ∧
      c.store.moves = 1 ∧ MovesOnce transferRequests StillOpen c := by
  have hRuns : (((program transferRequests).guarded StillOpen).schedule acceptedThenRejected
      (Program.idle askedForThirty)).map (fun c => c.store.moves) = some 1 := by decide +kernel
  obtain ⟨c, hRun, hMoves⟩ := Option.map_eq_some_iff.mp hRuns
  have hReach : (program transferRequests).Reaches StillOpen (Program.idle askedForThirty) c :=
    Program.reaches_of_guarded (Program.reaches_of_schedule hRun)
  exact ⟨c, hReach, hMoves, request_moves_money_once transferRequests rfl rfl hReach⟩

end FarmBackend.MoneyRequests
