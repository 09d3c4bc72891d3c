import FarmBackend.Payouts

/-!
# Payouts under an idempotency key

The calls of `ApiPayoutsService.create`, from the API or the dashboard, for one business and one key:
its row of `business_api_payouts` and the withdrawals made for it. What the checks of
`createWithdrawal` make of the request is answered from outside, and others may write the withdrawals
and the wallets at any time. The audit entry and the webhook have a `catch` of their own.
-/

namespace FarmBackend.ApiPayouts
open Interleaving Wallets Withdrawals
open WithdrawCalls (NewWithdrawal)

set_option autoImplicit false

structure ApiPayoutDto where
  amount : ℚ
  method : Method
  accountName : Option String
  accountNumber : Option String
  bankName : Option String
  phoneNumber : Option String
  cryptoCurrency : Option String
  cryptoAddress : Option String
  network : Option String
  extraId : Option String
  deriving DecidableEq

inductive Value where
  | number (value : ℚ)
  | method (value : Method)
  | text (value : String)
  deriving DecidableEq

/-- The fields in the order of their keys. -/
def ApiPayoutDto.fields (dto : ApiPayoutDto) : List (String × Option Value) :=
  [("account_name", dto.accountName.map .text), ("account_number", dto.accountNumber.map .text),
    ("amount", some (.number dto.amount)), ("bank_name", dto.bankName.map .text),
    ("crypto_address", dto.cryptoAddress.map .text),
    ("crypto_currency", dto.cryptoCurrency.map .text), ("extra_id", dto.extraId.map .text),
    ("method", some (.method dto.method)), ("network", dto.network.map .text),
    ("phone_number", dto.phoneNumber.map .text)]

/-- Those that are present. -/
def present (fields : List (String × Option Value)) : List (String × Value) :=
  fields.filterMap fun field => field.2.map fun value => (field.1, value)

def ApiPayoutDto.entries (dto : ApiPayoutDto) : List (String × Value) := present dto.fields

inductive RecordStatus where
  | processing
  | submitted
  | failed
  deriving DecidableEq

structure Record (Digest : Type) where
  requestHash : Digest
  status : RecordStatus

/-- The last three fields are history: the request that claimed the key, those that withdrawals were
made for, and those that were answered with an old response. -/
structure Store (Digest : Type) where
  record : Option (Record Digest)
  db : WithdrawDb
  claimed : Option ApiPayoutDto
  created : List ApiPayoutDto
  replayed : List ApiPayoutDto

/-- `new` is the withdrawal that `createWithdrawal` asks for, unless its checks throw; `written` says
that a transaction was committed although its await throws. -/
structure Outcome where
  new : Option NewWithdrawal
  limits : DailyLimits
  now : Time
  throws : Bool
  written : Bool

inductive Request where
  | create (dto : ApiPayoutDto)
  | others (db : WithdrawDb)

/-- A running call, named after its next step; `fail` is the `catch` of `create`. -/
inductive Call where
  | create (dto : ApiPayoutDto)
  | findExisting (dto : ApiPayoutDto)
  | retry (dto : ApiPayoutDto)
  | createWithdrawal (dto : ApiPayoutDto)
  | withdrawalTx (dto : ApiPayoutDto) (new : NewWithdrawal)
  | invalidateCaches
  | submit
  | fail
  | others (db : WithdrawDb)
  | done

variable {Digest : Type} [DecidableEq Digest] (digest : List (String × Value) → Digest)

/-- SHA-256 of the JSON of the entries. -/
def hash (dto : ApiPayoutDto) : Digest := digest dto.entries

def Store.setStatus (status : RecordStatus) (s : Store Digest) : Store Digest :=
  { s with record := s.record.map fun record => { record with status := status } }

def step (o : Outcome) (s : Store Digest) : Call → Option (Store Digest × Call)
  | .create dto =>
    match s.record with
    | none => some ({ s with record := some ⟨hash digest dto, .processing⟩, claimed := some dto },
        .createWithdrawal dto)
    | some _ => some (s, .findExisting dto)
  | .findExisting dto =>
    match s.record with
    | none => some (s, .done)
    | some record =>
      if record.requestHash ≠ hash digest dto then some (s, .done)
      else
        match record.status with
        | .submitted => some ({ s with replayed := s.replayed ++ [dto] }, .done)
        | .processing => some (s, .done)
        | .failed => some (s, .retry dto)
  | .retry dto =>
    if s.record.any (·.status == .failed) then
      some (s.setStatus .processing, .createWithdrawal dto)
    else some (s, .done)
  | .createWithdrawal dto =>
    some (s, match o.new with
      | none => .fail
      | some new => .withdrawalTx dto new)
  | .withdrawalTx dto new =>
    match s.db.lockFundsInTx new.walletId new.userId new.amount o.limits o.now with
    | none => some (s, .fail)
    | some db =>
      if o.throws = true ∧ o.written = false then some (s, .fail)
      else
        some ({ s with
          db := { db with rows := db.rows ++ [Payouts.newRow o.now new] }
          created := s.created ++ [dto] }, if o.throws then .fail else .invalidateCaches)
  | .invalidateCaches => some (s, if o.throws then .fail else .submit)
  | .submit =>
    if o.throws then some (if o.written then s.setStatus .submitted else s, .fail)
    else some (s.setStatus .submitted, .done)
  | .fail => some (s.setStatus .failed, .done)
  | .others db => some ({ s with db := db }, .done)
  | .done => none

def enter : Request → Call
  | .create dto => .create dto
  | .others db => .others db

def program : Program (Store Digest) Call Request Outcome := ⟨enter, step digest⟩

/-- The key has not been used. -/
def unused (db : WithdrawDb) : Store Digest := ⟨none, db, none, [], []⟩

/-- Two requests with one hash. -/
def Collides (dto other : ApiPayoutDto) : Prop :=
  dto.entries ≠ other.entries ∧ digest dto.entries = digest other.entries

/-- A request other than the one that claimed the key neither makes a withdrawal nor is answered
with its response. -/
structure Guarded (s : Store Digest) : Prop where
  created : ∀ dto ∈ s.created, ∀ claimed ∈ s.claimed, dto = claimed ∨ Collides digest dto claimed
  replayed : ∀ dto ∈ s.replayed, ∀ claimed ∈ s.claimed, dto = claimed ∨ Collides digest dto claimed

structure Consistent (s : Store Digest) : Prop extends Guarded digest s where
  once : s.created.length ≤ 1

/-- Once the withdrawal is committed nothing throws until the payout is recorded as submitted. -/
def Heeds (o : Outcome) (_ : Store Digest) : Call → Prop
  | .withdrawalTx _ _ => o.throws = true → o.written = false
  | .invalidateCaches | .submit => o.throws = false
  | _ => True

instance (o : Outcome) (s : Store Digest) (call : Call) : Decidable (Heeds o s call) :=
  match call with
  | .withdrawalTx _ _ => inferInstanceAs (Decidable (_ → _))
  | .invalidateCaches | .submit => inferInstanceAs (Decidable (_ = _))
  | .create _ | .findExisting _ | .retry _ | .createWithdrawal _ | .fail | .others _ | .done =>
    .isTrue trivial

end FarmBackend.ApiPayouts
