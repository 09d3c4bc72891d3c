import FarmBackend.Interleaving
import FarmBackend.Rows

/-!
# The API keys of a business (`business-api/api-keys.service.ts`)

Each database call on the keys of one business is a step, and the two writes of `rotate` are one
transaction. What `resolve` and `verifyPin` answer is asked of the outcome of a step, and so is what the
caller's role may grant. Names, prefixes and hashes of keys are left out.
-/

namespace FarmBackend.ApiKeys
open Interleaving Rows

set_option autoImplicit false

abbrev Time := ℕ
abbrev KeyId := ℕ

inductive Mode where
  | sandbox
  | live
  deriving DecidableEq, Repr

inductive KeyStatus where
  | active
  | revoked
  deriving DecidableEq, Repr

structure ApiKey where
  mode : Mode
  permissions : List String
  status : KeyStatus
  expiresAt : Option Time
  rotatedFromId : Option KeyId
  deriving DecidableEq

def MAX_ACTIVE_KEYS_PER_MODE : ℕ := 10

def API_SCOPES : List String :=
  ["account:read", "transactions:read", "payments:read", "payment_links:read",
    "payment_links:write", "invoices:read", "invoices:write", "escrow:read", "escrow:write",
    "payouts:read", "payouts:write", "projects:read", "payment_intents:read",
    "payment_intents:write", "refunds:write", "agent_payments:read", "agent_payments:write",
    "x402:facilitate"]

/-- The scopes that only read. -/
def DEFAULT_SCOPES : List String := API_SCOPES.filter fun s => ":read".toList.isSuffixOf s.toList

structure CreateApiKeyDto where
  mode : Mode
  scopes : List String
  expiresAt : Option Time

/-- The keys with their ids. `revoked` is history: the keys whose revocation has returned. -/
structure Store where
  keys : List ApiKey
  revoked : List KeyId
  deriving DecidableEq

/-- `grants` says which scopes the caller's role may grant. -/
structure Outcome where
  now : Time
  allowed : Bool
  pin : Bool
  grants : String → Bool

inductive Request where
  | create (dto : CreateApiKeyDto)
  | rotate (id : KeyId)
  | revoke (id : KeyId)

/-- A running call, named after its next step. -/
inductive Call where
  | create (dto : CreateApiKeyDto)
  | count (key : ApiKey)
  | insert (key : ApiKey)
  | rotate (id : KeyId)
  | findRotated (id : KeyId) (grants : String → Bool)
  | rotateTx (id : KeyId) (key : ApiKey)
  | revoke (id : KeyId)
  | findRevoked (id : KeyId)
  | updateRevoked (id : KeyId)
  | returned (id : KeyId)
  | done

/-- No scopes are the default ones; one that is unknown or that the role cannot grant throws. -/
def checkScopes (grants : String → Bool) (scopes : List String) : Option (List String) :=
  let list := if scopes.isEmpty then DEFAULT_SCOPES else scopes
  if ∀ s ∈ list, s ∈ API_SCOPES ∧ grants s = true then some list.eraseDups else none

def ApiKey.revoke (k : ApiKey) : ApiKey := { k with status := .revoked }

namespace Store

def activeKeys (s : Store) (mode : Mode) : ℕ :=
  s.keys.countP fun k => k.mode == mode && k.status == .active

def insert (s : Store) (key : ApiKey) : Store := { s with keys := s.keys ++ [key] }

def revoke (s : Store) (id : KeyId) : Store := { s with keys := s.keys.modify id ApiKey.revoke }

end Store

def step (o : Outcome) (s : Store) : Call → Option (Store × Call)
  | .create dto => do
    let scopes ← checkScopes o.grants dto.scopes
    if o.allowed = true ∧ ∀ expires ∈ dto.expiresAt, o.now < expires then
      some (s, .count ⟨dto.mode, scopes, .active, dto.expiresAt, none⟩)
    else none
  | .count key =>
    if MAX_ACTIVE_KEYS_PER_MODE ≤ s.activeKeys key.mode then none else some (s, .insert key)
  | .insert key => some (s.insert key, .done)
  | .rotate id => if o.allowed && o.pin then some (s, .findRotated id o.grants) else none
  | .findRotated id grants => do
    let old ← s.keys[id]?
    if old.status = .active then do
      let scopes ← checkScopes grants old.permissions
      return (s, .rotateTx id ⟨old.mode, scopes, .active, old.expiresAt, some id⟩)
    else none
  | .rotateTx id key => some ((s.revoke id).insert key, .done)
  | .revoke id => if o.allowed && o.pin then some (s, .findRevoked id) else none
  | .findRevoked id => do
    let k ← s.keys[id]?
    if k.status = .active then some (s, .updateRevoked id) else none
  | .updateRevoked id => some (s.revoke id, .returned id)
  | .returned id => some ({ s with revoked := id :: s.revoked }, .done)
  | .done => none

def program : Program Store Call Request Outcome where
  enter
    | .create dto => .create dto
    | .rotate id => .rotate id
    | .revoke id => .revoke id
  step := step

/-! The claim and its condition. -/

/-- `heir` was made by a rotation of `id`. -/
def Succeeds (s : Store) (id heir : KeyId) : Prop :=
  ∃ k, s.keys[heir]? = some k ∧ k.rotatedFromId = some id

def Store.isActive (s : Store) (id : KeyId) : Bool :=
  (s.keys[id]?).any fun k => k.status == .active

/-- What is revoked leaves nothing behind, a key has one successor, and no mode has more keys than
it may. -/
structure Controlled (s : Store) : Prop where
  dead : ∀ id ∈ s.revoked, ∀ heir, Relation.ReflTransGen (Succeeds s) id heir →
    s.isActive heir = false
  single : ∀ id heir other, Succeeds s id heir → Succeeds s id other → heir = other
  limit : ∀ mode, s.activeKeys mode ≤ MAX_ACTIVE_KEYS_PER_MODE

/-- What a call has checked still holds where it writes. -/
def Stands (_ : Outcome) (s : Store) : Call → Prop
  | .insert key => s.activeKeys key.mode < MAX_ACTIVE_KEYS_PER_MODE
  | .rotateTx id _ | .updateRevoked id => s.isActive id = true
  | _ => True

instance (o : Outcome) (s : Store) (call : Call) : Decidable (Stands o s call) :=
  match call with
  | .insert _ => inferInstanceAs (Decidable (_ < _))
  | .rotateTx _ _ | .updateRevoked _ => inferInstanceAs (Decidable (_ = true))
  | .create _ | .count _ | .rotate _ | .findRotated _ _ | .revoke _ | .findRevoked _ | .returned _
  | .done => .isTrue trivial

end FarmBackend.ApiKeys
