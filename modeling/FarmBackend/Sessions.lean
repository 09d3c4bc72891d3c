import FarmBackend.Base64Url
import FarmBackend.Bcrypt
import FarmBackend.Rows
import FarmBackend.Serial
import Mathlib.Data.List.Sort

/-!
# Refresh sessions (`auth/auth.service.ts`, `auth/auth.controller.ts`)

`AuthController.refresh` only decodes the token; `AuthService.refresh` looks for it among the hashes
of the user's active sessions, claims the session it finds, and inserts a new one. Each database
call is a step. Sessions are addressed by position.
-/

namespace FarmBackend.Sessions
open Interleaving Rows

set_option autoImplicit false

abbrev UserId := String

abbrev SessionId := ℕ

/-- `sign` is the signature under `JWT_REFRESH_SECRET`. `subOf` reads the text of some bytes as JSON
and gives the user that its `sub` names, in the spelling of the `uuid` column; `none` also where
`JSON.parse` throws. -/
structure Env where
  bcrypt : Bcrypt
  sign : String → String
  subOf : List UInt8 → Option UserId
  refreshTtlDays : ℕ

structure Claims where
  sub : UserId
  role : String
  walletId : Option String
  jti : String
  iat : ℕ
  exp : ℕ

def beginning (sub : UserId) : String := "\x7b\"sub\":\"" ++ sub

/-- `JSON.stringify`; `wallet_id` is left out where it is undefined. -/
def Claims.text (c : Claims) : String :=
  beginning c.sub ++ ("\",\"role\":\"" ++ c.role ++ "\"" ++
    c.walletId.elim "" (fun walletId => ",\"wallet_id\":\"" ++ walletId ++ "\"") ++
    ",\"jti\":\"" ++ c.jti ++ "\",\"iat\":" ++ toString c.iat ++ ",\"exp\":" ++ toString c.exp ++
    "\x7d")

def HEADER : String := "\x7b\"alg\":\"HS256\",\"typ\":\"JWT\"\x7d"

def encodePart (text : String) : String := String.ofList (Base64Url.encode (Bcrypt.bytes text))

section Tokens
variable (env : Env)

def signAsync (c : Claims) : String :=
  let unsigned := encodePart HEADER ++ "." ++ encodePart c.text
  unsigned ++ "." ++ env.sign unsigned

def decodeJwtPayload (token : String) : Option UserId :=
  (token.toList.splitOn '.')[1]?.bind fun payload => env.subOf (Base64Url.decode payload)

end Tokens

structure Device where
  ipAddress : Option String
  userAgent : Option String
  deviceName : Option String
  deviceOs : Option String
deriving DecidableEq

structure Profile where
  role : Option String
  walletId : Option String

/-- A row of `user_sessions`. The last two are history: the token that was hashed, and the sessions
this one was obtained from by refreshing. -/
structure Session (env : Env) where
  userId : Option UserId
  refreshToken : env.bcrypt.Hash
  jwtId : Option String
  device : Device
  isRevoked : Option Bool
  usedAt : Option ℕ
  expiresAt : Option ℕ
  createdAt : Option ℕ
  token : String
  ancestors : List SessionId

structure Store (env : Env) where
  profiles : UserId → Option Profile
  sessions : List (Session env)

structure Outcome where
  now : ℕ
  jti : String
  salt : ℕ

structure RefreshTokenDto where
  refreshToken : String
  ip : String

/-- A running call, named after its next step. -/
inductive Call (env : Env) where
  | find (userId : UserId) (rawRefreshToken ip : String)
  | claim (userId : UserId) (id : SessionId) (session : Session env) (profile : Option Profile)
      (ip : String)
  | lost (userId : UserId) (id : SessionId)
  | theft (userId : UserId)
  | issue (userId : UserId) (id : SessionId) (session : Session env) (profile : Option Profile)
      (ip : String)
  | done

def REFRESH_RACE_GRACE_MS : ℕ := 30000

variable {env : Env}

namespace Session

def Unrevoked (row : Session env) : Prop := row.isRevoked ≠ some true

instance (row : Session env) : Decidable row.Unrevoked := inferInstanceAs (Decidable (_ ≠ _))

/-- What `findMany` selects. -/
def Active (userId : UserId) (now : ℕ) (row : Session env) : Prop :=
  row.userId = some userId ∧ (∃ t ∈ row.expiresAt, now < t) ∧ row.Unrevoked

instance (userId : UserId) (now : ℕ) (row : Session env) : Decidable (row.Active userId now) :=
  inferInstanceAs (Decidable (_ ∧ _ ∧ _))

/-- What the claiming `updateMany` selects. -/
def Claimable (row : Session env) : Prop := row.isRevoked = some false ∧ row.usedAt = none

instance (row : Session env) : Decidable row.Claimable := inferInstanceAs (Decidable (_ ∧ _))

/-- `created_at: 'desc'`, `NULL` first. -/
def NotOlder (row other : Session env) : Prop :=
  ∀ t ∈ row.createdAt, ∃ t' ∈ other.createdAt, t' ≤ t

instance (row other : Session env) : Decidable (row.NotOlder other) :=
  inferInstanceAs (Decidable (∀ t ∈ row.createdAt, ∃ t' ∈ other.createdAt, t' ≤ t))

def exchange (now : ℕ) (row : Session env) : Session env :=
  { row with usedAt := some now, isRevoked := some true }

def revoke (row : Session env) : Session env := { row with isRevoked := some true }

end Session

namespace Store

def activeSessions (userId : UserId) (now : ℕ) (s : Store env) : List (Session env × SessionId) :=
  (s.sessions.zipIdx.filter fun row => row.1.Active userId now).insertionSort
    fun row other => row.1.NotOlder other.1

def exchange (id : SessionId) (now : ℕ) (s : Store env) : Store env :=
  { s with sessions := s.sessions.modify id (·.exchange now) }

/-- `updateMany` with `is_revoked: true`. -/
def revokeWhere (p : Session env → Prop) [DecidablePred p] (s : Store env) : Store env :=
  { s with sessions := s.sessions.map fun row => if p row then row.revoke else row }

def create (row : Session env) (s : Store env) : Store env :=
  { s with sessions := s.sessions ++ [row] }

end Store

def issueTokens (env : Env) (o : Outcome) (userId : UserId) (role : String)
    (walletId : Option String) : Claims :=
  ⟨userId, role, walletId, o.jti, o.now / 1000, o.now / 1000 + env.refreshTtlDays * 24 * 60 * 60⟩

/-- The row that is inserted for new tokens; `login` and `verifyPhone` have no `ancestors`. -/
def newSession (o : Outcome) (userId : UserId) (role : String) (walletId : Option String)
    (device : Device) (ancestors : List SessionId) : Session env :=
  let claims := issueTokens env o userId role walletId
  let token := signAsync env claims
  { userId := some userId
    refreshToken := env.bcrypt.hash o.salt token
    jwtId := some claims.jti
    device := device
    isRevoked := some false
    usedAt := none
    expiresAt := some (o.now + env.refreshTtlDays * 24 * 60 * 60 * 1000)
    createdAt := some o.now
    token := token
    ancestors := ancestors }

/-- The row that `refresh` inserts for the session it has claimed. -/
def rotated (o : Outcome) (userId : UserId) (id : SessionId) (session : Session env)
    (profile : Option Profile) (ip : String) : Session env :=
  newSession o userId ((profile.bind (·.role)).getD "user") (profile.bind (·.walletId))
    { session.device with ipAddress := some ip } (id :: session.ancestors)

/-- What `handleTokenTheft` selects. -/
def OfVictim (userId : UserId) (row : Session env) : Prop :=
  row.userId = some userId ∧ row.isRevoked = some false

instance (userId : UserId) : DecidablePred (@OfVictim env userId) :=
  fun _ => inferInstanceAs (Decidable (_ ∧ _))

def enter (dto : RefreshTokenDto) : Call env :=
  match decodeJwtPayload env dto.refreshToken with
  | none => .done
  | some sub => .find sub dto.refreshToken dto.ip

def step (o : Outcome) (s : Store env) : Call env → Option (Store env × Call env)
  | .find userId rawRefreshToken ip => do
    let (session, id) ← (s.activeSessions userId o.now).find? fun candidate =>
      env.bcrypt.compare rawRefreshToken candidate.1.refreshToken
    if session.usedAt.isSome then return (s, .theft userId)
    else return (s, .claim userId id session (s.profiles userId) ip)
  | .claim userId id session profile ip =>
    if ∃ row ∈ s.sessions[id]?, row.Claimable then
      some (s.exchange id o.now, .issue userId id session profile ip)
    else some (s, .lost userId id)
  | .lost userId id =>
    let usedAt := (s.sessions[id]?.bind (·.usedAt)).getD 0
    if usedAt ≠ 0 ∧ o.now < usedAt + REFRESH_RACE_GRACE_MS then none
    else some (s, .theft userId)
  | .theft userId => some (s.revokeWhere (OfVictim userId), .done)
  | .issue userId id session profile ip =>
    some (s.create (rotated o userId id session profile ip), .done)
  | .done => none

def program (env : Env) : Program (Store env) (Call env) RefreshTokenDto Outcome := ⟨enter, step⟩

/-- The time at which the sessions of a call are looked up. -/
def LookedUpAt (now : ℕ) : Guard (Store env) (Call env) Outcome := fun o _ call =>
  match call with
  | .find _ _ _ => o.now = now
  | _ => True

instance (now : ℕ) : ∀ o s c, Decidable (@LookedUpAt env now o s c) := by
  intro o s c
  unfold LookedUpAt
  cases c <;> infer_instance

section Lookup
variable {s : Store env} {userId : UserId} {now : ℕ}

theorem mem_activeSessions {row : Session env} {id : SessionId} :
    (row, id) ∈ s.activeSessions userId now ↔
      s.sessions[id]? = some row ∧ row.Active userId now := by
  rw [Store.activeSessions, (List.perm_insertionSort _ _).mem_iff, List.mem_filter,
    List.mem_zipIdx_iff_getElem?]
  simp

theorem find_cases {o : Outcome} {rawRefreshToken ip : String} {s' : Store env} {call : Call env}
    (h : step o s (.find userId rawRefreshToken ip) = some (s', call)) :
    s' = s ∧ ∃ row id,
      ((s.activeSessions userId o.now).find? fun candidate =>
        env.bcrypt.compare rawRefreshToken candidate.1.refreshToken) = some (row, id) ∧
      (row.usedAt.isSome = true ∧ call = .theft userId ∨
        row.usedAt = none ∧ call = .claim userId id row (s.profiles userId) ip) := by
  simp only [step, Option.bind_eq_bind, Option.bind_eq_some_iff] at h
  obtain ⟨⟨row, id⟩, hFound, hCall⟩ := h
  cases hUsed : row.usedAt with
  | none =>
    simp only [hUsed, Option.isSome_none, Bool.false_eq_true, if_false, Option.pure_def,
      Option.some.injEq, Prod.mk.injEq] at hCall
    obtain ⟨rfl, rfl⟩ := hCall
    exact ⟨rfl, row, id, hFound, .inr ⟨hUsed, rfl⟩⟩
  | some t =>
    simp only [hUsed, Option.isSome_some, if_true, Option.pure_def, Option.some.injEq,
      Prod.mk.injEq] at hCall
    obtain ⟨rfl, rfl⟩ := hCall
    exact ⟨rfl, row, id, hFound, .inl ⟨by rw [hUsed]; rfl, rfl⟩⟩

theorem claim_cases {o : Outcome} {id : SessionId} {session : Session env}
    {profile : Option Profile} {ip : String} {s' : Store env} {call : Call env}
    (h : step o s (.claim userId id session profile ip) = some (s', call)) :
    (∃ row, s.sessions[id]? = some row ∧ row.Claimable ∧ s' = s.exchange id o.now ∧
      call = .issue userId id session profile ip) ∨ s' = s ∧ call = .lost userId id := by
  simp only [step] at h
  split at h
  · rename_i hClaimed
    obtain ⟨row, hRow, hClaimable⟩ := hClaimed
    cases h
    exact .inl ⟨row, hRow, hClaimable, rfl, rfl⟩
  · cases h
    exact .inr ⟨rfl, rfl⟩

theorem lost_cases {o : Outcome} {id : SessionId} {s' : Store env} {call : Call env}
    (h : step o s (.lost userId id) = some (s', call)) : s' = s ∧ call = .theft userId := by
  simp only [step, Option.ite_none_left_eq_some, Option.some.injEq, Prod.mk.injEq] at h
  obtain ⟨-, rfl, rfl⟩ := h
  exact ⟨rfl, rfl⟩

end Lookup

end FarmBackend.Sessions
