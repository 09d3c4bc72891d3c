import FarmBackend.Bcrypt
import FarmBackend.Interleaving
import FarmBackend.Rows

/-!
# Accounts (`auth/auth.service.ts`, `auth/auth.controller.ts`)

The operations that write a password hash, a linked Firebase user or a verified email. Each database
call is a step, with the hash computed at the step that stores it. What Firebase says of a token, and
whether a balance or a pending transfer forbids a deletion, is what the world answers.
-/

namespace FarmBackend.Accounts
open Interleaving Rows

set_option autoImplicit false

abbrev UserId := ℕ

/-- `trim` and `toLowerCase` are those of JavaScript's strings. -/
structure Env where
  bcrypt : Bcrypt
  sha256 : String → String
  trim : String → String
  toLowerCase : String → String

/-- A row of `users`. -/
structure User (env : Env) where
  username : String
  email : Option String
  firebaseUid : Option String
  phone : String
  passwordHash : env.bcrypt.Hash
  isActive : Option Bool
  isSuspended : Option Bool
  isDeleted : Option Bool
  emailVerified : Option Bool
  failedLoginAttempts : Option ℕ

/-- A row of `email_verification_tokens`. -/
structure EmailToken where
  userId : UserId
  email : String
  tokenHash : String
  expiresAt : ℕ
  usedAt : Option ℕ
deriving DecidableEq

structure Store (env : Env) where
  users : List (User env)
  tokens : List EmailToken

structure RegisterDto where
  username : String
  phone : String
  email : Option String
  password : String

structure ResetPasswordDto where
  email : Option String
  password : String
  confirmPassword : String

structure PasswordResetCompleteDto where
  firebaseIdToken : String
  password : String
  confirmPassword : String

structure ChangePasswordDto where
  currentPassword : String
  newPassword : String
  confirmPassword : String

structure DeleteAccountDto where
  password : String
  acknowledged : Bool
  confirmDelete : Bool

structure DecodedIdToken where
  uid : String
  email : Option String
  emailVerified : Option Bool
deriving DecidableEq

/-- The user of `changePassword` and of `deleteAccount` is that of the caller's session. -/
inductive Request where
  | register (dto : RegisterDto)
  | resetPassword (dto : ResetPasswordDto)
  | completePasswordReset (dto : PasswordResetCompleteDto)
  | firebaseLogin (firebaseToken : String)
  | verifyEmail (token : String)
  | changePassword (userId : UserId) (dto : ChangePasswordDto)
  | deleteAccount (userId : UserId) (dto : DeleteAccountDto)

/-- A running call, named after its next step. -/
inductive Call where
  | register (dto : RegisterDto)
  | createUser (dto : RegisterDto)
  | ensureFirebaseAccount (userId : UserId) (email : String)
  | linkNew (userId : UserId) (uid : String)
  | resetPassword (dto : ResetPasswordDto)
  | completePasswordReset (dto : PasswordResetCompleteDto)
  | setPassword (userId : UserId) (password : String)
  | firebaseLogin (firebaseToken : String)
  | link (userId : UserId) (uid : String)
  | touch (userId : UserId)
  | verifyEmail (token : String)
  | claimLink (id : ℕ) (row : EmailToken)
  | changePassword (userId : UserId) (dto : ChangePasswordDto)
  | deleteAccount (userId : UserId) (dto : DeleteAccountDto)
  | erase (userId : UserId)
  | done

/-- `decoded` is the answer of `verifyIdToken`, `firebaseUid` the Firebase user of an email, `found`
the row that a `findFirst` without an order gives, and `clear` says that neither a balance nor a
pending withdrawal or deposit stands against a deletion. -/
structure Outcome where
  now : ℕ
  salt : ℕ
  decoded : Option DecodedIdToken
  firebaseUid : Option String
  found : UserId
  clear : Bool

variable {env : Env}

def Env.normalize (env : Env) (text : String) : String := env.toLowerCase (env.trim text)

def Env.normalizeRegistrationPhone (env : Env) (phone : String) : String :=
  if (env.trim phone).startsWith "+" then env.trim phone else "+" ++ env.trim phone

/-- `/^[a-f0-9]{64}$/i`. -/
def isToken (token : String) : Bool :=
  token.length == 64 && token.toList.all fun c => c.isDigit || 'a' ≤ c.toLower && c.toLower ≤ 'f'

namespace Store

def update (userId : UserId) (f : User env → User env) (s : Store env) : Store env :=
  { s with users := s.users.modify userId f }

def findByEmail (email : String) (s : Store env) : Option UserId :=
  s.users.findIdx? fun user => user.email == some email

/-- What `register` looks for: the phone with and without its sign, the name or the email in any
case. -/
def Taken (dto : RegisterDto) (s : Store env) : Prop :=
  let phone := env.normalizeRegistrationPhone dto.phone
  ∃ user ∈ s.users, user.phone ∈ [phone, String.ofList (phone.toList.drop 1)] ∨
    env.toLowerCase user.username = env.normalize dto.username ∨
    ∃ email ∈ dto.email, ∃ other ∈ user.email, env.toLowerCase other = env.normalize email

instance (dto : RegisterDto) (s : Store env) : Decidable (s.Taken dto) :=
  inferInstanceAs (Decidable (∃ _ ∈ s.users, _ ∨ _))

/-- The unique indexes of `users`. -/
def Clashes (user : User env) (s : Store env) : Prop :=
  ∃ other ∈ s.users, other.username = user.username ∨ other.phone = user.phone ∨
    ∃ email ∈ user.email, other.email = some email

instance (user : User env) (s : Store env) : Decidable (s.Clashes user) :=
  inferInstanceAs (Decidable (∃ _ ∈ s.users, _ ∨ _))

def UidTaken (userId : UserId) (uid : String) (s : Store env) : Prop :=
  ∃ row ∈ s.users.zipIdx, row.2 ≠ userId ∧ row.1.firebaseUid = some uid

instance (userId : UserId) (uid : String) (s : Store env) : Decidable (s.UidTaken userId uid) :=
  inferInstanceAs (Decidable (∃ _ ∈ s.users.zipIdx, _ ∧ _))

end Store

namespace User

def setPassword (o : Outcome) (password : String) (user : User env) : User env :=
  { user with passwordHash := env.bcrypt.hash o.salt password, failedLoginAttempts := some 0 }

def link (uid : String) (user : User env) : User env :=
  { user with firebaseUid := some uid, emailVerified := some true }

/-- The columns that `deleteAccount` blanks. -/
def erase (o : Outcome) (userId : UserId) (user : User env) : User env :=
  { user with
    isActive := some false
    isDeleted := some true
    email := none
    phone := "deleted_" ++ String.ofList ((toString userId).toList.take 12)
    username := "deleted_" ++ toString userId
    passwordHash := env.bcrypt.hash o.salt
      ("deleted-" ++ toString userId ++ "-" ++ toString o.now) }

/-- What `firebaseLogin` looks for. -/
def MatchesLogin (decoded : DecodedIdToken) (email : String) (user : User env) : Prop :=
  (user.firebaseUid = some decoded.uid ∨ user.email = some email) ∧ user.isDeleted = some false

instance (decoded : DecodedIdToken) (email : String) (user : User env) :
    Decidable (user.MatchesLogin decoded email) := inferInstanceAs (Decidable (_ ∧ _))

end User

def newUser (o : Outcome) (dto : RegisterDto) : User env :=
  { username := env.normalize dto.username
    email := dto.email.map env.normalize
    firebaseUid := none
    phone := env.normalizeRegistrationPhone dto.phone
    passwordHash := env.bcrypt.hash o.salt dto.password
    isActive := some true
    isSuspended := some false
    isDeleted := some false
    emailVerified := some false
    failedLoginAttempts := some 0 }

def enter : Request → Call
  | .register dto => .register dto
  | .resetPassword dto => .resetPassword dto
  | .completePasswordReset dto => .completePasswordReset dto
  | .firebaseLogin firebaseToken => .firebaseLogin firebaseToken
  | .verifyEmail token => .verifyEmail token
  | .changePassword userId dto => .changePassword userId dto
  | .deleteAccount userId dto => .deleteAccount userId dto

/-- The transaction of `verifyEmail`; it is rolled back when the token or the account has changed. -/
def claimLink (now id : ℕ) (row : EmailToken) (s : Store env) : Option (Store env) := do
  let current ← s.tokens[id]?
  let user ← s.users[row.userId]?
  if current.usedAt = none ∧ now < current.expiresAt ∧ user.email = some row.email then
    return { (s.update row.userId fun user => { user with emailVerified := some true }) with
      tokens := s.tokens.modify id fun token => { token with usedAt := some now } }
  else none

def step (o : Outcome) (s : Store env) : Call → Option (Store env × Call)
  | .register dto => if s.Taken dto then none else some (s, .createUser dto)
  | .createUser dto =>
    if s.Clashes (newUser o dto) then none
    else some ({ s with users := s.users ++ [newUser o dto] },
      match dto.email with
      | none => .done
      | some email => .ensureFirebaseAccount s.users.length (env.normalize email))
  | .ensureFirebaseAccount userId email => do
    let known := (s.findByEmail (env.normalize email)).bind fun id =>
      s.users[id]?.bind (·.firebaseUid)
    let uid ← known.or o.firebaseUid
    return (s, .linkNew userId uid)
  | .linkNew userId uid =>
    if s.UidTaken userId uid then none
    else some (s.update userId fun user => { user with firebaseUid := some uid }, .done)
  | .resetPassword dto =>
    if dto.password = "" ∨ dto.confirmPassword = "" ∨ dto.password ≠ dto.confirmPassword then none
    else
      match dto.email.filter (· ≠ "") with
      | none => some (s, .done)
      | some email => (s.findByEmail (env.toLowerCase email)).map fun userId =>
        (s, .setPassword userId dto.password)
  | .completePasswordReset dto =>
    if dto.password ≠ dto.confirmPassword ∨ dto.firebaseIdToken = "" then none
    else do
      let decoded ← o.decoded
      let userId ← s.findByEmail (decoded.email.getD "")
      return (s, .setPassword userId dto.password)
  | .setPassword userId password => some (s.update userId (·.setPassword o password), .done)
  | .firebaseLogin firebaseToken =>
    if firebaseToken = "" then none
    else do
      let decoded ← o.decoded
      let email ← (decoded.email.map env.normalize).filter (· ≠ "")
      let user ← s.users[o.found]?
      if user.MatchesLogin decoded email ∧ user.isSuspended ≠ some true ∧
          user.isActive = some true then
        return (s, if user.firebaseUid = some decoded.uid then .touch o.found
          else .link o.found decoded.uid)
      else none
  | .link userId uid =>
    if s.UidTaken userId uid then none else some (s.update userId (·.link uid), .touch userId)
  | .touch userId =>
    some (s.update userId fun user => { user with failedLoginAttempts := some 0 }, .done)
  | .verifyEmail token =>
    if isToken token then do
      let id ← s.tokens.findIdx? fun row => row.tokenHash == env.sha256 (env.toLowerCase token)
      let row ← s.tokens[id]?
      if row.usedAt = none ∧ o.now < row.expiresAt then return (s, .claimLink id row) else none
    else none
  | .claimLink id row => (claimLink o.now id row s).map fun s' => (s', .done)
  | .changePassword userId dto => do
    let user ← s.users[userId]?
    if dto.newPassword = dto.confirmPassword ∧ dto.newPassword ≠ dto.currentPassword ∧
        env.bcrypt.compare dto.currentPassword user.passwordHash then
      return (s, .setPassword userId dto.newPassword)
    else none
  | .deleteAccount userId dto => do
    let user ← s.users[userId]?
    if dto.password ≠ "" ∧ dto.acknowledged ∧ dto.confirmDelete ∧
        env.bcrypt.compare dto.password user.passwordHash ∧ o.clear then
      return (s, .erase userId)
    else none
  | .erase userId => some (s.update userId (·.erase o userId), .done)
  | .done => none

def program (env : Env) : Program (Store env) Call Request Outcome := ⟨enter, step⟩

end FarmBackend.Accounts
