import FarmBackend.BusinessDrafts
import FarmBackend.Rows

/-!
# The team of a business

`BusinessTeamService` adds, changes and removes members, each in several statements with no
transaction around them. Which business and role a caller acts with is read at the start. A member
that has left keeps its row, inactive.
-/

namespace FarmBackend.BusinessTeams
open BusinessDrafts Interleaving Rows

set_option autoImplicit false

abbrev UserId := ℕ
abbrev BusinessId := ℕ
abbrev MemberId := ℕ

inductive BusinessRole where
  | owner
  | admin
  | finance
  | accountant
  | operations
  | developer
deriving DecidableEq, Repr

def BUSINESS_ROLES : List BusinessRole :=
  [.owner, .admin, .finance, .accountant, .operations, .developer]

inductive BusinessPermission where
  | dashboardRead
  | walletRead
  | teamRead
  | teamManage
  | transactionsRead
  | customersRead
  | customersManage
  | invoicesRead
  | invoicesManage
  | linksRead
  | linksManage
  | payoutsRead
  | payoutsCreate
  | escrowRead
  | escrowManage
  | analyticsRead
  | profileRead
  | profileManage
  | developersRead
  | developersManage
  | projectsRead
  | projectsManage
deriving DecidableEq, Repr

def PERMISSION_MATRIX : BusinessPermission → List BusinessRole
  | .dashboardRead => BUSINESS_ROLES
  | .walletRead => [.owner, .admin, .finance, .accountant]
  | .teamRead => BUSINESS_ROLES
  | .teamManage => [.owner, .admin]
  | .transactionsRead => [.owner, .admin, .finance, .accountant, .operations]
  | .customersRead => [.owner, .admin, .finance, .accountant, .operations]
  | .customersManage => [.owner, .admin, .finance, .operations]
  | .invoicesRead => [.owner, .admin, .finance, .accountant, .operations]
  | .invoicesManage => [.owner, .admin, .finance]
  | .linksRead => BUSINESS_ROLES
  | .linksManage => [.owner, .admin, .finance, .operations]
  | .payoutsRead => [.owner, .admin, .finance, .accountant]
  | .payoutsCreate => [.owner, .finance]
  | .escrowRead => [.owner, .admin, .finance, .operations]
  | .escrowManage => [.owner, .admin, .operations]
  | .analyticsRead => BUSINESS_ROLES
  | .profileRead => BUSINESS_ROLES
  | .profileManage => [.owner, .admin]
  | .developersRead => [.owner, .admin, .developer]
  | .developersManage => [.owner, .admin, .developer]
  | .projectsRead => [.owner, .admin, .finance, .accountant, .operations]
  | .projectsManage => [.owner, .admin]

def can (role : BusinessRole) (perm : BusinessPermission) : Bool :=
  (PERMISSION_MATRIX perm).contains role

/-- Roles an actor may assign. Only the owner can create admins. -/
def assignableRoles : BusinessRole → List BusinessRole
  | .owner => [.admin, .finance, .accountant, .operations, .developer]
  | .admin => [.finance, .accountant, .operations, .developer]
  | _ => []

theorem not_owner_of_assignable {actor role : BusinessRole} (h : role ∈ assignableRoles actor) :
    role ≠ .owner := by
  rintro rfl
  cases actor <;> simp [assignableRoles] at h

/-- Only the owner can create admins. -/
theorem owner_of_admin_assignable {actor : BusinessRole}
    (h : BusinessRole.admin ∈ assignableRoles actor) : actor = .owner := by
  cases actor <;> simp [assignableRoles] at h ⊢

theorem manager_of_can {role : BusinessRole} (h : can role .teamManage = true) :
    role = .owner ∨ role = .admin := by
  cases role <;> simp [can, PERMISSION_MATRIX] at h ⊢

/-- Who may manage the team is who has a role to give. -/
theorem can_teamManage_iff (role : BusinessRole) :
    can role .teamManage = true ↔ assignableRoles role ≠ [] := by
  cases role <;> simp [can, PERMISSION_MATRIX, assignableRoles]

theorem can_owner (perm : BusinessPermission) : can .owner perm = true := by
  cases perm <;> rfl

/-- A row of `businesses`, with what the team service reads of it. -/
structure Business where
  ownerUserId : UserId
  status : BusinessStatus
deriving DecidableEq

/-- A row of `business_members`. -/
structure Member where
  businessId : BusinessId
  userId : UserId
  role : BusinessRole
  isActive : Bool
  invitedBy : Option UserId
deriving DecidableEq

structure Store where
  businesses : List Business
  members : List Member
deriving DecidableEq

namespace Store

def owned (s : Store) (userId : UserId) : Option (Business × BusinessId) :=
  s.businesses.zipIdx.find? fun b => b.1.ownerUserId = userId

def Approved (s : Store) (businessId : BusinessId) : Prop :=
  ∃ b ∈ s.businesses[businessId]?, b.status = .approved

instance (s : Store) (businessId : BusinessId) : Decidable (s.Approved businessId) := by
  unfold Approved
  infer_instance

/-- The oldest active membership in an approved business. -/
def membership (s : Store) (userId : UserId) : Option Member :=
  s.members.find? fun m => m.userId = userId ∧ m.isActive = true ∧ s.Approved m.businessId

def existing (s : Store) (businessId : BusinessId) (userId : UserId) : Option (Member × MemberId) :=
  s.members.zipIdx.find? fun m => m.1.businessId = businessId ∧ m.1.userId = userId

def memberOf (s : Store) (businessId : BusinessId) (memberId : MemberId) : Option Member :=
  s.members[memberId]?.bind fun m =>
    if m.businessId = businessId ∧ m.isActive = true then some m else none

def membersUpdate (s : Store) (id : MemberId) (f : Member → Member) : Store :=
  { s with members := s.members.modify id f }

end Store

structure BusinessActor where
  userId : UserId
  role : BusinessRole
  businessId : BusinessId
  ownerUserId : UserId
deriving DecidableEq

inductive Task where
  | add (role : BusinessRole)
  | update (memberId : MemberId) (role : BusinessRole)
  | remove (memberId : MemberId)
deriving DecidableEq

/-- `setStatus` is any write of the status by the application service. -/
inductive Request where
  | team (userId : UserId) (task : Task)
  | upgradeFromMerchant (userId : UserId)
  | setStatus (businessId : BusinessId) (status : BusinessStatus)

inductive Call where
  | resolve (userId : UserId) (task : Task)
  | membership (userId : UserId) (task : Task)
  | addPin (a : BusinessActor) (role : BusinessRole)
  | addTarget (a : BusinessActor) (role : BusinessRole)
  | addExisting (a : BusinessActor) (target : UserId) (role : BusinessRole)
  | reactivate (a : BusinessActor) (id : MemberId) (role : BusinessRole)
  | insert (a : BusinessActor) (target : UserId) (role : BusinessRole)
  | findUpdated (a : BusinessActor) (memberId : MemberId) (role : BusinessRole)
  | updatePin (a : BusinessActor) (id : MemberId) (role : BusinessRole)
  | updateRow (a : BusinessActor) (id : MemberId) (role : BusinessRole)
  | findRemoved (a : BusinessActor) (memberId : MemberId)
  | removePin (a : BusinessActor) (id : MemberId)
  | removeRow (a : BusinessActor) (id : MemberId)
  | upgradeFromMerchant (userId : UserId)
  | setStatus (businessId : BusinessId) (status : BusinessStatus)
  | done
deriving DecidableEq

/-- Whether `verifyPin` accepts the PIN, and the user that the identifier finds. -/
structure Outcome where
  pin : Bool
  found : Option UserId

def enter : Request → Call
  | .team userId task => .resolve userId task
  | .upgradeFromMerchant userId => .upgradeFromMerchant userId
  | .setStatus businessId status => .setStatus businessId status

/-- After `resolve`: its permission check, and what the method does before its next statement. -/
def start (a : BusinessActor) (task : Task) : Option Call :=
  if can a.role .teamManage then
    match task with
    | .add role => if role ∈ assignableRoles a.role then some (.addPin a role) else none
    | .update memberId role => some (.findUpdated a memberId role)
    | .remove memberId => some (.findRemoved a memberId)
  else none

def Store.resolveOwned (s : Store) (userId : UserId) (task : Task) : Option Call :=
  match s.owned userId with
  | some (b, id) =>
    if b.status = .approved then start ⟨userId, .owner, id, b.ownerUserId⟩ task
    else some (.membership userId task)
  | none => some (.membership userId task)

def Store.resolveMembership (s : Store) (userId : UserId) (task : Task) : Option Call :=
  (s.membership userId).bind fun m =>
    s.businesses[m.businessId]?.bind fun b =>
      start ⟨userId, m.role, m.businessId, b.ownerUserId⟩ task

/-- `findUnique` of the target's row, and which write follows. -/
def Store.addExisting (s : Store) (a : BusinessActor) (target : UserId) (role : BusinessRole) :
    Option Call :=
  match s.existing a.businessId target with
  | some (m, id) => if m.isActive = true then none else some (.reactivate a id role)
  | none => some (.insert a target role)

def Store.findUpdated (s : Store) (a : BusinessActor) (memberId : MemberId) (role : BusinessRole) :
    Option Call :=
  (s.memberOf a.businessId memberId).bind fun m =>
    if m.role ∈ assignableRoles a.role ∧ role ∈ assignableRoles a.role ∧ m.userId ≠ a.userId then
      some (.updatePin a memberId role)
    else none

def Store.findRemoved (s : Store) (a : BusinessActor) (memberId : MemberId) : Option Call :=
  (s.memberOf a.businessId memberId).bind fun m =>
    if m.userId ≠ a.userId ∧ m.role ∈ assignableRoles a.role then some (.removePin a memberId)
    else none

/-- `create`, which the unique index on business and user may refuse. -/
def Store.membersCreate (s : Store) (new : Member) : Option Store :=
  if s.members.any fun m => m.businessId = new.businessId ∧ m.userId = new.userId then none
  else some { s with members := s.members ++ [new] }

/-- `create` of the draft, which the unique index on the owner may refuse. -/
def Store.businessesCreate (s : Store) (userId : UserId) : Option Store :=
  if s.businesses.any fun b => b.ownerUserId = userId then none
  else some { s with businesses := s.businesses ++ [⟨userId, .draft⟩] }

def step (o : Outcome) (s : Store) : Call → Option (Store × Call)
  | .resolve userId task => (s.resolveOwned userId task).map (s, ·)
  | .membership userId task => (s.resolveMembership userId task).map (s, ·)
  | .addPin a role => if o.pin = true then some (s, .addTarget a role) else none
  | .addTarget a role => o.found.bind fun target =>
      if target = a.ownerUserId then none else some (s, .addExisting a target role)
  | .addExisting a target role => (s.addExisting a target role).map (s, ·)
  | .reactivate a id role =>
    some (s.membersUpdate id fun m =>
      { m with isActive := true, role := role, invitedBy := some a.userId }, .done)
  | .insert a target role =>
    (s.membersCreate ⟨a.businessId, target, role, true, some a.userId⟩).map (·, .done)
  | .findUpdated a memberId role => (s.findUpdated a memberId role).map (s, ·)
  | .updatePin a id role => if o.pin = true then some (s, .updateRow a id role) else none
  | .updateRow _ id role => some (s.membersUpdate id fun m => { m with role := role }, .done)
  | .findRemoved a memberId => (s.findRemoved a memberId).map (s, ·)
  | .removePin a id => if o.pin = true then some (s, .removeRow a id) else none
  | .removeRow _ id => some (s.membersUpdate id fun m => { m with isActive := false }, .done)
  | .upgradeFromMerchant userId => (s.businessesCreate userId).map (·, .done)
  | .setStatus businessId status =>
    some ({ s with businesses := s.businesses.modify businessId fun b => { b with status := status } },
      .done)
  | .done => none

def program : Program Store Call Request Outcome := ⟨enter, step⟩

end FarmBackend.BusinessTeams
