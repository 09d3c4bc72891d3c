import FarmBackend.BusinessTeams

/-!
# Who gives the roles of a team

However the calls of a team interleave, its rows stay those of one member each, never of the owner,
and a role comes from somebody who could give it: an admin only from the owner.
-/

namespace FarmBackend.BusinessTeams
open BusinessDrafts Interleaving Rows

set_option autoImplicit false

namespace Store

def Owns (s : Store) (businessId : BusinessId) (userId : UserId) : Prop :=
  ∃ b ∈ s.businesses[businessId]?, b.ownerUserId = userId

instance (s : Store) (businessId : BusinessId) (userId : UserId) :
    Decidable (s.Owns businessId userId) := by
  unfold Owns
  infer_instance

def IsRow (s : Store) (id : MemberId) (businessId : BusinessId) (userId : UserId) : Prop :=
  ∃ m ∈ s.members[id]?, m.businessId = businessId ∧ m.userId = userId

/-- The owner, and the active admins, of a business. -/
def Manages (s : Store) (businessId : BusinessId) (userId : UserId) : Prop :=
  s.Owns businessId userId ∨ ∃ m ∈ s.members,
    m.businessId = businessId ∧ m.userId = userId ∧ m.role = .admin ∧ m.isActive = true

instance (s : Store) (businessId : BusinessId) (userId : UserId) :
    Decidable (s.Manages businessId userId) := by
  unfold Manages
  infer_instance

def team (s : Store) (businessId : BusinessId) : List Member :=
  s.members.filter fun m => m.businessId = businessId

/-- One row for each member of a business, who is not its owner and does not have the owner's
role. -/
structure WellFormed (s : Store) : Prop where
  unique : ∀ (i j : MemberId) (m m' : Member), s.members[i]? = some m → s.members[j]? = some m' →
    m.businessId = m'.businessId → m.userId = m'.userId → i = j
  member : ∀ (id : MemberId) (m : Member), s.members[id]? = some m →
    m.role ≠ .owner ∧ ∃ owner, s.Owns m.businessId owner ∧ m.userId ≠ owner

end Store

/-- The user that a call is made by. -/
def Call.userId : Call → Option UserId
  | .resolve userId _ => some userId
  | .membership userId _ => some userId
  | .addPin a _ => some a.userId
  | .addTarget a _ => some a.userId
  | .addExisting a _ _ => some a.userId
  | .reactivate a _ _ => some a.userId
  | .insert a _ _ => some a.userId
  | .findUpdated a _ _ => some a.userId
  | .updatePin a _ _ => some a.userId
  | .updateRow a _ _ => some a.userId
  | .findRemoved a _ => some a.userId
  | .removePin a _ => some a.userId
  | .removeRow a _ => some a.userId
  | .upgradeFromMerchant userId => some userId
  | .setStatus _ _ => none
  | .done => none

/-- What the caller's business and role told when they were read; `P` is what else was true then. -/
structure Holds (P : BusinessActor → Prop) (s : Store) (a : BusinessActor) : Prop where
  owner : s.Owns a.businessId a.ownerUserId
  own : a.role = .owner → a.userId = a.ownerUserId
  resolved : P a

/-- A row of another member of the business that the caller acts for. -/
def Theirs (s : Store) (a : BusinessActor) (id : MemberId) : Prop :=
  ∃ userId, s.IsRow id a.businessId userId ∧ userId ≠ a.userId

/-- What a call has checked before it takes its next step. -/
def Knows (P : BusinessActor → Prop) (s : Store) : Call → Prop
  | .addPin a role => Holds P s a ∧ role ∈ assignableRoles a.role
  | .addTarget a role => Holds P s a ∧ role ∈ assignableRoles a.role
  | .addExisting a target role =>
    Holds P s a ∧ role ∈ assignableRoles a.role ∧ target ≠ a.ownerUserId
  | .reactivate a id role =>
    Holds P s a ∧ role ∈ assignableRoles a.role ∧ ∃ userId, s.IsRow id a.businessId userId
  | .insert a target role =>
    Holds P s a ∧ role ∈ assignableRoles a.role ∧ target ≠ a.ownerUserId
  | .findUpdated a _ _ => Holds P s a
  | .updatePin a id role => Holds P s a ∧ role ∈ assignableRoles a.role ∧ Theirs s a id
  | .updateRow a id role => Holds P s a ∧ role ∈ assignableRoles a.role ∧ Theirs s a id
  | .findRemoved a _ => Holds P s a
  | .removePin a id => Holds P s a ∧ Theirs s a id
  | .removeRow a id => Holds P s a ∧ Theirs s a id
  | _ => True

/-- All that a step can do to the tables. -/
inductive Writes (P : BusinessActor → Prop) (s : Store) (call : Call) : Store → Prop where
  | nothing : Writes P s call s
  | member (a : BusinessActor) (id : MemberId) (f : Member → Member) (hHolds : Holds P s a)
      (hCaller : call.userId = some a.userId) (hRow : ∃ userId, s.IsRow id a.businessId userId)
      (hKeys : ∀ m, (f m).businessId = m.businessId ∧ (f m).userId = m.userId)
      (hRole : ∀ m, (f m).role = m.role ∨ (f m).role ∈ assignableRoles a.role) :
      Writes P s call (s.membersUpdate id f)
  | newMember (a : BusinessActor) (target : UserId) (role : BusinessRole) (hHolds : Holds P s a)
      (hCaller : call.userId = some a.userId) (hRole : role ∈ assignableRoles a.role)
      (hTarget : target ≠ a.ownerUserId)
      (hNew : ∀ m ∈ s.members, ¬(m.businessId = a.businessId ∧ m.userId = target)) :
      Writes P s call
        { s with members := s.members ++ [⟨a.businessId, target, role, true, some a.userId⟩] }
  | businesses (rows : List Business)
      (hOwns : ∀ businessId userId, s.Owns businessId userId →
        Store.Owns ⟨rows, s.members⟩ businessId userId) :
      Writes P s call { s with businesses := rows }

section Lookups
variable {s : Store} {userId : UserId} {businessId : BusinessId}

theorem owned_eq_some {b : Business} {id : BusinessId} (h : s.owned userId = some (b, id)) :
    s.businesses[id]? = some b ∧ b.ownerUserId = userId := by
  have hMem := List.mem_of_find?_eq_some h
  have hOwner := List.find?_some h
  refine ⟨?_, by simpa using hOwner⟩
  exact List.mk_mem_zipIdx_iff_getElem?.mp hMem

theorem membership_eq_some {m : Member} (h : s.membership userId = some m) :
    m ∈ s.members ∧ m.userId = userId ∧ m.isActive = true := by
  have hMem := List.mem_of_find?_eq_some h
  have hFound := List.find?_some h
  simp only [decide_eq_true_eq] at hFound
  exact ⟨hMem, hFound.1, hFound.2.1⟩

theorem existing_eq_some {m : Member} {id : MemberId}
    (h : s.existing businessId userId = some (m, id)) :
    s.IsRow id businessId userId := by
  have hMem := List.mem_of_find?_eq_some h
  have hFound := List.find?_some h
  simp only [decide_eq_true_eq] at hFound
  exact ⟨m, List.mk_mem_zipIdx_iff_getElem?.mp hMem, hFound⟩

theorem memberOf_eq_some {m : Member} {id : MemberId} (h : s.memberOf businessId id = some m) :
    s.members[id]? = some m ∧ m.businessId = businessId := by
  simp only [Store.memberOf, Option.bind_eq_some_iff, Option.ite_none_right_eq_some,
    Option.some.injEq] at h
  obtain ⟨_, hRow, hHere, rfl⟩ := h
  exact ⟨hRow, hHere.1⟩

end Lookups

section Starting
variable {s : Store} {a : BusinessActor} {task : Task} {call : Call}

theorem start_cases (h : start a task = some call) :
    (a.role = .owner ∨ a.role = .admin) ∧
      ((∃ role, task = .add role ∧ role ∈ assignableRoles a.role ∧ call = .addPin a role) ∨
        (∃ id role, task = .update id role ∧ call = .findUpdated a id role) ∨
        ∃ id, task = .remove id ∧ call = .findRemoved a id) := by
  simp only [start, Option.ite_none_right_eq_some] at h
  obtain ⟨hCan, hTask⟩ := h
  refine ⟨manager_of_can hCan, ?_⟩
  cases task with
  | add role =>
    simp only [Option.ite_none_right_eq_some, Option.some.injEq] at hTask
    exact .inl ⟨role, rfl, hTask.1, hTask.2.symm⟩
  | update id role => exact .inr (.inl ⟨id, role, rfl, (Option.some.inj hTask).symm⟩)
  | remove id => exact .inr (.inr ⟨id, rfl, (Option.some.inj hTask).symm⟩)

theorem knows_of_start {P : BusinessActor → Prop} (hOwner : s.Owns a.businessId a.ownerUserId)
    (hOwn : a.role = .owner → a.userId = a.ownerUserId)
    (hP : a.role = .owner ∨ a.role = .admin → P a) (h : start a task = some call) :
    Knows P s call := by
  obtain ⟨hManager, ⟨_, -, hRole, rfl⟩ | ⟨_, _, -, rfl⟩ | ⟨_, -, rfl⟩⟩ := start_cases h
  · exact ⟨⟨hOwner, hOwn, hP hManager⟩, hRole⟩
  · exact ⟨hOwner, hOwn, hP hManager⟩
  · exact ⟨hOwner, hOwn, hP hManager⟩

end Starting

section Steps
variable {P : BusinessActor → Prop} {o : Outcome} {s s' : Store} {a : BusinessActor}
  {userId : UserId} {task : Task} {call call' : Call}

theorem knows_of_resolveOwned (hP : ∀ a, s.Manages a.businessId a.userId → P a)
    (h : s.resolveOwned userId task = some call) : Knows P s call := by
  unfold Store.resolveOwned at h
  split at h
  · rename_i b id hOwned
    obtain ⟨hRow, hOwner⟩ := owned_eq_some hOwned
    split at h
    · have hOwns : s.Owns id b.ownerUserId := ⟨b, hRow, rfl⟩
      refine knows_of_start hOwns (fun _ => hOwner.symm) ?_ h
      intro _
      exact hP _ (.inl ⟨b, hRow, hOwner⟩)
    · cases h
      trivial
  · cases h
    trivial

theorem knows_of_resolveMembership (hWell : s.WellFormed)
    (hP : ∀ a, s.Manages a.businessId a.userId → P a)
    (h : s.resolveMembership userId task = some call) : Knows P s call := by
  simp only [Store.resolveMembership, Option.bind_eq_some_iff] at h
  obtain ⟨m, hFound, b, hBusiness, hStart⟩ := h
  obtain ⟨hMem, hUser, hActive⟩ := membership_eq_some hFound
  obtain ⟨id, hRow⟩ := List.mem_iff_getElem?.mp hMem
  have hNotOwner : m.role ≠ .owner := (hWell.member id m hRow).1
  refine knows_of_start ⟨b, hBusiness, rfl⟩ (fun hRole => absurd hRole hNotOwner) ?_ hStart
  rintro (hRole | hRole)
  · exact absurd hRole hNotOwner
  · exact hP _ (.inr ⟨m, hMem, rfl, hUser, hRole, hActive⟩)

/-- What a reading step checks, the call knows afterwards. -/
theorem knows_of_step (hWell : s.WellFormed) (hP : ∀ a, s.Manages a.businessId a.userId → P a)
    (hKnows : Knows P s call) (h : step o s call = some (s', call')) : Knows P s' call' := by
  cases call with
  | resolve userId task =>
    simp only [step, Option.map_eq_some_iff, Prod.mk.injEq] at h
    obtain ⟨_, hResolve, rfl, rfl⟩ := h
    exact knows_of_resolveOwned hP hResolve
  | membership userId task =>
    simp only [step, Option.map_eq_some_iff, Prod.mk.injEq] at h
    obtain ⟨_, hResolve, rfl, rfl⟩ := h
    exact knows_of_resolveMembership hWell hP hResolve
  | addPin | updatePin | removePin =>
    simp only [step, Option.ite_none_right_eq_some, Option.some.injEq, Prod.mk.injEq] at h
    obtain ⟨-, rfl, rfl⟩ := h
    exact hKnows
  | addTarget a role =>
    simp only [step, Option.bind_eq_some_iff, Option.ite_none_left_eq_some, Option.some.injEq,
      Prod.mk.injEq] at h
    obtain ⟨target, -, hTarget, rfl, rfl⟩ := h
    exact ⟨hKnows.1, hKnows.2, hTarget⟩
  | addExisting a target role =>
    simp only [step, Option.map_eq_some_iff, Prod.mk.injEq] at h
    obtain ⟨_, hAdd, rfl, rfl⟩ := h
    unfold Store.addExisting at hAdd
    split at hAdd
    · rename_i m id hExisting
      simp only [Option.ite_none_left_eq_some, Option.some.injEq] at hAdd
      obtain ⟨-, rfl⟩ := hAdd
      exact ⟨hKnows.1, hKnows.2.1, target, existing_eq_some hExisting⟩
    · cases hAdd
      exact hKnows
  | findUpdated a memberId role =>
    simp only [step, Store.findUpdated, Option.map_eq_some_iff, Option.bind_eq_some_iff,
      Option.ite_none_right_eq_some, Option.some.injEq, Prod.mk.injEq] at h
    obtain ⟨_, ⟨m, hMember, ⟨-, hRole, hOther⟩, rfl⟩, rfl, rfl⟩ := h
    obtain ⟨hRow, hHere⟩ := memberOf_eq_some hMember
    exact ⟨hKnows, hRole, m.userId, ⟨m, hRow, hHere, rfl⟩, hOther⟩
  | findRemoved a memberId =>
    simp only [step, Store.findRemoved, Option.map_eq_some_iff, Option.bind_eq_some_iff,
      Option.ite_none_right_eq_some, Option.some.injEq, Prod.mk.injEq] at h
    obtain ⟨_, ⟨m, hMember, ⟨hOther, -⟩, rfl⟩, rfl, rfl⟩ := h
    obtain ⟨hRow, hHere⟩ := memberOf_eq_some hMember
    exact ⟨hKnows, m.userId, ⟨m, hRow, hHere, rfl⟩, hOther⟩
  -- The writes are last.
  | reactivate | updateRow | removeRow | setStatus =>
    cases h
    trivial
  | insert | upgradeFromMerchant =>
    simp only [step, Option.map_eq_some_iff, Prod.mk.injEq] at h
    obtain ⟨_, -, -, rfl⟩ := h
    trivial
  | done => cases h

theorem writes_of_step (hKnows : Knows P s call) (h : step o s call = some (s', call')) :
    Writes P s call s' := by
  cases call with
  | reactivate a id role =>
    cases h
    obtain ⟨hHolds, hRole, hRow⟩ := hKnows
    exact .member a id _ hHolds rfl hRow (fun _ => ⟨rfl, rfl⟩) fun _ => .inr hRole
  | updateRow a id role =>
    cases h
    obtain ⟨hHolds, hRole, userId, hRow, -⟩ := hKnows
    exact .member a id _ hHolds rfl ⟨userId, hRow⟩ (fun _ => ⟨rfl, rfl⟩) fun _ => .inr hRole
  | removeRow a id =>
    cases h
    obtain ⟨hHolds, userId, hRow, -⟩ := hKnows
    exact .member a id _ hHolds rfl ⟨userId, hRow⟩ (fun _ => ⟨rfl, rfl⟩) fun _ => .inl rfl
  | insert a target role =>
    simp only [step, Store.membersCreate, Option.map_eq_some_iff, Option.ite_none_left_eq_some,
      Option.some.injEq, Prod.mk.injEq, List.any_eq_true, decide_eq_true_eq, not_exists,
      not_and] at h
    obtain ⟨_, ⟨hNew, rfl⟩, rfl, -⟩ := h
    obtain ⟨hHolds, hRole, hTarget⟩ := hKnows
    refine .newMember a target role hHolds rfl hRole hTarget ?_
    intro m hMem hSame
    exact hNew m hMem hSame.1 hSame.2
  | setStatus businessId status =>
    cases h
    refine .businesses _ ?_
    intro id owner hOwns
    obtain ⟨b, hRow, hOwner⟩ := hOwns
    by_cases hId : businessId = id
    · subst hId
      exact ⟨_, getElem?_modify_self _ hRow, hOwner⟩
    · refine ⟨b, ?_, hOwner⟩
      rw [Option.mem_def, getElem?_modify_ne _ hId]
      exact hRow
  | upgradeFromMerchant userId =>
    simp only [step, Store.businessesCreate, Option.map_eq_some_iff, Option.ite_none_left_eq_some,
      Option.some.injEq, Prod.mk.injEq] at h
    obtain ⟨_, ⟨-, rfl⟩, rfl, -⟩ := h
    refine .businesses _ ?_
    intro id owner hOwns
    obtain ⟨b, hRow, hOwner⟩ := hOwns
    exact ⟨b, getElem?_append_of_some hRow, hOwner⟩
  | resolve | membership | addExisting | findUpdated | findRemoved =>
    simp only [step, Option.map_eq_some_iff, Prod.mk.injEq] at h
    obtain ⟨_, -, rfl, -⟩ := h
    exact .nothing
  | addPin | updatePin | removePin =>
    simp only [step, Option.ite_none_right_eq_some, Option.some.injEq, Prod.mk.injEq] at h
    obtain ⟨-, rfl, -⟩ := h
    exact .nothing
  | addTarget =>
    simp only [step, Option.bind_eq_some_iff, Option.ite_none_left_eq_some, Option.some.injEq,
      Prod.mk.injEq] at h
    obtain ⟨_, -, -, rfl, -⟩ := h
    exact .nothing
  | done => cases h

end Steps

section Writing
variable {P : BusinessActor → Prop} {s s' : Store} {call other : Call} {businessId : BusinessId}
  {userId : UserId} {id : MemberId} {m : Member}

theorem owner_unique {userId' : UserId} (h : s.Owns businessId userId)
    (h' : s.Owns businessId userId') : userId = userId' := by
  obtain ⟨b, hRow, rfl⟩ := h
  obtain ⟨b', hRow', rfl⟩ := h'
  rw [Option.mem_unique hRow hRow']

theorem owns_of_writes (h : Writes P s call s') (hOwns : s.Owns businessId userId) :
    s'.Owns businessId userId := by
  cases h with
  | nothing => exact hOwns
  | member => exact hOwns
  | newMember => exact hOwns
  | businesses rows hKeep => exact hKeep businessId userId hOwns

theorem isRow_of_writes (h : Writes P s call s') (hRow : s.IsRow id businessId userId) :
    s'.IsRow id businessId userId := by
  obtain ⟨m, hMem, hKeys⟩ := hRow
  cases h with
  | nothing => exact ⟨m, hMem, hKeys⟩
  | member a other f hHolds hCaller hOther hSame hRole =>
    by_cases hId : other = id
    · subst hId
      exact ⟨f m, getElem?_modify_self f hMem, (hSame m).1.trans hKeys.1,
        (hSame m).2.trans hKeys.2⟩
    · exact ⟨m, (getElem?_modify_ne f hId).trans hMem, hKeys⟩
  | newMember => exact ⟨m, getElem?_append_of_some hMem, hKeys⟩
  | businesses => exact ⟨m, hMem, hKeys⟩

/-- A step of one call leaves what the others know true. -/
theorem knows_of_writes (h : Writes P s call s') (hKnows : Knows P s other) :
    Knows P s' other := by
  have hHolds : ∀ a, Holds P s a → Holds P s' a := by
    intro a hA
    exact ⟨owns_of_writes h hA.owner, hA.own, hA.resolved⟩
  have hTheirs : ∀ a id, Theirs s a id → Theirs s' a id := by
    intro a id hRow
    obtain ⟨userId, hIs, hOther⟩ := hRow
    exact ⟨userId, isRow_of_writes h hIs, hOther⟩
  cases other with
  | addPin a role => exact ⟨hHolds a hKnows.1, hKnows.2⟩
  | addTarget a role => exact ⟨hHolds a hKnows.1, hKnows.2⟩
  | addExisting a target role => exact ⟨hHolds a hKnows.1, hKnows.2⟩
  | reactivate a id role =>
    obtain ⟨hA, hRole, userId, hRow⟩ := hKnows
    exact ⟨hHolds a hA, hRole, userId, isRow_of_writes h hRow⟩
  | insert a target role => exact ⟨hHolds a hKnows.1, hKnows.2⟩
  | findUpdated a memberId role => exact hHolds a hKnows
  | updatePin a id role => exact ⟨hHolds a hKnows.1, hKnows.2.1, hTheirs a id hKnows.2.2⟩
  | updateRow a id role => exact ⟨hHolds a hKnows.1, hKnows.2.1, hTheirs a id hKnows.2.2⟩
  | findRemoved a memberId => exact hHolds a hKnows
  | removePin a id => exact ⟨hHolds a hKnows.1, hTheirs a id hKnows.2⟩
  | removeRow a id => exact ⟨hHolds a hKnows.1, hTheirs a id hKnows.2⟩
  | resolve | membership | upgradeFromMerchant | setStatus | done => trivial

/-- Where a row of the updated table comes from. -/
theorem row_of_writes (h : Writes P s call s') (hRow : s'.members[id]? = some m) :
    (∃ old, s.members[id]? = some old ∧ m.businessId = old.businessId ∧ m.userId = old.userId ∧
        (m.role = old.role ∨ ∃ a, Holds P s a ∧ call.userId = some a.userId ∧
          m.businessId = a.businessId ∧ m.role ∈ assignableRoles a.role)) ∨
      ∃ a, Holds P s a ∧ call.userId = some a.userId ∧ m.businessId = a.businessId ∧
        m.role ∈ assignableRoles a.role ∧ m.userId ≠ a.ownerUserId ∧ id = s.members.length ∧
        ∀ old ∈ s.members, ¬(old.businessId = m.businessId ∧ old.userId = m.userId) := by
  cases h with
  | nothing => exact .inl ⟨m, hRow, rfl, rfl, .inl rfl⟩
  | businesses => exact .inl ⟨m, hRow, rfl, rfl, .inl rfl⟩
  | member a other f hHolds hCaller hOther hSame hRole =>
    rcases getElem?_modify_cases hRow with ⟨rfl, old, hOld, rfl⟩ | ⟨-, hOld⟩
    · refine .inl ⟨old, hOld, (hSame old).1, (hSame old).2, ?_⟩
      obtain ⟨userId, m, hIs, hHere, -⟩ := hOther
      obtain rfl : old = m := Option.some.inj (hOld.symm.trans hIs)
      refine (hRole old).imp id ?_
      intro hGiven
      exact ⟨a, hHolds, hCaller, (hSame old).1.trans hHere, hGiven⟩
    · exact .inl ⟨m, hOld, rfl, rfl, .inl rfl⟩
  | newMember a target role hHolds hCaller hRole hTarget hNew =>
    rcases getElem?_insert_cases hRow with hOld | ⟨hId, rfl⟩
    · exact .inl ⟨m, hOld, rfl, rfl, .inl rfl⟩
    · exact .inr ⟨a, hHolds, hCaller, rfl, hRole, hTarget, hId, hNew⟩

theorem wellFormed_of_writes (hWell : s.WellFormed) (h : Writes P s call s') : s'.WellFormed := by
  refine ⟨?_, ?_⟩
  · intro i j m m' hi hj hBusiness hUser
    rcases row_of_writes h hi with ⟨old, hOld, hb, hu, -⟩ | ⟨_, -, -, -, -, -, hi', hNew⟩ <;>
      rcases row_of_writes h hj with ⟨old', hOld', hb', hu', -⟩ | ⟨_, -, -, -, -, -, hj', hNew'⟩
    · exact hWell.unique i j old old' hOld hOld' (by rw [← hb, ← hb', hBusiness])
        (by rw [← hu, ← hu', hUser])
    · have hSame : old.businessId = m'.businessId ∧ old.userId = m'.userId :=
        ⟨hb.symm.trans hBusiness, hu.symm.trans hUser⟩
      exact absurd hSame (hNew' old (List.mem_of_getElem? hOld))
    · have hSame : old'.businessId = m.businessId ∧ old'.userId = m.userId :=
        ⟨hb'.symm.trans hBusiness.symm, hu'.symm.trans hUser.symm⟩
      exact absurd hSame (hNew old' (List.mem_of_getElem? hOld'))
    · rw [hi', hj']
  · intro id m hRow
    rcases row_of_writes h hRow with ⟨old, hOld, hb, hu, hRole⟩ |
      ⟨a, hHolds, -, hb, hRole, hTarget, -, -⟩
    · obtain ⟨hNotOwner, owner, hOwns, hOther⟩ := hWell.member id old hOld
      refine ⟨?_, owner, ?_, ?_⟩
      · rcases hRole with hRole | ⟨_, -, -, -, hRole⟩
        · rw [hRole]
          exact hNotOwner
        · exact not_owner_of_assignable hRole
      · rw [hb]
        exact owns_of_writes h hOwns
      · rw [hu]
        exact hOther
    · refine ⟨not_owner_of_assignable hRole, a.ownerUserId, ?_, hTarget⟩
      rw [hb]
      exact owns_of_writes h hHolds.owner

end Writing

/-- What every write keeps holds along every run, with what the running calls know. -/
theorem kept_of_reaches {P : BusinessActor → Prop} {ok : Guard Store Call Outcome} {s₀ : Store}
    {c : Config Store Call} (I : Store → Prop) (hInit : I s₀) (hWell : s₀.WellFormed)
    (hActs : ∀ s a, I s → s.Manages a.businessId a.userId → P a)
    (hKeep : ∀ o s s' call, I s → ok o s call → Writes P s call s' → I s')
    (h : program.Reaches ok (Program.idle s₀) c) :
    (c.store.WellFormed ∧ I c.store) ∧ ∀ call ∈ c.calls, Knows P c.store call := by
  refine h.assertions (fun s => s.WellFormed ∧ I s) (Knows P) ⟨⟨hWell, hInit⟩, ?_⟩ ?_ ?_ ?_
  · intro call hCall
    cases hCall
  · intro request s _
    cases request <;> trivial
  · intro o s s' call call' hG hKnows hOk hStep
    have hWrites := writes_of_step hKnows hStep
    exact ⟨⟨wellFormed_of_writes hG.1 hWrites, hKeep o s s' call hG.2 hOk hWrites⟩,
      knows_of_step hG.1 (fun a => hActs s a hG.2) hKnows hStep⟩
  · intro o s s' call call' other _ hKnows hOther _ hStep
    exact knows_of_writes (writes_of_step hKnows hStep) hOther

/-- The runs in which none of these users makes a call. -/
def NotBy (p : UserId → Prop) : Guard Store Call Outcome :=
  fun _ _ call => ∀ userId ∈ call.userId, ¬p userId

instance (p : UserId → Prop) [DecidablePred p] (o : Outcome) (s : Store) (call : Call) :
    Decidable (NotBy p o s call) := by
  unfold NotBy
  infer_instance

section Teams
variable {P : BusinessActor → Prop} {o : Outcome} {s₀ s s' : Store} {call : Call} {owner : UserId}
  {businessId : BusinessId}

/-- The rows that are an admin's were the same members', and an admin's, before. -/
def AdminsFrom (s₀ s : Store) (businessId : BusinessId) : Prop :=
  ∀ (id : MemberId) (m : Member), s.members[id]? = some m → m.businessId = businessId →
    m.role = .admin → ∃ m₀ ∈ s₀.members[id]?, m₀.businessId = businessId ∧
      m₀.userId = m.userId ∧ m₀.role = .admin

theorem adminsFrom_refl (s : Store) (businessId : BusinessId) : AdminsFrom s s businessId := by
  intro id m hRow hBusiness hRole
  exact ⟨m, hRow, hBusiness, rfl, hRole⟩

/-- Whoever gives the role of an admin is the owner of the business. -/
theorem caller_of_admin_assignable {a : BusinessActor} (hHolds : Holds P s a)
    (hOwner : s.Owns businessId owner) (hHere : a.businessId = businessId)
    (hRole : BusinessRole.admin ∈ assignableRoles a.role) : a.userId = owner := by
  subst hHere
  rw [hHolds.own (owner_of_admin_assignable hRole)]
  exact owner_unique hHolds.owner hOwner

theorem adminsFrom_of_writes (hAdmins : AdminsFrom s₀ s businessId)
    (hOwner : s.Owns businessId owner) (hOk : NotBy (· = owner) o s call)
    (h : Writes P s call s') : AdminsFrom s₀ s' businessId := by
  intro id m hRow hBusiness hRole
  have hNotGiven : ∀ a, Holds P s a → call.userId = some a.userId → m.businessId = a.businessId →
      m.role ∉ assignableRoles a.role := by
    intro a hHolds hCaller hHere hGiven
    rw [hRole] at hGiven
    exact hOk a.userId hCaller
      (caller_of_admin_assignable hHolds hOwner (hHere.symm.trans hBusiness) hGiven)
  rcases row_of_writes h hRow with ⟨old, hOld, hb, hu, hFrom⟩ | ⟨a, hHolds, hCaller, hb, hGiven, -⟩
  · rcases hFrom with hSame | ⟨a, hHolds, hCaller, hHere, hGiven⟩
    · rw [hu]
      exact hAdmins id old hOld (hb.symm.trans hBusiness) (hSame.symm.trans hRole)
    · exact absurd hGiven (hNotGiven a hHolds hCaller hHere)
  · exact absurd hGiven (hNotGiven a hHolds hCaller hb)

/-- Who manages an unchanged team managed it before. -/
theorem manages_of_team {userId : UserId} (hOwner₀ : s₀.Owns businessId owner)
    (hOwner : s.Owns businessId owner) (hTeam : s.team businessId = s₀.team businessId)
    (h : s.Manages businessId userId) : s₀.Manages businessId userId := by
  rcases h with hOwns | ⟨m, hMem, hHere, hAdmin⟩
  · rw [owner_unique hOwns hOwner]
    exact .inl hOwner₀
  · have hThere : m ∈ s.team businessId := by simp [Store.team, hMem, hHere]
    rw [hTeam] at hThere
    exact .inr ⟨m, List.mem_of_mem_filter hThere, hHere, hAdmin⟩

theorem filter_modify_of_not {α : Type} {p : α → Bool} {f : α → α} {rows : List α} {id : ℕ}
    (h : ∀ row ∈ rows[id]?, p row = false ∧ p (f row) = false) :
    (rows.modify id f).filter p = rows.filter p := by
  induction rows generalizing id with
  | nil => simp
  | cons head tail ih =>
    cases id with
    | zero =>
      obtain ⟨hOld, hNew⟩ := h head rfl
      simp [hOld, hNew]
    | succ id =>
      simp only [List.getElem?_cons_succ] at h
      simp only [List.modify_succ_cons, List.filter_cons, ih h]

theorem team_of_writes {p : UserId → Prop} (hOk : NotBy p o s call)
    (h : Writes (fun a => a.businessId = businessId → p a.userId) s call s') :
    s'.team businessId = s.team businessId := by
  have hElsewhere : ∀ a, Holds (fun a => a.businessId = businessId → p a.userId) s a →
      call.userId = some a.userId → a.businessId ≠ businessId := by
    intro a hHolds hCaller hHere
    exact hOk a.userId hCaller (hHolds.resolved hHere)
  cases h with
  | nothing => rfl
  | businesses => rfl
  | member a id f hHolds hCaller hRow hKeys _ =>
    refine filter_modify_of_not ?_
    intro m hMem
    obtain ⟨userId, m', hMem', hHere, -⟩ := hRow
    have hOther : m.businessId ≠ businessId := by
      rw [Option.mem_unique hMem hMem', hHere]
      exact hElsewhere a hHolds hCaller
    simp [hKeys, hOther]
  | newMember a target role hHolds hCaller =>
    simp [Store.team, hElsewhere a hHolds hCaller]

end Teams

/-- Two businesses, the first with an admin and a finance member. -/
def twoBusinesses : Store :=
  ⟨[⟨0, .approved⟩, ⟨5, .approved⟩], [⟨0, 1, .admin, true, some 0⟩, ⟨0, 2, .finance, true, some 1⟩]⟩

theorem wellFormed_twoBusinesses : twoBusinesses.WellFormed := by
  refine ⟨?_, ?_⟩
  · intro i j m m' hi hj _ hUser
    rcases i with _ | _ | i <;> rcases j with _ | _ | j <;>
      simp only [twoBusinesses, List.getElem?_cons_zero, List.getElem?_cons_succ,
        List.getElem?_nil, Option.some.injEq, reduceCtorEq] at hi hj
    · rfl
    · rw [← hi, ← hj] at hUser
      cases hUser
    · rw [← hi, ← hj] at hUser
      cases hUser
    · rfl
  · intro id m hRow
    have hAll : ∀ m ∈ twoBusinesses.members,
        m.role ≠ .owner ∧ twoBusinesses.Owns m.businessId 0 ∧ m.userId ≠ 0 := by decide
    obtain ⟨hRole, hOwns, hOther⟩ := hAll m (List.mem_of_getElem? hRow)
    exact ⟨hRole, 0, hOwns, hOther⟩

/-- However the calls interleave, a team has one row for each member, none of them the owner's. -/
theorem team_wellFormed_of_reaches {s₀ : Store} {c : Config Store Call} (hWell : s₀.WellFormed)
    (h : program.Reaches anyStep (Program.idle s₀) c) : c.store.WellFormed :=
  (kept_of_reaches (fun _ => True) trivial hWell (P := fun _ => True) (fun _ _ _ _ => trivial)
    (fun _ _ _ _ _ _ _ => trivial) h).1.1

/-- The calls of user 1 that add user 3 with the role `finance`. -/
def adminAdds : List (Move Request Outcome) :=
  .enter (.team 1 (.add .finance)) :: List.replicate 6 (.run 0 ⟨true, some 3⟩)

theorem team_wellFormed_after_adding : ∃ c, program.Reaches anyStep (Program.idle twoBusinesses) c ∧
    c.store.members.length = 3 ∧ c.store.WellFormed := by
  have hRun : (program.schedule adminAdds (Program.idle twoBusinesses)).any
      (fun c => c.store.members.length = 3) = true := by decide
  obtain ⟨c, hReach, hLength⟩ := Program.reaches_of_any hRun
  exact ⟨c, hReach, of_decide_eq_true hLength,
    team_wellFormed_of_reaches wellFormed_twoBusinesses hReach⟩

/-- A call that is about to change or remove a row does so to another member, of the business it acts
for; this was checked before the PIN, and stays so. -/
theorem own_row_left_alone {s₀ : Store} {c : Config Store Call} {a : BusinessActor} {id : MemberId}
    (hWell : s₀.WellFormed) (h : program.Reaches anyStep (Program.idle s₀) c)
    (hWrites : (∃ role, Call.updateRow a id role ∈ c.calls) ∨ Call.removeRow a id ∈ c.calls) :
    ∃ m ∈ c.store.members[id]?, m.businessId = a.businessId ∧ m.userId ≠ a.userId := by
  have hKnows := (kept_of_reaches (fun _ => True) trivial hWell (P := fun _ => True)
    (fun _ _ _ _ => trivial) (fun _ _ _ _ _ _ _ => trivial) h).2
  have hTheirs : Theirs c.store a id := by
    rcases hWrites with ⟨role, hCall⟩ | hCall
    · exact (hKnows _ hCall).2.2
    · exact (hKnows _ hCall).2
  obtain ⟨userId, ⟨m, hRow, hHere, hUser⟩, hOther⟩ := hTheirs
  refine ⟨m, hRow, hHere, ?_⟩
  rw [hUser]
  exact hOther

/-- User 1, an admin, changes the role of user 2, up to the write. -/
def adminChanges : List (Move Request Outcome) :=
  .enter (.team 1 (.update 1 .developer)) :: List.replicate 4 (.run 0 ⟨true, none⟩)

theorem own_row_left_alone_by_admin : ∃ c, program.Reaches anyStep (Program.idle twoBusinesses) c ∧
    ∃ m ∈ c.store.members[1]?, m.businessId = 0 ∧ m.userId ≠ 1 := by
  have hRun : (program.schedule adminChanges (Program.idle twoBusinesses)).any
      (fun c => Call.updateRow ⟨1, .admin, 0, 0⟩ 1 .developer ∈ c.calls) = true := by decide
  obtain ⟨c, hReach, hCall⟩ := Program.reaches_of_any hRun
  exact ⟨c, hReach, own_row_left_alone wellFormed_twoBusinesses hReach
    (.inl ⟨_, of_decide_eq_true hCall⟩)⟩

/-- Only the owner makes admins: in a run in which the owner makes no call, a row that is an admin's
was the same member's, and an admin's, before. -/
theorem admins_come_from_owner {s₀ : Store} {c : Config Store Call} {owner : UserId}
    {businessId : BusinessId} (hWell : s₀.WellFormed) (hOwner : s₀.Owns businessId owner)
    (h : program.Reaches (NotBy (· = owner)) (Program.idle s₀) c) (id : MemberId) (m : Member)
    (hRow : c.store.members[id]? = some m) (hBusiness : m.businessId = businessId)
    (hRole : m.role = .admin) :
    ∃ m₀ ∈ s₀.members[id]?, m₀.businessId = businessId ∧ m₀.userId = m.userId ∧
      m₀.role = .admin := by
  have hKept := kept_of_reaches (P := fun _ => True)
    (fun s => s.Owns businessId owner ∧ AdminsFrom s₀ s businessId) ⟨hOwner, adminsFrom_refl s₀ _⟩
    hWell (fun _ _ _ _ => trivial) ?_ h
  · exact hKept.1.2.2 id m hRow hBusiness hRole
  · intro o s s' call hI hOk hWrites
    exact ⟨owns_of_writes hWrites hI.1, adminsFrom_of_writes hI.2 hI.1 hOk hWrites⟩

theorem admins_come_from_owner_when_admin_adds :
    ∃ c, program.Reaches (NotBy (· = 0)) (Program.idle twoBusinesses) c ∧
      c.store.members.length = 3 ∧ ∀ m ∈ c.store.members[0]?, m.businessId = 0 → m.role = .admin →
        ∃ m₀ ∈ twoBusinesses.members[0]?, m₀.businessId = 0 ∧ m₀.userId = m.userId ∧
          m₀.role = .admin := by
  have hRun : ((program.guarded (NotBy (· = 0))).schedule adminAdds
      (Program.idle twoBusinesses)).any (fun c => c.store.members.length = 3) = true := by decide
  obtain ⟨c, hReach, hLength⟩ := Program.reaches_of_guarded_any hRun
  refine ⟨c, hReach, of_decide_eq_true hLength, ?_⟩
  intro m hRow hHere hRole
  exact admins_come_from_owner wellFormed_twoBusinesses (by decide) hReach 0 m hRow hHere hRole

/-- A team changes only through its managers: in a run in which neither the owner nor an admin that
was active at the start makes a call, its rows are what they were. -/
theorem team_unchanged_without_managers {s₀ : Store} {c : Config Store Call} {owner : UserId}
    {businessId : BusinessId} (hWell : s₀.WellFormed) (hOwner : s₀.Owns businessId owner)
    (h : program.Reaches (NotBy (s₀.Manages businessId)) (Program.idle s₀) c) :
    c.store.team businessId = s₀.team businessId := by
  have hKept := kept_of_reaches (P := fun a => a.businessId = businessId →
      s₀.Manages businessId a.userId)
    (fun s => s.Owns businessId owner ∧ s.team businessId = s₀.team businessId) ⟨hOwner, rfl⟩
    hWell ?_ ?_ h
  · exact hKept.1.2.2
  · intro s a hI hManages hHere
    subst hHere
    exact manages_of_team hOwner hI.1 hI.2 hManages
  · intro o s s' call hI hOk hWrites
    refine ⟨owns_of_writes hWrites hI.1, ?_⟩
    rw [← hI.2]
    exact team_of_writes hOk hWrites

/-- User 5, who owns the other business, makes user 3 an admin there, while a finance member of the
first gets no further than the permission check. -/
def financeTries : List (Move Request Outcome) :=
  [.enter (.team 5 (.add .admin)), .enter (.team 2 (.add .finance)), .run 1 ⟨true, some 4⟩] ++
    List.replicate 5 (.run 0 ⟨true, some 3⟩)

theorem team_unchanged_beside_other_business :
    ∃ c, program.Reaches (NotBy (twoBusinesses.Manages 0)) (Program.idle twoBusinesses) c ∧
      c.store.members.length = 3 ∧ c.store.team 0 = twoBusinesses.team 0 := by
  have hRun : ((program.guarded (NotBy (twoBusinesses.Manages 0))).schedule financeTries
      (Program.idle twoBusinesses)).any (fun c => c.store.members.length = 3) = true := by decide
  obtain ⟨c, hReach, hLength⟩ := Program.reaches_of_guarded_any hRun
  exact ⟨c, hReach, of_decide_eq_true hLength,
    team_unchanged_without_managers wellFormed_twoBusinesses
      (by decide : twoBusinesses.Owns 0 0) hReach⟩

end FarmBackend.BusinessTeams
