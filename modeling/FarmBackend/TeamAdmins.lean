import FarmBackend.TeamRoles

/-!
# Admins and one another

`update` and `remove` ask that the caller may assign the role which the member has. The answer is read
before the PIN is checked and not asked again by the write, and still no admin loses the role to
another as long as the owner makes no call in between.
-/

namespace FarmBackend.BusinessTeams
open Interleaving Rows

set_option autoImplicit false

/-- The row of this id is that of an active admin. -/
def Store.AdminAt (s : Store) (businessId : BusinessId) (id : MemberId) (userId : UserId) : Prop :=
  ∃ m ∈ s.members[id]?,
    m.businessId = businessId ∧ m.userId = userId ∧ m.role = .admin ∧ m.isActive = true

instance (s : Store) (businessId : BusinessId) (id : MemberId) (userId : UserId) :
    Decidable (s.AdminAt businessId id userId) := by
  unfold Store.AdminAt
  infer_instance

/-- The row that a call has found and is going to write. -/
def Call.row : Call → Option MemberId
  | .reactivate _ id _ => some id
  | .updatePin _ id _ => some id
  | .updateRow _ id _ => some id
  | .removePin _ id => some id
  | .removeRow _ id => some id
  | _ => none

/-- The call is not going to write the row of one who was an admin in `s₀`. -/
def Spares (s₀ : Store) (businessId : BusinessId) (call : Call) : Prop :=
  ∀ id userId, call.row = some id → ¬s₀.AdminAt businessId id userId

section Sparing
variable {P : BusinessActor → Prop} {o : Outcome} {s₀ s s' : Store} {call call' : Call}
  {a : BusinessActor} {task : Task} {owner userId : UserId} {businessId : BusinessId}
  {id : MemberId} {m : Member}

theorem spares_of_none (h : call.row = none) : Spares s₀ businessId call := by
  intro id userId hRow
  rw [h] at hRow
  cases hRow

theorem row_of_start (h : start a task = some call) : call.row = none := by
  obtain ⟨-, ⟨_, -, -, rfl⟩ | ⟨_, _, -, rfl⟩ | ⟨_, -, rfl⟩⟩ := start_cases h <;> rfl

theorem row_of_resolveOwned (h : s.resolveOwned userId task = some call) : call.row = none := by
  unfold Store.resolveOwned at h
  split at h
  · split at h
    · exact row_of_start h
    · cases h
      rfl
  · cases h
    rfl

theorem row_of_resolveMembership (h : s.resolveMembership userId task = some call) :
    call.row = none := by
  simp only [Store.resolveMembership, Option.bind_eq_some_iff] at h
  obtain ⟨_, -, _, -, hStart⟩ := h
  exact row_of_start hStart

/-- Only the row that the call has found is written. -/
theorem row_kept_of_step (hOther : call.row ≠ some id) (hRow : s.members[id]? = some m)
    (h : step o s call = some (s', call')) : s'.members[id]? = some m := by
  cases call with
  | reactivate | updateRow | removeRow =>
    cases h
    exact (getElem?_modify_ne _ fun hSame => hOther (congrArg some hSame)).trans hRow
  | insert a target role =>
    simp only [step, Store.membersCreate, Option.map_eq_some_iff, Option.ite_none_left_eq_some,
      Option.some.injEq, Prod.mk.injEq] at h
    obtain ⟨_, ⟨-, rfl⟩, rfl, -⟩ := h
    exact getElem?_append_of_some hRow
  | upgradeFromMerchant userId =>
    simp only [step, Store.businessesCreate, Option.map_eq_some_iff, Option.ite_none_left_eq_some,
      Option.some.injEq, Prod.mk.injEq] at h
    obtain ⟨_, ⟨-, rfl⟩, rfl, -⟩ := h
    exact hRow
  | setStatus =>
    cases h
    exact hRow
  | resolve | membership | addExisting | findUpdated | findRemoved =>
    simp only [step, Option.map_eq_some_iff, Prod.mk.injEq] at h
    obtain ⟨_, -, rfl, -⟩ := h
    exact hRow
  | addPin | updatePin | removePin =>
    simp only [step, Option.ite_none_right_eq_some, Option.some.injEq, Prod.mk.injEq] at h
    obtain ⟨-, rfl, -⟩ := h
    exact hRow
  | addTarget =>
    simp only [step, Option.bind_eq_some_iff, Option.ite_none_left_eq_some, Option.some.injEq,
      Prod.mk.injEq] at h
    obtain ⟨_, -, -, rfl, -⟩ := h
    exact hRow
  | done => cases h

/-- An admin's row is only found by a caller who may assign that role, and that is the owner. -/
theorem not_adminAt_of_assignable (hHolds : Holds P s a) (hOwner : s.Owns businessId owner)
    (hOk : a.userId ≠ owner) (hMember : s.memberOf a.businessId id = some m)
    (hRole : m.role ∈ assignableRoles a.role) : ¬s.AdminAt businessId id userId := by
  intro hAdmin
  obtain ⟨m', hRow', hHere, -, hIs, -⟩ := hAdmin
  obtain ⟨hRow, hBusiness⟩ := memberOf_eq_some hMember
  obtain rfl : m = m' := Option.mem_unique hRow hRow'
  rw [hIs] at hRole
  exact hOk (caller_of_admin_assignable hHolds hOwner (hBusiness.symm.trans hHere) hRole)

theorem spares_of_step (hStay : ∀ id userId, s₀.AdminAt businessId id userId →
      s.AdminAt businessId id userId) (hOwner : s.Owns businessId owner)
    (hOk : NotBy (· = owner) o s call) (hKnows : Knows P s call)
    (hSpares : Spares s₀ businessId call) (h : step o s call = some (s', call')) :
    Spares s₀ businessId call' := by
  cases call with
  | findUpdated a memberId role =>
    simp only [step, Store.findUpdated, Option.map_eq_some_iff, Option.bind_eq_some_iff,
      Option.ite_none_right_eq_some, Option.some.injEq, Prod.mk.injEq] at h
    obtain ⟨_, ⟨m, hMember, ⟨hRole, -⟩, rfl⟩, -, rfl⟩ := h
    intro id userId hId hAdmin
    cases hId
    exact not_adminAt_of_assignable hKnows hOwner (hOk a.userId rfl) hMember hRole
      (hStay _ userId hAdmin)
  | findRemoved a memberId =>
    simp only [step, Store.findRemoved, Option.map_eq_some_iff, Option.bind_eq_some_iff,
      Option.ite_none_right_eq_some, Option.some.injEq, Prod.mk.injEq] at h
    obtain ⟨_, ⟨m, hMember, ⟨-, hRole⟩, rfl⟩, -, rfl⟩ := h
    intro id userId hId hAdmin
    cases hId
    exact not_adminAt_of_assignable hKnows hOwner (hOk a.userId rfl) hMember hRole
      (hStay _ userId hAdmin)
  | addExisting a target role =>
    simp only [step, Option.map_eq_some_iff, Prod.mk.injEq] at h
    obtain ⟨_, hAdd, -, rfl⟩ := h
    unfold Store.addExisting at hAdd
    split at hAdd
    · rename_i m id hExisting
      simp only [Option.ite_none_left_eq_some, Option.some.injEq] at hAdd
      obtain ⟨hInactive, rfl⟩ := hAdd
      intro id' userId hId hAdmin
      cases hId
      obtain ⟨m', hRow', -, -, -, hActive⟩ := hStay _ userId hAdmin
      have hRow := List.mk_mem_zipIdx_iff_getElem?.mp (List.mem_of_find?_eq_some hExisting)
      obtain rfl : m = m' := Option.mem_unique hRow hRow'
      exact hInactive hActive
    · cases hAdd
      exact spares_of_none rfl
  | resolve userId task =>
    simp only [step, Option.map_eq_some_iff, Prod.mk.injEq] at h
    obtain ⟨_, hResolve, -, rfl⟩ := h
    exact spares_of_none (row_of_resolveOwned hResolve)
  | membership userId task =>
    simp only [step, Option.map_eq_some_iff, Prod.mk.injEq] at h
    obtain ⟨_, hResolve, -, rfl⟩ := h
    exact spares_of_none (row_of_resolveMembership hResolve)
  -- The row that was found is the one that is written.
  | updatePin | removePin =>
    simp only [step, Option.ite_none_right_eq_some, Option.some.injEq, Prod.mk.injEq] at h
    obtain ⟨-, -, rfl⟩ := h
    exact hSpares
  | addPin =>
    simp only [step, Option.ite_none_right_eq_some, Option.some.injEq, Prod.mk.injEq] at h
    obtain ⟨-, -, rfl⟩ := h
    exact spares_of_none rfl
  | addTarget =>
    simp only [step, Option.bind_eq_some_iff, Option.ite_none_left_eq_some, Option.some.injEq,
      Prod.mk.injEq] at h
    obtain ⟨_, -, -, -, rfl⟩ := h
    exact spares_of_none rfl
  | reactivate | updateRow | removeRow | setStatus =>
    cases h
    exact spares_of_none rfl
  | insert | upgradeFromMerchant =>
    simp only [step, Option.map_eq_some_iff, Prod.mk.injEq] at h
    obtain ⟨_, -, -, rfl⟩ := h
    exact spares_of_none rfl
  | done => cases h

end Sparing

/-- Only the owner unmakes admins: in a run in which the owner makes no call, everybody who was an
active admin at the start is one in every state that is reached. -/
theorem admins_stay_without_owner {s₀ : Store} {c : Config Store Call} {owner : UserId}
    {businessId : BusinessId} (hWell : s₀.WellFormed) (hOwner : s₀.Owns businessId owner)
    (h : program.Reaches (NotBy (· = owner)) (Program.idle s₀) c) (id : MemberId) (userId : UserId)
    (hAdmin : s₀.AdminAt businessId id userId) : c.store.AdminAt businessId id userId := by
  have hAll : ((c.store.WellFormed ∧ c.store.Owns businessId owner) ∧
        ∀ id userId, s₀.AdminAt businessId id userId → c.store.AdminAt businessId id userId) ∧
      ∀ call ∈ c.calls, Knows (fun _ => True) c.store call ∧ Spares s₀ businessId call := by
    refine h.assertions (fun s => (s.WellFormed ∧ s.Owns businessId owner) ∧
        ∀ id userId, s₀.AdminAt businessId id userId → s.AdminAt businessId id userId)
      (fun s call => Knows (fun _ => True) s call ∧ Spares s₀ businessId call)
      ⟨⟨⟨hWell, hOwner⟩, fun _ _ hAt => hAt⟩, ?_⟩ ?_ ?_ ?_
    · intro call hCall
      cases hCall
    · intro request s _
      cases request <;> exact ⟨trivial, spares_of_none rfl⟩
    · intro o s s' call call' hG hCall hOk hStep
      obtain ⟨⟨hNow, hOwns⟩, hStay⟩ := hG
      obtain ⟨hKnows, hSpares⟩ := hCall
      have hWrites := writes_of_step hKnows hStep
      refine ⟨⟨⟨wellFormed_of_writes hNow hWrites, owns_of_writes hWrites hOwns⟩, ?_⟩,
        knows_of_step hNow (fun _ _ => trivial) hKnows hStep,
        spares_of_step hStay hOwns hOk hKnows hSpares hStep⟩
      intro id userId hAt
      obtain ⟨m, hRow, hIs⟩ := hStay id userId hAt
      have hOther : call.row ≠ some id := fun hId => hSpares id userId hId hAt
      exact ⟨m, row_kept_of_step hOther hRow hStep, hIs⟩
    · intro o s s' call call' other _ hCall hOther _ hStep
      exact ⟨knows_of_writes (writes_of_step hCall.1 hStep) hOther.1, hOther.2⟩
  exact hAll.1.2 id userId hAdmin

theorem admins_stay_when_one_adds :
    ∃ c, program.Reaches (NotBy (· = 0)) (Program.idle twoBusinesses) c ∧
      c.store.members.length = 3 ∧ c.store.AdminAt 0 0 1 := by
  have hRun : ((program.guarded (NotBy (· = 0))).schedule adminAdds
      (Program.idle twoBusinesses)).any (fun c => c.store.members.length = 3) = true := by decide
  obtain ⟨c, hReach, hLength⟩ := Program.reaches_of_guarded_any hRun
  exact ⟨c, hReach, of_decide_eq_true hLength,
    admins_stay_without_owner wellFormed_twoBusinesses (by decide) hReach 0 1 (by decide)⟩

/-- User 1 has found user 2 as a finance member and has given the PIN; then the owner makes user 2 an
admin. -/
def inFlight : Config Store Call where
  store := ⟨twoBusinesses.businesses,
    [⟨0, 1, .admin, true, some 0⟩, ⟨0, 2, .admin, true, some 1⟩]⟩
  calls := [.updateRow ⟨1, .admin, 0, 0⟩ 1 .developer, .done]

/-- The owner's call may well have ended: what an admin has checked before it is not asked again. -/
theorem admin_demoted_by_admin : program.Reaches anyStep (Program.idle twoBusinesses) inFlight ∧
    inFlight.store.AdminAt 0 1 2 ∧ ∃ c, program.Reaches (NotBy (· = 0)) inFlight c ∧
      ¬c.store.AdminAt 0 1 2 := by
  have hFlight : program.schedule (adminChanges ++ .enter (.team 0 (.update 1 .admin)) ::
      List.replicate 4 (.run 1 ⟨true, none⟩)) (Program.idle twoBusinesses) = some inFlight := rfl
  have hWrite : ((program.guarded (NotBy (· = 0))).schedule [.run 0 ⟨true, none⟩] inFlight).any
      (fun c => ¬c.store.AdminAt 0 1 2) = true := by decide
  obtain ⟨c, hReach, hDemoted⟩ := Program.reaches_of_guarded_any hWrite
  exact ⟨Program.reaches_of_schedule hFlight, by decide, c, hReach, of_decide_eq_true hDemoted⟩

end FarmBackend.BusinessTeams
