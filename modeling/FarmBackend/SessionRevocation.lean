import FarmBackend.Sessions

/-!
# Revoking every session of a user

The six operations differ in the rows they select. A refresh that has claimed its session and not
yet inserted the next one has nothing that a revocation could find.
-/

namespace FarmBackend.Sessions
open Interleaving Rows

set_option autoImplicit false

/-- `logoutAll` is `logout` with `revokeAll`, or without a `jti`; `setAdminStatus` is a suspension. -/
inductive Revocation where
  | logoutAll (userId : UserId)
  | completePasswordReset (userId : UserId)
  | changePassword (userId : UserId) (currentJti : Option String)
  | revokeOtherSessions (userId : UserId) (currentJti : String)
  | handleTokenTheft (userId : UserId)
  | setAdminStatus (adminId : UserId)
deriving DecidableEq

namespace Revocation

def userId : Revocation → UserId
  | logoutAll userId => userId
  | completePasswordReset userId => userId
  | changePassword userId _ => userId
  | revokeOtherSessions userId _ => userId
  | handleTokenTheft userId => userId
  | setAdminStatus adminId => adminId

variable {env : Env}

/-- The `where` of the `updateMany`. A row without `jwt_id` is not different from a given one. -/
def Selects (row : Session env) : Revocation → Prop
  | logoutAll userId => OfVictim userId row
  | completePasswordReset userId => OfVictim userId row
  | changePassword userId currentJti => row.userId = some userId ∧ row.Unrevoked ∧
      ∀ jti ∈ currentJti, ∃ other ∈ row.jwtId, other ≠ jti
  | revokeOtherSessions userId currentJti => row.userId = some userId ∧ row.Unrevoked ∧
      ∃ other ∈ row.jwtId, other ≠ currentJti
  | handleTokenTheft userId => OfVictim userId row
  | setAdminStatus adminId => row.userId = some adminId ∧ row.Unrevoked

instance (r : Revocation) : DecidablePred fun row : Session env => r.Selects row := by
  intro row
  cases r <;> unfold Selects <;> infer_instance

/-- The session of the caller, where the operation leaves it alone. -/
def Keeps (row : Session env) : Revocation → Prop
  | changePassword _ currentJti => ∃ jti ∈ currentJti, row.jwtId = some jti
  | revokeOtherSessions _ currentJti => row.jwtId = some currentJti
  | _ => False

def perform (r : Revocation) (s : Store env) : Store env := s.revokeWhere fun row => r.Selects row

/-- The sessions that `r` leaves to its caller. -/
def Kept (r : Revocation) (s : Store env) (id : SessionId) : Prop :=
  ∃ row ∈ s.sessions[id]?, r.Keeps row ∧ row.Unrevoked

end Revocation

variable {env : Env}

/-- The session is one of these, or was obtained by refreshing one. -/
def Derives (ids : SessionId → Prop) (id : SessionId) (row : Session env) : Prop :=
  ids id ∨ ∃ ancestor ∈ row.ancestors, ids ancestor

/-- Of the sessions that were there before, and of those obtained from them, only the caller's own
are still alive. -/
def AllGone (r : Revocation) (before s : Store env) : Prop :=
  ∀ (id : SessionId) (row : Session env), s.sessions[id]? = some row →
    row.userId = some r.userId → Derives (· < before.sessions.length) id row →
    ¬ Derives (r.Kept before) id row → row.isRevoked = some true

/-- A refresh of the user between its claim and its insert. -/
def Inserting (userId : UserId) (call : Call env) : Prop :=
  ∃ id session profile ip, call = .issue userId id session profile ip

def Revoked (s : Store env) (id : SessionId) : Prop :=
  ∃ row ∈ s.sessions[id]?, row.isRevoked = some true

/-- What a step does to the rows that are there: who they belong to and where they come from stays,
and nothing is revived. -/
def Ages (row row' : Session env) : Prop :=
  row'.userId = row.userId ∧ row'.ancestors = row.ancestors ∧
    (row.isRevoked = some true → row'.isRevoked = some true)

/-- What a call knows of the session it refreshes. -/
def Knows (s : Store env) : Call env → Prop
  | .claim userId id session _ _ => ∃ row, s.sessions[id]? = some row ∧
      row.userId = some userId ∧ row.ancestors = session.ancestors
  | .issue _ id session _ _ => Revoked s id ∧ ∀ ancestor ∈ session.ancestors, Revoked s ancestor
  | _ => True

def AncestorsRevoked (s : Store env) : Prop :=
  ∀ row ∈ s.sessions, ∀ ancestor ∈ row.ancestors, Revoked s ancestor

section Aging
variable {s s' : Store env} {call call' : Call env} {o : Outcome} {id : SessionId}

theorem ages_refl (row : Session env) : Ages row row := ⟨rfl, rfl, id⟩

theorem revoked_of_ages (h : Related Ages s.sessions s'.sessions) (hRevoked : Revoked s id) :
    Revoked s' id := by
  obtain ⟨row, hRow, hIs⟩ := hRevoked
  obtain ⟨row', hRow', -, -, hStays⟩ := h.forward hRow
  exact ⟨row', hRow', hStays hIs⟩

theorem ages_exchange (s : Store env) (id : SessionId) (now : ℕ) :
    Related Ages s.sessions (s.exchange id now).sessions :=
  related_modify ages_refl fun _ _ => ⟨rfl, rfl, fun _ => rfl⟩

theorem ages_revokeWhere (s : Store env) (p : Session env → Prop) [DecidablePred p] :
    Related Ages s.sessions (s.revokeWhere p).sessions := by
  refine related_map ?_ _
  intro row
  split
  · exact ⟨rfl, rfl, fun _ => rfl⟩
  · exact ages_refl row

theorem revoked_create (h : Revoked s id) (new : Session env) : Revoked (s.create new) id := by
  obtain ⟨row, hRow, hIs⟩ := h
  exact ⟨row, getElem?_append_of_some hRow, hIs⟩

/-- A step ages the rows and may add one. -/
theorem step_ages (h : step o s call = some (s', call')) :
    Related Ages s.sessions s'.sessions ∨
      ∃ userId id session profile ip, call = .issue userId id session profile ip ∧ call' = .done ∧
        s' = s.create (rotated o userId id session profile ip) := by
  cases call with
  | find userId raw ip =>
    obtain ⟨rfl, -⟩ := find_cases h
    exact .inl (Related.refl ages_refl _)
  | claim userId id session profile ip =>
    rcases claim_cases h with ⟨-, -, -, rfl, -⟩ | ⟨rfl, -⟩
    · exact .inl (ages_exchange s id o.now)
    · exact .inl (Related.refl ages_refl _)
  | lost userId id =>
    obtain ⟨rfl, -⟩ := lost_cases h
    exact .inl (Related.refl ages_refl _)
  | theft userId =>
    cases h
    exact .inl (ages_revokeWhere s _)
  | issue userId id session profile ip =>
    cases h
    exact .inr ⟨userId, id, session, profile, ip, rfl, rfl, rfl⟩
  | done => cases h

theorem knows_of_ages {other : Call env} (h : Related Ages s.sessions s'.sessions)
    (hKnows : Knows s other) : Knows s' other := by
  cases other with
  | claim userId id session profile ip =>
    obtain ⟨row, hRow, hUser, hAncestors⟩ := hKnows
    obtain ⟨row', hRow', hUser', hAncestors', -⟩ := h.forward hRow
    exact ⟨row', hRow', hUser'.trans hUser, hAncestors'.trans hAncestors⟩
  | issue userId id session profile ip =>
    exact ⟨revoked_of_ages h hKnows.1, fun a hMem => revoked_of_ages h (hKnows.2 a hMem)⟩
  | find _ _ _ => trivial
  | lost _ _ => trivial
  | theft _ => trivial
  | done => trivial

theorem knows_other {other : Call env} (h : step o s call = some (s', call'))
    (hKnows : Knows s other) : Knows s' other := by
  rcases step_ages h with hAges | ⟨_, _, _, _, _, -, -, rfl⟩
  · exact knows_of_ages hAges hKnows
  · cases other with
    | claim userId id session profile ip =>
      obtain ⟨row, hRow, hRest⟩ := hKnows
      exact ⟨row, getElem?_append_of_some hRow, hRest⟩
    | issue userId id session profile ip =>
      exact ⟨revoked_create hKnows.1 _, fun a hMem => revoked_create (hKnows.2 a hMem) _⟩
    | find _ _ _ => trivial
    | lost _ _ => trivial
    | theft _ => trivial
    | done => trivial

theorem ancestorsRevoked_of_ages (h : Related Ages s.sessions s'.sessions)
    (hAll : AncestorsRevoked s) : AncestorsRevoked s' := by
  intro row' hMem ancestor hAncestor
  obtain ⟨id, hAt⟩ := List.mem_iff_getElem?.mp hMem
  obtain ⟨row, hRow, -, hAncestors, -⟩ := h.backward hAt
  rw [hAncestors] at hAncestor
  exact revoked_of_ages h (hAll row (List.mem_of_getElem? hRow) ancestor hAncestor)

theorem knows_step (hAll : AncestorsRevoked s) (hKnows : Knows s call)
    (h : step o s call = some (s', call')) : AncestorsRevoked s' ∧ Knows s' call' := by
  cases call with
  | find userId raw ip =>
    obtain ⟨rfl, row, id, hFound, ⟨-, rfl⟩ | ⟨-, rfl⟩⟩ := find_cases h
    · exact ⟨hAll, trivial⟩
    · obtain ⟨hRow, hActive⟩ := mem_activeSessions.mp (List.mem_of_find?_eq_some hFound)
      exact ⟨hAll, row, hRow, hActive.1, rfl⟩
  | claim userId id session profile ip =>
    obtain ⟨row, hRow, hUser, hAncestors⟩ := hKnows
    rcases claim_cases h with ⟨-, -, -, rfl, rfl⟩ | ⟨rfl, rfl⟩
    · have hAges := ages_exchange s id o.now
      refine ⟨ancestorsRevoked_of_ages hAges hAll, ?_, ?_⟩
      · exact ⟨row.exchange o.now, getElem?_modify_self _ hRow, rfl⟩
      · intro ancestor hMem
        rw [← hAncestors] at hMem
        exact revoked_of_ages hAges (hAll row (List.mem_of_getElem? hRow) ancestor hMem)
    · exact ⟨hAll, trivial⟩
  | lost userId id =>
    obtain ⟨rfl, rfl⟩ := lost_cases h
    exact ⟨hAll, trivial⟩
  | theft userId =>
    cases h
    exact ⟨ancestorsRevoked_of_ages (ages_revokeWhere s _) hAll, trivial⟩
  | issue userId id session profile ip =>
    cases h
    refine ⟨?_, trivial⟩
    intro row hMem ancestor hAncestor
    rcases List.mem_append.mp hMem with hOld | hNew
    · exact revoked_create (hAll row hOld ancestor hAncestor) _
    · rw [List.mem_singleton.mp hNew] at hAncestor
      rcases List.mem_cons.mp hAncestor with rfl | hEarlier
      · exact revoked_create hKnows.1 _
      · exact revoked_create (hKnows.2 ancestor hEarlier) _
  | done => cases h

end Aging

/-- In every run of refresh calls the sessions that others were obtained from are revoked. -/
theorem knows_of_reaches {start : Store env} {c : Config (Store env) (Call env)}
    (hStart : ∀ row ∈ start.sessions, row.ancestors = [])
    (h : (program env).Reaches anyStep (Program.idle start) c) :
    AncestorsRevoked c.store ∧ ∀ call ∈ c.calls, Knows c.store call := by
  refine h.assertions AncestorsRevoked Knows ⟨?_, ?_⟩ ?_ ?_ ?_
  · intro row hMem ancestor hAncestor
    rw [hStart row hMem] at hAncestor
    cases hAncestor
  · intro call hMem
    cases hMem
  · intro dto s _
    simp only [program, enter]
    split <;> trivial
  · intro o s s' call call' hAll hKnows _ hStep
    exact knows_step hAll hKnows hStep
  · intro o s s' call call' other _ _ hOther _ hStep
    exact knows_other hStep hOther

section Complete
variable {r : Revocation} {before s s' start : Store env} {call call' : Call env} {o : Outcome}
variable {c : Config (Store env) (Call env)}

theorem not_kept_of_revoked {id : SessionId} (h : Revoked before id) : ¬ r.Kept before id := by
  rintro ⟨row, hRow, -, hUnrevoked⟩
  obtain ⟨row', hRow', hRevoked⟩ := h
  obtain rfl : row = row' := Option.some.inj (hRow.symm.trans hRow')
  exact hUnrevoked hRevoked

theorem lt_of_revoked {id : SessionId} (h : Revoked s id) : id < s.sessions.length := by
  obtain ⟨row, hRow, -⟩ := h
  exact (List.getElem?_eq_some_iff.mp hRow).1

theorem lt_of_kept {id : SessionId} (h : r.Kept before id) : id < before.sessions.length := by
  obtain ⟨row, hRow, -⟩ := h
  exact (List.getElem?_eq_some_iff.mp hRow).1

theorem derives_congr {ids : SessionId → Prop} {id : SessionId} {row row' : Session env}
    (h : row'.ancestors = row.ancestors) : Derives ids id row' ↔ Derives ids id row := by
  rw [Derives, Derives, h]

/-- A new session derives from what the one it was obtained from derives from. -/
theorem derives_rotated {ids : SessionId → Prop} {new id : SessionId} {userId : UserId}
    {session : Session env} {profile : Option Profile} {ip : String} (hNew : ¬ ids new) :
    Derives ids new (rotated o userId id session profile ip) ↔ Derives ids id session := by
  constructor
  · rintro (hIs | ⟨ancestor, hMem, hIs⟩)
    · exact absurd hIs hNew
    · rcases List.mem_cons.mp hMem with rfl | hEarlier
      · exact .inl hIs
      · exact .inr ⟨ancestor, hEarlier, hIs⟩
  · rintro (hIs | ⟨ancestor, hMem, hIs⟩)
    · exact .inr ⟨id, List.mem_cons_self, hIs⟩
    · exact .inr ⟨ancestor, List.mem_cons_of_mem _ hMem, hIs⟩

/-- A refresh that is about to insert does so for no session that is gone. -/
def Rightful (r : Revocation) (before s : Store env) (call : Call env) : Prop :=
  Knows s call ∧ ∀ userId id session profile ip, call = .issue userId id session profile ip →
    userId = r.userId → Derives (· < before.sessions.length) id session →
    Derives (r.Kept before) id session

theorem allGone_of_ages (h : Related Ages s.sessions s'.sessions) (hGone : AllGone r before s) :
    AllGone r before s' := by
  intro id row' hRow' hUser hOld hNotKept
  obtain ⟨row, hRow, hUser', hAncestors, hStays⟩ := h.backward hRow'
  rw [derives_congr hAncestors] at hOld hNotKept
  exact hStays (hGone id row hRow (hUser'.symm.trans hUser) hOld hNotKept)

theorem allGone_step (hLength : before.sessions.length ≤ s.sessions.length)
    (hGone : AllGone r before s) (hCall : Rightful r before s call)
    (h : step o s call = some (s', call')) : AllGone r before s' := by
  rcases step_ages h with hAges | ⟨userId, id, session, profile, ip, hIssue, -, rfl⟩
  · exact allGone_of_ages hAges hGone
  · intro id' row hRow hUser hOld hNotKept
    rcases getElem?_insert_cases hRow with hBefore | ⟨rfl, rfl⟩
    · exact hGone id' row hBefore hUser hOld hNotKept
    · have hNotYet : ¬ r.Kept before s.sessions.length :=
        fun hKept => absurd (lt_of_kept hKept) (Nat.not_lt.mpr hLength)
      have hFrom : Derives (· < before.sessions.length) id session := by
        refine (derives_rotated ?_).mp hOld
        exact Nat.not_lt.mpr hLength
      exact absurd ((derives_rotated hNotYet).mpr
        (hCall.2 userId id session profile ip hIssue (Option.some.inj hUser) hFrom)) hNotKept

theorem rightful_step (hGone : AllGone r before s) (hAll : AncestorsRevoked s)
    (hCall : Rightful r before s call) (h : step o s call = some (s', call')) :
    Rightful r before s' call' := by
  refine ⟨(knows_step hAll hCall.1 h).2, ?_⟩
  rintro userId id session profile ip rfl hUser hOld
  cases call with
  | claim userId' id' session' profile' ip' =>
    obtain ⟨row, hRow, hRowUser, hAncestors⟩ := hCall.1
    rcases claim_cases h with ⟨row', hRow', hClaimable, -, hNext⟩ | ⟨-, hNext⟩
    · cases hNext
      obtain rfl : row = row' := Option.some.inj (hRow.symm.trans hRow')
      rw [← derives_congr hAncestors] at hOld ⊢
      by_contra hNotKept
      have hRevoked := hGone id row hRow (hRowUser.trans (congrArg some hUser)) hOld hNotKept
      rw [hClaimable.1] at hRevoked
      cases hRevoked
    · cases hNext
  | find userId' raw ip' =>
    obtain ⟨rfl, row, found, hFound, ⟨-, hNext⟩ | ⟨-, hNext⟩⟩ := find_cases h
    · cases hNext
    · cases hNext
  | lost userId' id' =>
    obtain ⟨-, hNext⟩ := lost_cases h
    cases hNext
  | theft userId' => cases h
  | issue _ _ _ _ _ => cases h
  | done => cases h

/-- What the revocation leaves behind, where its filter misses no row. -/
theorem allGone_perform
    (hSelects : ∀ row ∈ before.sessions, row.userId = some r.userId → row.Unrevoked →
      r.Selects row ∨ r.Keeps row) : AllGone r before (r.perform before) := by
  intro id row' hRow' hUser _ hNotKept
  rw [Revocation.perform, Store.revokeWhere, List.getElem?_map, Option.map_eq_some_iff] at hRow'
  obtain ⟨row, hRow, rfl⟩ := hRow'
  split
  · rfl
  · rename_i hNot
    rw [if_neg hNot] at hUser
    by_contra hUnrevoked
    rcases hSelects row (List.mem_of_getElem? hRow) hUser hUnrevoked with hSelected | hKeeps
    · exact hNot hSelected
    · exact hNotKept (.inl ⟨row, hRow, hKeeps, hUnrevoked⟩)

theorem allGone_of_reaches {c' : Config (Store env) (Call env)}
    (hAll : AncestorsRevoked c.store) (hKnows : ∀ call ∈ c.calls, Knows c.store call)
    (hNone : ∀ call ∈ c.calls, ¬ Inserting r.userId call)
    (hSelects : ∀ row ∈ c.store.sessions, row.userId = some r.userId → row.Unrevoked →
      r.Selects row ∨ r.Keeps row)
    (h : (program env).Reaches anyStep ⟨r.perform c.store, c.calls⟩ c') :
    AllGone r c.store c'.store := by
  have hAges := ages_revokeWhere c.store fun row => r.Selects row
  let I : Store env → Prop := fun s => c.store.sessions.length ≤ s.sessions.length ∧
    AncestorsRevoked s ∧ AllGone r c.store s
  have hRun : I c'.store ∧ ∀ call ∈ c'.calls, Rightful r c.store c'.store call := by
    refine h.assertions I (Rightful r c.store) ⟨⟨?_, ?_, ?_⟩, ?_⟩ ?_ ?_ ?_
    · simp [Revocation.perform, Store.revokeWhere]
    · exact ancestorsRevoked_of_ages hAges hAll
    · exact allGone_perform hSelects
    · intro call hMem
      refine ⟨knows_of_ages hAges (hKnows call hMem), ?_⟩
      rintro userId id session profile ip rfl hUser
      exact absurd ⟨id, session, profile, ip, by rw [hUser]⟩ (hNone _ hMem)
    · intro dto s _
      simp only [program, enter]
      split
      · exact ⟨trivial, by rintro _ _ _ _ _ ⟨⟩⟩
      · exact ⟨trivial, by rintro _ _ _ _ _ ⟨⟩⟩
    · intro o s s' call call' hI hCall _ hStep
      obtain ⟨hLength, hAncestors, hGone⟩ := hI
      refine ⟨⟨?_, (knows_step hAncestors hCall.1 hStep).1, allGone_step hLength hGone hCall hStep⟩,
        rightful_step hGone hAncestors hCall hStep⟩
      rcases step_ages hStep with hAges' | ⟨_, _, _, _, _, -, -, rfl⟩
      · exact Nat.le_trans hLength (Nat.le_of_eq (Related.length_eq hAges').symm)
      · exact Nat.le_trans hLength (by simp [Store.create])
    · intro o s s' call call' other _ _ hOther _ hStep
      exact ⟨knows_other hStep hOther.1, hOther.2⟩
  exact hRun.1.2.2

/-- Every session that was there, and every one obtained from it, is gone for good exactly when no
refresh of the user stands between its claim and its insert and the filter misses no row. -/
theorem revocation_complete_iff (hStart : ∀ row ∈ start.sessions, row.ancestors = [])
    (h : (program env).Reaches anyStep (Program.idle start) c) :
    (∀ c', (program env).Reaches anyStep ⟨r.perform c.store, c.calls⟩ c' →
      AllGone r c.store c'.store) ↔
    (∀ call ∈ c.calls, ¬ Inserting r.userId call) ∧
      ∀ row ∈ c.store.sessions, row.userId = some r.userId → row.Unrevoked →
        r.Selects row ∨ r.Keeps row := by
  obtain ⟨hAll, hKnows⟩ := knows_of_reaches hStart h
  constructor
  · intro hGone
    constructor
    · rintro _ hMem ⟨id, session, profile, ip, rfl⟩
      obtain ⟨before, after, hCalls⟩ := List.append_of_mem hMem
      obtain ⟨hRevoked, hEarlier⟩ := hKnows _ hMem
      let o : Outcome := ⟨0, "", 0⟩
      let new := rotated o r.userId id session profile ip
      have hNext : (program env).Reaches anyStep ⟨r.perform c.store, c.calls⟩
          ⟨(r.perform c.store).create new, before ++ .done :: after⟩ := by
        rw [hCalls]
        exact Relation.ReflTransGen.single (.call before after (anyStep_holds o _ _) rfl)
      have hAt : ((r.perform c.store).create new).sessions[c.store.sessions.length]? = some new := by
        simp [Store.create, Revocation.perform, Store.revokeWhere]
      have hOld : Derives (· < c.store.sessions.length) c.store.sessions.length new :=
        .inr ⟨id, List.mem_cons_self, lt_of_revoked hRevoked⟩
      have hNotKept : ¬ Derives (r.Kept c.store) c.store.sessions.length new := by
        rintro (hKept | ⟨ancestor, hAncestor, hKept⟩)
        · exact Nat.lt_irrefl _ (lt_of_kept hKept)
        · rcases List.mem_cons.mp hAncestor with rfl | hFar
          · exact not_kept_of_revoked hRevoked hKept
          · exact not_kept_of_revoked (hEarlier ancestor hFar) hKept
      cases hGone _ hNext _ new hAt rfl hOld hNotKept
    · intro row hMem hUser hUnrevoked
      by_contra hMissed
      rw [not_or] at hMissed
      obtain ⟨id, hRow⟩ := List.mem_iff_getElem?.mp hMem
      have hSame : (r.perform c.store).sessions[id]? = some row := by
        rw [Revocation.perform, Store.revokeWhere, List.getElem?_map, hRow, Option.map_some,
          if_neg hMissed.1]
      have hNotKept : ¬ Derives (r.Kept c.store) id row := by
        rintro (⟨row', hRow', hKeeps, -⟩ | ⟨ancestor, hAncestor, hKept⟩)
        · obtain rfl : row = row' := Option.some.inj (hRow.symm.trans hRow')
          exact hMissed.2 hKeeps
        · exact not_kept_of_revoked (hAll row hMem ancestor hAncestor) hKept
      exact hUnrevoked (hGone _ (Program.Reaches.refl _) id row hSame hUser
        (.inl (List.getElem?_eq_some_iff.mp hRow).1) hNotKept)
  · rintro ⟨hNone, hSelects⟩ c' hRun
    exact allGone_of_reaches hAll hKnows hNone hSelects hRun

end Complete

/-- The user's only device. -/
def account : Env := ⟨Bcrypt.plain, fun _ => "", fun _ => some "u1", 30⟩

def oneDevice : Store account :=
  ⟨fun _ => none, [newSession ⟨1, "a1", 0⟩ "u1" "user" none ⟨none, none, none, none⟩ []]⟩

def claimed : List (Move RefreshTokenDto Outcome) :=
  [.enter ⟨(newSession ⟨1, "a1", 0⟩ "u1" "user" none ⟨none, none, none, none⟩ [] :
      Session account).token, ""⟩, .run 0 ⟨2, "b2", 0⟩, .run 0 ⟨2, "b2", 0⟩]

def revocations : List Revocation :=
  [.logoutAll "u1", .completePasswordReset "u1", .changePassword "u1" (some "z9"),
    .revokeOtherSessions "u1" "z9", .handleTokenTheft "u1", .setAdminStatus "u1"]

/-- The refresh has claimed the session, the revocation runs, the refresh inserts the next one. -/
theorem successor_survives :
    revocations.length = 6 ∧ ∀ r ∈ revocations, ∃ c c', (program account).Reaches anyStep (Program.idle oneDevice) c ∧
      (program account).Reaches anyStep ⟨r.perform c.store, c.calls⟩ c' ∧
      ¬ AllGone r c.store c'.store := by
  refine ⟨rfl, ?_⟩
  have hRuns : revocations.all (fun r => r.userId == "u1" &&
      ((program account).schedule claimed (Program.idle oneDevice)).any fun c =>
        c.store.sessions.length == 1 &&
        c.store.sessions[0]?.any (fun row => row.isRevoked == some true) &&
        ((program account).schedule [.run 0 ⟨3, "b2", 0⟩] ⟨r.perform c.store, c.calls⟩).any fun c' =>
          c'.store.sessions[1]?.any fun row => row.userId == some "u1" && row.ancestors == [0] &&
            row.isRevoked == some false) = true := by
    decide +kernel
  intro r hMem
  have hRun := List.all_eq_true.mp hRuns r hMem
  simp only [Bool.and_eq_true, Option.any_eq_true, beq_iff_eq] at hRun
  obtain ⟨hUser, c, hReached, ⟨hLength, parent, hParent, hRevoked⟩, c', hLater, row, hRow,
    ⟨hRowUser, hAncestors⟩, hAlive⟩ := hRun
  refine ⟨c, c', Program.reaches_of_schedule hReached, Program.reaches_of_schedule hLater, ?_⟩
  intro hGone
  have hOld : Derives (· < c.store.sessions.length) 1 row :=
    .inr ⟨0, by simp [hAncestors], by simp [hLength]⟩
  have hNotKept : ¬ Derives (r.Kept c.store) 1 row := by
    rintro (hKept | ⟨ancestor, hAncestor, hKept⟩)
    · exact absurd (lt_of_kept hKept) (by simp [hLength])
    · rw [hAncestors, List.mem_singleton] at hAncestor
      subst hAncestor
      exact not_kept_of_revoked ⟨parent, hParent, hRevoked⟩ hKept
  have hDead := hGone 1 row hRow (by rw [hRowUser, hUser]) hOld hNotKept
  rw [hAlive] at hDead
  cases hDead

theorem idle_account_revoked :
    ∃ c, (program account).Reaches anyStep (Program.idle oneDevice) c ∧
      ∀ c', (program account).Reaches anyStep
        ⟨Revocation.perform (.changePassword "u1" none) c.store, c.calls⟩ c' →
        AllGone (.changePassword "u1" none) c.store c'.store := by
  have hStart : ∀ row ∈ oneDevice.sessions, row.ancestors = [] := by
    intro row hMem
    rw [List.mem_singleton.mp hMem]
    rfl
  refine ⟨Program.idle oneDevice, .refl _, ?_⟩
  apply (revocation_complete_iff hStart (Program.Reaches.refl _)).mpr
  constructor
  · intro call hMem
    cases hMem
  · intro row _ hUser hUnrevoked
    exact .inl ⟨hUser, hUnrevoked, nofun⟩

end FarmBackend.Sessions
