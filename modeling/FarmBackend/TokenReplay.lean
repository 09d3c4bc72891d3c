import FarmBackend.Sessions

/-!
# A refresh token presented again

With exact comparisons. A session is exchanged and revoked by one update, and the lookup leaves out
revoked sessions, so the reuse test never sees an exchanged one.
-/

namespace FarmBackend.Sessions
open Interleaving Rows

set_option autoImplicit false

section Replay
variable {env : Env} {s s' start final : Store env} {call call' : Call env} {o : Outcome}
variable {c : Config (Store env) (Call env)}

/-- The random part of a token has not come up before. -/
def Fresh : Guard (Store env) (Call env) Outcome := fun o s call =>
  match call with
  | .issue userId id session profile ip =>
    ∀ row ∈ s.sessions, row.token ≠ (rotated o userId id session profile ip).token
  | _ => True

instance : ∀ o s c, Decidable (@Fresh env o s c)
  | o, s, .issue userId id session profile ip => inferInstanceAs
      (Decidable (∀ row ∈ s.sessions, row.token ≠ (rotated o userId id session profile ip).token))
  | _, _, .find _ _ _ | _, _, .claim _ _ _ _ _ | _, _, .lost _ _ | _, _, .theft _ | _, _, .done =>
    instDecidableTrue

structure Sound (s : Store env) : Prop where
  revoked_of_used : ∀ row ∈ s.sessions, row.usedAt.isSome = true → row.isRevoked = some true
  hashed : ∀ row ∈ s.sessions, ∃ salt, row.refreshToken = env.bcrypt.hash salt row.token
  token_inj : ∀ (id id' : SessionId) (row row' : Session env), s.sessions[id]? = some row →
    s.sessions[id']? = some row' → row.token = row'.token → id = id'

def AllRevoked (userId : UserId) (s : Store env) : Prop :=
  ∀ row ∈ s.sessions, row.userId = some userId → row.isRevoked = some true

/-- Another table with the same tokens and hashes. -/
theorem Sound.of_related (h : Sound s)
    (hRows : Related (fun row row' => row'.token = row.token ∧
      row'.refreshToken = row.refreshToken ∧
      (row'.usedAt.isSome = true → row.usedAt.isSome = true ∧ row'.isRevoked = row.isRevoked ∨
        row'.isRevoked = some true)) s.sessions s'.sessions) : Sound s' := by
  constructor
  · intro row' hMem hUsed
    obtain ⟨id, hAt⟩ := List.mem_iff_getElem?.mp hMem
    obtain ⟨row, hRow, -, -, hKept⟩ := hRows.backward hAt
    rcases hKept hUsed with ⟨hBefore, hSame⟩ | hRevoked
    · rw [hSame]
      exact h.revoked_of_used row (List.mem_of_getElem? hRow) hBefore
    · exact hRevoked
  · intro row' hMem
    obtain ⟨id, hAt⟩ := List.mem_iff_getElem?.mp hMem
    obtain ⟨row, hRow, hToken, hHash, -⟩ := hRows.backward hAt
    rw [hToken, hHash]
    exact h.hashed row (List.mem_of_getElem? hRow)
  · intro id id' row₁ row₂ h₁ h₂ hToken
    obtain ⟨old₁, hOld₁, hToken₁, -, -⟩ := hRows.backward h₁
    obtain ⟨old₂, hOld₂, hToken₂, -, -⟩ := hRows.backward h₂
    exact h.token_inj id id' old₁ old₂ hOld₁ hOld₂ (by rw [← hToken₁, ← hToken₂, hToken])

theorem sound_exchange (h : Sound s) (id : SessionId) (now : ℕ) : Sound (s.exchange id now) := by
  refine h.of_related (related_modify ?_ ?_)
  · intro row
    exact ⟨rfl, rfl, fun hUsed => .inl ⟨hUsed, rfl⟩⟩
  · intro row _
    exact ⟨rfl, rfl, fun _ => .inr rfl⟩

theorem sound_revokeWhere (h : Sound s) (p : Session env → Prop) [DecidablePred p] :
    Sound (s.revokeWhere p) := by
  refine h.of_related (related_map ?_ _)
  intro row
  split
  · exact ⟨rfl, rfl, fun _ => .inr rfl⟩
  · exact ⟨rfl, rfl, fun hUsed => .inl ⟨hUsed, rfl⟩⟩

theorem sound_create {new : Session env} {salt : ℕ} (h : Sound s) (hUnused : new.usedAt = none)
    (hHash : new.refreshToken = env.bcrypt.hash salt new.token)
    (hFresh : ∀ row ∈ s.sessions, row.token ≠ new.token) : Sound (s.create new) := by
  constructor
  · intro row hMem hUsed
    rcases List.mem_append.mp hMem with hOld | hNew
    · exact h.revoked_of_used row hOld hUsed
    · rw [List.mem_singleton.mp hNew, hUnused] at hUsed
      cases hUsed
  · intro row hMem
    rcases List.mem_append.mp hMem with hOld | hNew
    · exact h.hashed row hOld
    · rw [List.mem_singleton.mp hNew]
      exact ⟨salt, hHash⟩
  · intro id id' row row' hRow hRow' hToken
    rcases getElem?_insert_cases hRow with hOld | ⟨hId, rfl⟩
    · rcases getElem?_insert_cases hRow' with hOld' | ⟨-, rfl⟩
      · exact h.token_inj id id' row row' hOld hOld' hToken
      · exact absurd hToken (hFresh row (List.mem_of_getElem? hOld))
    · rcases getElem?_insert_cases hRow' with hOld' | ⟨hId', -⟩
      · exact absurd hToken.symm (hFresh row' (List.mem_of_getElem? hOld'))
      · rw [hId, hId']

theorem sound_step (h : Sound s) (hFresh : Fresh o s call)
    (hStep : step o s call = some (s', call')) : Sound s' := by
  cases call with
  | find userId raw ip =>
    obtain ⟨rfl, -⟩ := find_cases hStep
    exact h
  | claim userId id session profile ip =>
    rcases claim_cases hStep with ⟨row, -, -, rfl, -⟩ | ⟨rfl, -⟩
    · exact sound_exchange h id o.now
    · exact h
  | lost userId id =>
    obtain ⟨rfl, -⟩ := lost_cases hStep
    exact h
  | theft userId =>
    cases hStep
    exact sound_revokeWhere h _
  | issue userId id session profile ip =>
    cases hStep
    exact sound_create h rfl rfl hFresh
  | done => cases hStep

theorem sound_of_reaches (hStart : Sound start)
    (h : (program env).Reaches Fresh (Program.idle start) c) : Sound c.store := by
  refine h.store_invariant Sound hStart ?_
  intro o s s' call call' hSound hFresh hStep
  exact sound_step hSound hFresh hStep

/-- Only the token of an unrevoked session that was not exchanged gets past the lookup. -/
theorem find_presented (hExact : env.bcrypt.Exact) (h : Sound s) {userId : UserId} {t ip : String}
    (hStep : step o s (.find userId t ip) = some (s', call')) :
    ∃ (id : SessionId) (row : Session env), s.sessions[id]? = some row ∧ row.token = t ∧
      row.usedAt = none := by
  obtain ⟨-, row, id, hFound, hCall⟩ := find_cases hStep
  obtain ⟨hRow, hActive⟩ := mem_activeSessions.mp (List.mem_of_find?_eq_some hFound)
  have hMem := List.mem_of_getElem? hRow
  obtain ⟨salt, hHash⟩ := h.hashed row hMem
  have hCompare := List.find?_some hFound
  rw [hHash, hExact] at hCompare
  refine ⟨id, row, hRow, hCompare.symm, ?_⟩
  rcases hCall with ⟨hUsed, -⟩ | ⟨hUnused, -⟩
  · exact absurd (h.revoked_of_used row hMem hUsed) hActive.2.2
  · exact hUnused

/-- A call that does not get past its lookup leaves the sessions as they were. -/
theorem alone_unchanged {t ip : String} (hNone : ∀ o userId, step o s (.find userId t ip) = none)
    (h : (program env).Alone anyStep s (enter ⟨t, ip⟩) final) : final = s := by
  unfold enter at h
  split at h
  · cases h with
    | ends _ _ => rfl
    | next _ hStep _ => cases hStep
  · cases h with
    | ends _ _ => rfl
    | next _ hStep _ => exact absurd hStep (by simp [program, hNone])

theorem enter_throws {t ip : String} (hNone : ∀ o userId, step o s (.find userId t ip) = none)
    (o : Outcome) : step o s (enter ⟨t, ip⟩) = none := by
  unfold enter
  split
  · rfl
  · exact hNone _ _

theorem unissued_throws (hExact : env.bcrypt.Exact) (h : Sound s) {t : String}
    (hNever : ∀ row ∈ s.sessions, row.token ≠ t) (ip : String) (o : Outcome) (userId : UserId) :
    step o s (.find userId t ip) = none := by
  by_contra hSome
  obtain ⟨⟨s', call'⟩, hStep⟩ := Option.ne_none_iff_exists'.mp hSome
  obtain ⟨id, row, hRow, hToken, -⟩ := find_presented hExact h hStep
  exact hNever row (List.mem_of_getElem? hRow) hToken

theorem replay_throws (hExact : env.bcrypt.Exact) (h : Sound s) {id : SessionId}
    {row : Session env} (hRow : s.sessions[id]? = some row) (hUsed : row.usedAt.isSome = true)
    (ip : String) (o : Outcome) (userId : UserId) :
    step o s (.find userId row.token ip) = none := by
  by_contra hSome
  obtain ⟨⟨s', call'⟩, hStep⟩ := Option.ne_none_iff_exists'.mp hSome
  obtain ⟨id', row', hRow', hToken, hUnused⟩ := find_presented hExact h hStep
  obtain rfl := h.token_inj id' id row' row hRow' hRow hToken
  obtain rfl : row' = row := Option.some.inj (hRow'.symm.trans hRow)
  rw [hUnused] at hUsed
  cases hUsed

/-- In every run of refresh calls, an exchanged token that is presented leaves every session of a
user revoked exactly when all of them are revoked by then, and a token that was never issued leaves
the sessions as they are. -/
theorem replay_revokes_iff (hExact : env.bcrypt.Exact) (hStart : Sound start)
    (h : (program env).Reaches Fresh (Program.idle start) c) :
    (∀ (id : SessionId) (row : Session env) (userId : UserId),
      c.store.sessions[id]? = some row → row.usedAt.isSome = true →
      ((∀ ip final, (program env).Alone anyStep c.store (enter ⟨row.token, ip⟩) final →
        AllRevoked userId final) ↔ AllRevoked userId c.store)) ∧
    ∀ t ip final, (∀ row ∈ c.store.sessions, row.token ≠ t) →
      (program env).Alone anyStep c.store (enter ⟨t, ip⟩) final → final = c.store := by
  have hSound := sound_of_reaches hStart h
  constructor
  · intro id row userId hRow hUsed
    constructor
    · intro hRevokes
      have hThrows := enter_throws (replay_throws hExact hSound hRow hUsed "") ⟨0, "", 0⟩
      exact hRevokes "" c.store (.ends (anyStep_holds _ _ _) hThrows)
    · intro hRevoked ip final hAlone
      rw [alone_unchanged (replay_throws hExact hSound hRow hUsed ip) hAlone]
      exact hRevoked
  · intro t ip final hNever hAlone
    exact alone_unchanged (unissued_throws hExact hSound hNever ip) hAlone

end Replay

/-- The `sub` of a payload that opens with one of two characters. -/
def readShortSub (payload : List UInt8) : Option UserId :=
  if payload.take 10 = Bcrypt.bytes (beginning "u1") then some "u1" else none

def exactServer : Env := ⟨Bcrypt.plain, fun _ => "", readShortSub, 30⟩

def device (now : ℕ) (jti : String) : Session exactServer :=
  newSession ⟨now, jti, 0⟩ "u1" "user" none ⟨none, none, none, none⟩ []

def devices : Store exactServer := ⟨fun _ => none, [device 1 "a1", device 2 "b2"]⟩

def refreshed : List (Move RefreshTokenDto Outcome) :=
  [.enter ⟨(device 2 "b2").token, ""⟩, .run 0 ⟨3, "c3", 0⟩, .run 0 ⟨3, "c3", 0⟩,
    .run 0 ⟨3, "c3", 0⟩]

theorem devices_sound : Sound devices := by
  have hTokens : ((device 1 "a1").token == (device 2 "b2").token) = false := by decide +kernel
  constructor
  · intro row hMem hUsed
    simp only [devices, List.mem_cons, List.not_mem_nil, or_false] at hMem
    rcases hMem with rfl | rfl <;> cases hUsed
  · intro row hMem
    simp only [devices, List.mem_cons, List.not_mem_nil, or_false] at hMem
    rcases hMem with rfl | rfl <;> exact ⟨0, rfl⟩
  · intro id id' row row' hRow hRow' hToken
    have hIds : ∀ {i : SessionId} {r : Session exactServer}, devices.sessions[i]? = some r →
        i = 0 ∧ r = device 1 "a1" ∨ i = 1 ∧ r = device 2 "b2" := by
      intro i r hAt
      rcases i with - | - | i
      · exact .inl ⟨rfl, (Option.some.inj hAt).symm⟩
      · exact .inr ⟨rfl, (Option.some.inj hAt).symm⟩
      · cases hAt
    rcases hIds hRow with ⟨rfl, rfl⟩ | ⟨rfl, rfl⟩
    · rcases hIds hRow' with ⟨rfl, rfl⟩ | ⟨rfl, rfl⟩
      · rfl
      · exact absurd hToken (beq_eq_false_iff_ne.mp hTokens)
    · rcases hIds hRow' with ⟨rfl, rfl⟩ | ⟨rfl, rfl⟩
      · exact absurd hToken.symm (beq_eq_false_iff_ne.mp hTokens)
      · rfl

theorem refreshed_reached :
    ∃ c, (program exactServer).Reaches Fresh (Program.idle devices) c ∧
      (∃ row, c.store.sessions[0]? = some row ∧ row.userId = some "u1" ∧
        row.isRevoked = some false) ∧
      ∃ row, c.store.sessions[1]? = some row ∧ row.usedAt = some 3 := by
  have hRun : (((program exactServer).guarded Fresh).schedule refreshed
      (Program.idle devices)).any (fun c =>
        c.store.sessions[0]?.any (fun row => row.userId == some "u1" &&
          row.isRevoked == some false) &&
        c.store.sessions[1]?.any fun row => row.usedAt == some 3) = true := by
    decide +kernel
  obtain ⟨c, hReach, hEnd⟩ := Program.reaches_of_guarded_any hRun
  simp only [Bool.and_eq_true, Option.any_eq_true, beq_iff_eq] at hEnd
  exact ⟨c, hReach, hEnd⟩

/-- 40 seconds after the exchange. -/
theorem replay_unnoticed :
    ∃ (c : Config (Store exactServer) (Call exactServer)) (row : Session exactServer),
      (program exactServer).Reaches Fresh (Program.idle devices) c ∧ row ∈ c.store.sessions ∧
      (∃ t ∈ row.usedAt, t + REFRESH_RACE_GRACE_MS < 40000) ∧
      (program exactServer).Alone (LookedUpAt 40000) c.store (enter ⟨row.token, ""⟩) c.store ∧
      ¬ AllRevoked "u1" c.store := by
  obtain ⟨c, hRun, ⟨other, hOther, hUser, hActive⟩, row, hRow, hUsed⟩ := refreshed_reached
  have hSound := sound_of_reaches devices_sound hRun
  have hIsUsed : row.usedAt.isSome = true := by
    rw [hUsed]
    rfl
  have hThrows := enter_throws (replay_throws Bcrypt.plain_exact hSound hRow hIsUsed "")
    ⟨40000, "", 0⟩
  refine ⟨c, row, hRun, List.mem_of_getElem? hRow, ⟨3, hUsed, by decide⟩, .ends ?_ hThrows, ?_⟩
  · unfold enter
    split
    · trivial
    · rfl
  · intro hRevoked
    have hOtherRevoked := hRevoked other (List.mem_of_getElem? hOther) hUser
    rw [hActive] at hOtherRevoked
    cases hOtherRevoked

theorem replay_not_revoking :
    ∃ (c : Config (Store exactServer) (Call exactServer)) (row : Session exactServer),
      (program exactServer).Reaches Fresh (Program.idle devices) c ∧ row ∈ c.store.sessions ∧
      row.usedAt = some 3 ∧ ¬ ∀ ip final,
        (program exactServer).Alone anyStep c.store (enter ⟨row.token, ip⟩) final →
        AllRevoked "u1" final := by
  obtain ⟨c, hRun, ⟨other, hOther, hUser, hActive⟩, row, hRow, hUsed⟩ := refreshed_reached
  refine ⟨c, row, hRun, List.mem_of_getElem? hRow, hUsed, ?_⟩
  rw [(replay_revokes_iff Bcrypt.plain_exact devices_sound hRun).1 1 row "u1" hRow
    (by rw [hUsed]; rfl)]
  intro hRevoked
  have hOtherRevoked := hRevoked other (List.mem_of_getElem? hOther) hUser
  rw [hActive] at hOtherRevoked
  cases hOtherRevoked

end FarmBackend.Sessions
