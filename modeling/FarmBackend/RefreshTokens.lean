import FarmBackend.Sessions

/-!
# Which token a refresh honours

The hash covers 72 bytes of a token. The header, the dot and what the payload opens with are longer
than that, so all tokens of one user look alike.
-/

namespace FarmBackend.Sessions
open Interleaving Rows Bcrypt

set_option autoImplicit false

section Layout
variable {env : Env}

/-- What a token of a user opens with: the header and the first 27 bytes of the payload. -/
def opening (userId : UserId) : String :=
  encodePart HEADER ++ "." ++
    String.ofList (Base64Url.encode ((bytes (beginning userId)).take 27))

theorem length_take_beginning {userId : UserId} (h : userId.length = 36) :
    ((bytes (beginning userId)).take 27).length = 3 * 9 := by
  have hLength := length_le_bytes (beginning userId)
  have hText : (beginning userId).length = 8 + userId.length := by
    rw [beginning, String.length_append]
    rfl
  rw [List.length_take]
  omega

theorem signAsync_eq_opening (env : Env) {claims : Claims} (h : claims.sub.length = 36) :
    ∃ rest, signAsync env claims = opening claims.sub ++ rest := by
  obtain ⟨more, hText⟩ : ∃ more, claims.text = beginning claims.sub ++ more := ⟨_, rfl⟩
  have hBytes : bytes claims.text =
      (bytes (beginning claims.sub)).take 27 ++ ((bytes (beginning claims.sub)).drop 27 ++ bytes more) := by
    rw [hText, bytes_append, ← List.append_assoc, List.take_append_drop]
  have hPart : encodePart claims.text =
      String.ofList (Base64Url.encode ((bytes (beginning claims.sub)).take 27)) ++
        String.ofList (Base64Url.encode ((bytes (beginning claims.sub)).drop 27 ++ bytes more)) := by
    rw [encodePart, hBytes, Base64Url.encode_append (length_take_beginning h), String.ofList_append]
  refine ⟨String.ofList (Base64Url.encode ((bytes (beginning claims.sub)).drop 27 ++ bytes more)) ++
    ("." ++ env.sign (encodePart HEADER ++ "." ++ encodePart claims.text)), ?_⟩
  rw [signAsync, opening, hPart]
  simp only [String.append_assoc]

theorem width_le_opening {userId : UserId} (h : userId.length = 36) :
    WIDTH ≤ (bytes (opening userId)).length := by
  have hHeader : (encodePart HEADER ++ ".").length = 37 := by decide +kernel
  have hEncoded := Base64Url.length_encode (length_take_beginning h)
  have hLength := length_le_bytes (opening userId)
  rw [opening, String.length_append, hHeader, String.length_ofList, hEncoded] at hLength
  exact Nat.le_trans (by decide) hLength

/-- All tokens of a user agree in the bytes that are hashed. -/
theorem prefixOf_signAsync {claims : Claims} (h : claims.sub.length = 36) :
    prefixOf (signAsync env claims) = prefixOf (opening claims.sub) := by
  obtain ⟨rest, hToken⟩ := signAsync_eq_opening env h
  rw [hToken, prefixOf_append (width_le_opening h)]

/-- The payload of a token is read back, whoever has signed it. -/
theorem decodeJwtPayload_signAsync (signer : Env) (claims : Claims) :
    decodeJwtPayload env (signAsync signer claims) = env.subOf (bytes claims.text) := by
  have hHeader : '.' ∉ (encodePart HEADER).toList := by
    rw [encodePart, String.toList_ofList]
    exact Base64Url.dot_notMem_encode _
  have hSplit : ∀ signature : List Char,
      (((encodePart HEADER).toList ++ '.' :: ((encodePart claims.text).toList ++
        '.' :: signature)).splitOn '.')[1]? = some (encodePart claims.text).toList := by
    intro signature
    rw [List.splitOn_append_cons_self_of_not_mem hHeader,
      List.splitOn_append_cons_self_of_not_mem (by
        rw [encodePart, String.toList_ofList]
        exact Base64Url.dot_notMem_encode _)]
    rfl
  have hText : (signAsync signer claims).toList = (encodePart HEADER).toList ++ '.' ::
      ((encodePart claims.text).toList ++ '.' ::
        (signer.sign (encodePart HEADER ++ "." ++ encodePart claims.text)).toList) := by
    simp [signAsync, String.toList_append]
  rw [decodeJwtPayload, hText, hSplit, Option.bind_some, encodePart, String.toList_ofList,
    Base64Url.decode_encode]

end Layout

/-- A session stores the hash of a token that was issued to its user; `id` columns are 36 characters
long. -/
def Issued {env : Env} (row : Session env) : Prop :=
  ∃ claims salt, row.userId = some claims.sub ∧ claims.sub.length = 36 ∧
    row.token = signAsync env claims ∧ row.refreshToken = env.bcrypt.hash salt row.token

theorem issued_newSession {env : Env} {o : Outcome} {userId : UserId} {role : String}
    {walletId : Option String} {device : Device} {ancestors : List SessionId}
    (h : userId.length = 36) :
    Issued (newSession o userId role walletId device ancestors : Session env) :=
  ⟨issueTokens env o userId role walletId, o.salt, rfl, h, rfl, rfl⟩

section Honoured
variable {env : Env} {s final : Store env} {now : ℕ} {t ip : String}

/-- New tokens are issued only for the token of an active session of the user it names, and it is
that session which is consumed. -/
def HonoursIssued (now : ℕ) (s : Store env) (t : String) : Prop :=
  ∀ ip final, (program env).Alone (LookedUpAt now) s (enter ⟨t, ip⟩) final →
    s.sessions.length < final.sessions.length →
    ∃ sub id row usedAt new, decodeJwtPayload env t = some sub ∧ s.sessions[id]? = some row ∧
      row.Active sub now ∧ row.token = t ∧
      final.sessions = s.sessions.modify id (·.exchange usedAt) ++ [new]

theorem alone_done (s : Store env) : (program env).Alone (LookedUpAt now) s .done s :=
  .ends (show LookedUpAt now ⟨now, "", 0⟩ s .done from trivial) rfl

theorem length_theft {userId : UserId}
    (h : (program env).Alone (LookedUpAt now) s (.theft userId) final) :
    final.sessions.length = s.sessions.length := by
  cases h with
  | ends _ hStep => rfl
  | next _ hStep hRest =>
    cases hStep
    cases hRest with
    | ends _ _ => simp [Store.revokeWhere]
    | next _ hStep _ => cases hStep

theorem length_lost {userId : UserId} {id : SessionId}
    (h : (program env).Alone (LookedUpAt now) s (.lost userId id) final) :
    final.sessions.length = s.sessions.length := by
  cases h with
  | ends _ hStep => rfl
  | next _ hStep hRest =>
    obtain ⟨rfl, rfl⟩ := lost_cases hStep
    exact length_theft hRest

/-- A refresh that issues tokens has claimed the session it found. -/
theorem issued_by_alone (h : (program env).Alone (LookedUpAt now) s (enter ⟨t, ip⟩) final)
    (hIssues : s.sessions.length < final.sessions.length) :
    ∃ sub row id usedAt new, decodeJwtPayload env t = some sub ∧
      ((s.activeSessions sub now).find? fun candidate =>
        env.bcrypt.compare t candidate.1.refreshToken) = some (row, id) ∧
      row.Claimable ∧ final.sessions = s.sessions.modify id (·.exchange usedAt) ++ [new] := by
  unfold enter at h
  cases hDecoded : decodeJwtPayload env t with
  | none =>
    simp only [hDecoded] at h
    cases h with
    | ends _ _ => exact absurd hIssues (Nat.lt_irrefl _)
    | next _ hStep _ => cases hStep
  | some sub =>
    simp only [hDecoded] at h
    cases h with
    | ends _ _ => exact absurd hIssues (Nat.lt_irrefl _)
    | next hNow hStep hRest =>
      obtain ⟨rfl, row, id, hFound, ⟨-, rfl⟩ | ⟨-, rfl⟩⟩ := find_cases hStep
      · exact absurd (length_theft hRest) (Nat.ne_of_gt hIssues)
      · rw [show _ = now from hNow] at hFound
        cases hRest with
        | ends _ _ => exact absurd hIssues (Nat.lt_irrefl _)
        | next _ hClaim hRest =>
          rcases claim_cases hClaim with ⟨row', hRow', hClaimable, rfl, rfl⟩ | ⟨rfl, rfl⟩
          · have hRow := (mem_activeSessions.mp (List.mem_of_find?_eq_some hFound)).1
            obtain rfl : row = row' := Option.some.inj (hRow.symm.trans hRow')
            cases hRest with
            | ends _ _ => simp [Store.exchange] at hIssues
            | next _ hIssue hRest =>
              cases hIssue
              cases hRest with
              | ends _ _ => exact ⟨sub, row, id, _, _, rfl, hFound, hClaimable, rfl⟩
              | next _ hStep _ => cases hStep
          · exact absurd (length_lost hRest) (Nat.ne_of_gt hIssues)

/-- Among sessions that no comparison tells apart the first is found, or none. -/
theorem find?_eq_head? {α : Type} {l : List α} {p : α → Bool} {a : α} (h : l.find? p = some a)
    (hAlike : ∀ b ∈ l, p b = true) : l.head? = some a := by
  cases l with
  | nil => cases h
  | cons b l =>
    rw [List.find?_cons_of_pos (hAlike b List.mem_cons_self)] at h
    exact h

theorem compare_iff (hTruncates : env.bcrypt.Truncates) {row : Session env} (h : Issued row) :
    env.bcrypt.compare t row.refreshToken = true ↔ prefixOf t = prefixOf row.token := by
  obtain ⟨claims, salt, -, -, -, hHash⟩ := h
  rw [hHash, hTruncates]

theorem prefixOf_token {userId : UserId} {row : Session env} (h : Issued row)
    (hUser : row.userId = some userId) : prefixOf row.token = prefixOf (opening userId) := by
  obtain ⟨claims, salt, hSub, hLength, hToken, -⟩ := h
  obtain rfl : claims.sub = userId := Option.some.inj (hSub.symm.trans hUser)
  rw [hToken, prefixOf_signAsync hLength]

theorem modify_exchange_inj {sessions : List (Session env)} {id id' : SessionId} {a b : ℕ}
    {row new new' : Session env} (hRow : sessions[id]? = some row) (hClaimable : row.Claimable)
    (h : sessions.modify id (·.exchange a) ++ [new] =
      sessions.modify id' (·.exchange b) ++ [new']) : id' = id := by
  by_contra hNe
  have hList := (List.append_inj' h rfl).1
  have hAt : (sessions.modify id (·.exchange a))[id]? =
      (sessions.modify id' (·.exchange b))[id]? := by rw [hList]
  rw [getElem?_modify_self _ hRow, getElem?_modify_ne _ hNe, hRow] at hAt
  have hRevoked : row.isRevoked = some true :=
    congrArg Session.isRevoked (Option.some.inj hAt).symm
  rw [hClaimable.1] at hRevoked
  cases hRevoked

/-- The newest active session that can be claimed is consumed by every string that agrees with its
token in what is hashed. -/
theorem newest_exchanged (hTruncates : env.bcrypt.Truncates) {sub : UserId}
    (hIssued : ∀ row ∈ s.sessions, Issued row) (hDecoded : decodeJwtPayload env t = some sub)
    {row : Session env} {id : SessionId} (hNewest : (s.activeSessions sub now).head? = some (row, id))
    (hClaimable : row.Claimable) (hPrefix : prefixOf t = prefixOf row.token) (ip : String) :
    ∃ new, (program env).Alone (LookedUpAt now) s (enter ⟨t, ip⟩) ((s.exchange id now).create new) := by
  have hMem : (row, id) ∈ s.activeSessions sub now := List.mem_of_mem_head? hNewest
  obtain ⟨hRow, hActive⟩ := mem_activeSessions.mp hMem
  have hCompare : env.bcrypt.compare t row.refreshToken = true :=
    (compare_iff hTruncates (hIssued row (List.mem_of_getElem? hRow))).mpr hPrefix
  have hFound : ((s.activeSessions sub now).find? fun candidate =>
      env.bcrypt.compare t candidate.1.refreshToken) = some (row, id) := by
    cases hList : s.activeSessions sub now with
    | nil =>
      rw [hList] at hMem
      cases hMem
    | cons first rest =>
      rw [hList, List.head?_cons] at hNewest
      obtain rfl : first = (row, id) := Option.some.inj hNewest
      exact List.find?_cons_of_pos hCompare
  let o : Outcome := ⟨now, "", 0⟩
  refine ⟨rotated o sub id row (s.profiles sub) ip, ?_⟩
  have hFind : step o s (enter ⟨t, ip⟩) = some (s, .claim sub id row (s.profiles sub) ip) := by
    simp [enter, hDecoded, step, o, hFound, hClaimable.2]
  have hClaim : step o s (.claim sub id row (s.profiles sub) ip) =
      some (s.exchange id now, .issue sub id row (s.profiles sub) ip) := by
    simp only [step]
    rw [if_pos ⟨row, hRow, hClaimable⟩]
  refine .next ?_ hFind (.next trivial hClaim (.next trivial rfl (alone_done _)))
  simp [enter, hDecoded, LookedUpAt, o]

/-- So is it by a token of the user that anybody has signed. -/
theorem forged_token_exchanges (hTruncates : env.bcrypt.Truncates)
    (hIssued : ∀ row ∈ s.sessions, Issued row) {claims : Claims} {row : Session env}
    {id : SessionId} (hSub : env.subOf (bytes claims.text) = some claims.sub)
    (hNewest : (s.activeSessions claims.sub now).head? = some (row, id))
    (hClaimable : row.Claimable) (signer : Env) (ip : String) :
    ∃ new, (program env).Alone (LookedUpAt now) s (enter ⟨signAsync signer claims, ip⟩)
      ((s.exchange id now).create new) := by
  obtain ⟨hRow, hActive⟩ := mem_activeSessions.mp (List.mem_of_mem_head? hNewest)
  have hRowIssued := hIssued row (List.mem_of_getElem? hRow)
  have hLength : claims.sub.length = 36 := by
    obtain ⟨claims', _, hSub', hLength', -, -⟩ := hRowIssued
    rw [hActive.1] at hSub'
    rwa [Option.some.inj hSub']
  have hDecoded : decodeJwtPayload env (signAsync signer claims) = some claims.sub := by
    rw [decodeJwtPayload_signAsync, hSub]
  apply newest_exchanged hTruncates hIssued hDecoded hNewest hClaimable
  rw [prefixOf_signAsync hLength, prefixOf_token hRowIssued hActive.1]

theorem newest_honoured (hTruncates : env.bcrypt.Truncates)
    (hIssued : ∀ row ∈ s.sessions, Issued row) (h : HonoursIssued now s t) {sub : UserId}
    {row : Session env} {id : SessionId} (hDecoded : decodeJwtPayload env t = some sub)
    (hNewest : (s.activeSessions sub now).head? = some (row, id)) (hClaimable : row.Claimable)
    (hPrefix : prefixOf t = prefixOf row.token) : row.token = t := by
  obtain ⟨new, hAlone⟩ := newest_exchanged hTruncates hIssued hDecoded hNewest hClaimable hPrefix ""
  obtain ⟨-, id', row', usedAt, new', -, hRow', -, hToken, hFinal⟩ :=
    h "" _ hAlone (by simp [Store.create, Store.exchange])
  have hRow := (mem_activeSessions.mp (List.mem_of_mem_head? hNewest)).1
  obtain rfl := modify_exchange_inj hRow hClaimable hFinal
  obtain rfl : row' = row := Option.some.inj (hRow'.symm.trans hRow)
  exact hToken

/-- A refresh honours nothing but issued tokens exactly when the newest active session of the user
that the presented string names cannot be claimed, is the session of that string, or differs from it
in what is hashed. -/
theorem honours_issued_iff (hTruncates : env.bcrypt.Truncates)
    (hIssued : ∀ row ∈ s.sessions, Issued row) :
    HonoursIssued now s t ↔ ∀ sub row id, decodeJwtPayload env t = some sub →
      (s.activeSessions sub now).head? = some (row, id) → row.Claimable →
      prefixOf t = prefixOf row.token → row.token = t := by
  constructor
  · intro h sub row id hDecoded hNewest hClaimable hPrefix
    exact newest_honoured hTruncates hIssued h hDecoded hNewest hClaimable hPrefix
  · intro h ip final hAlone hIssues
    obtain ⟨sub, row, id, usedAt, new, hDecoded, hFound, hClaimable, hFinal⟩ :=
      issued_by_alone hAlone hIssues
    have hMem := List.mem_of_find?_eq_some hFound
    have hCompare := List.find?_some hFound
    obtain ⟨hRow, hActive⟩ := mem_activeSessions.mp hMem
    have hPrefix : prefixOf t = prefixOf row.token :=
      (compare_iff hTruncates (hIssued row (List.mem_of_getElem? hRow))).mp hCompare
    have hAlike : ∀ other ∈ s.activeSessions sub now,
        env.bcrypt.compare t other.1.refreshToken = true := by
      intro other hOther
      obtain ⟨hRow', hActive'⟩ := mem_activeSessions.mp hOther
      have hIssued' := hIssued other.1 (List.mem_of_getElem? hRow')
      rw [compare_iff hTruncates hIssued', prefixOf_token hIssued' hActive'.1, hPrefix,
        prefixOf_token (hIssued row (List.mem_of_getElem? hRow)) hActive.1]
    have hNewest := find?_eq_head? hFound hAlike
    exact ⟨sub, id, row, usedAt, new, hDecoded, hRow, hActive,
      h sub row id hDecoded hNewest hClaimable hPrefix, hFinal⟩

end Honoured

/-- Refreshing keeps the sessions issued. -/
theorem issued_of_reaches {env : Env} {start : Store env} {c : Config (Store env) (Call env)}
    (hStart : ∀ row ∈ start.sessions, Issued row)
    (h : (program env).Reaches anyStep (Program.idle start) c) :
    ∀ row ∈ c.store.sessions, Issued row := by
  let Knows : Call env → Prop
    | .claim userId _ _ _ _ | .issue userId _ _ _ _ => userId.length = 36
    | _ => True
  refine (h.assertions (fun s => ∀ row ∈ s.sessions, Issued row) (fun _ => Knows) ⟨hStart, ?_⟩
    ?_ ?_ ?_).1
  · intro call hMem
    cases hMem
  · intro dto s _
    simp only [program, enter]
    split <;> trivial
  · intro o s s' call call' hAll hKnows _ hStep
    cases call with
    | find userId raw ip =>
      obtain ⟨rfl, row, id, hFound, ⟨-, rfl⟩ | ⟨-, rfl⟩⟩ := find_cases hStep
      · exact ⟨hAll, trivial⟩
      · obtain ⟨hRow, hActive⟩ := mem_activeSessions.mp (List.mem_of_find?_eq_some hFound)
        obtain ⟨claims, _, hSub, hLength, -, -⟩ := hAll row (List.mem_of_getElem? hRow)
        obtain rfl : userId = claims.sub := Option.some.inj (hActive.1.symm.trans hSub)
        exact ⟨hAll, hLength⟩
    | claim userId id session profile ip =>
      rcases claim_cases hStep with ⟨row, hRow, -, rfl, rfl⟩ | ⟨rfl, rfl⟩
      · refine ⟨?_, hKnows⟩
        intro changed hMem
        obtain ⟨other, hAt⟩ := List.mem_iff_getElem?.mp hMem
        rcases getElem?_modify_cases hAt with ⟨-, old, hOld, rfl⟩ | ⟨-, hOld⟩
        · exact hAll old (List.mem_of_getElem? hOld)
        · exact hAll changed (List.mem_of_getElem? hOld)
      · exact ⟨hAll, trivial⟩
    | lost userId id =>
      obtain ⟨rfl, rfl⟩ := lost_cases hStep
      exact ⟨hAll, trivial⟩
    | theft userId =>
      cases hStep
      refine ⟨?_, trivial⟩
      intro changed hMem
      obtain ⟨row, hRow, rfl⟩ := List.mem_map.mp hMem
      split
      · exact hAll row hRow
      · exact hAll row hRow
    | issue userId id session profile ip =>
      cases hStep
      refine ⟨?_, trivial⟩
      intro row hMem
      rcases List.mem_append.mp hMem with hOld | hNew
      · exact hAll row hOld
      · rw [List.mem_singleton.mp hNew]
        exact issued_newSession hKnows
    | done => cases hStep
  · intro o s s' call call' other _ _ hOther _ _
    exact hOther

/-- A hash that is the bytes it covers. -/
def truncating : Bcrypt :=
  ⟨List UInt8, fun _ s => prefixOf s, fun t hash => prefixOf t == hash⟩

theorem truncating_truncates : truncating.Truncates := by
  intro salt s t
  simp [truncating]

/-- The `sub` of a payload that opens with it. -/
def readSub (payload : List UInt8) : Option UserId :=
  if payload.take 8 = bytes (beginning "") then
    some (String.ofList (((payload.drop 8).takeWhile (· ≠ 34)).map fun b => Char.ofNat b.toNat))
  else none

def server : Env := ⟨truncating, fun _ => "c2lnbmF0dXJl", readSub, 30⟩

def forger : Env := { server with sign := fun _ => "Zm9yZ2Vk" }

def victim : UserId := "00000000-0000-4000-8000-000000000001"

def loggedIn (now : ℕ) (jti : String) : Session server :=
  newSession ⟨now, jti, 0⟩ victim "user" none ⟨none, none, none, none⟩ []

/-- Two devices of one user. -/
def twoDevices : Store server := ⟨fun _ => none, [loggedIn 1 "a1", loggedIn 2 "b2"]⟩

theorem twoDevices_issued : ∀ row ∈ twoDevices.sessions, Issued row := by
  intro row hMem
  simp only [twoDevices, List.mem_cons, List.not_mem_nil, or_false] at hMem
  rcases hMem with rfl | rfl
  · exact issued_newSession rfl
  · exact issued_newSession rfl

theorem twoDevices_active :
    twoDevices.activeSessions victim 3 = [(loggedIn 2 "b2", 1), (loggedIn 1 "a1", 0)] := by
  have hActive : ∀ row ∈ twoDevices.sessions.zipIdx, row.1.Active victim 3 := by
    intro row hMem
    simp only [twoDevices, List.zipIdx_cons, List.zipIdx_nil, List.mem_cons, List.not_mem_nil,
      or_false] at hMem
    rcases hMem with rfl | rfl
    · exact ⟨rfl, ⟨_, rfl, by decide⟩, nofun⟩
    · exact ⟨rfl, ⟨_, rfl, by decide⟩, nofun⟩
  rw [Store.activeSessions,
    List.filter_eq_self.mpr fun row hMem => decide_eq_true (hActive row hMem)]
  rfl

theorem twoDevices_newest :
    (twoDevices.activeSessions victim 3).head? = some (loggedIn 2 "b2", 1) := by
  rw [twoDevices_active, List.head?_cons]

/-- The token of the other device, and one that was never issued. -/
def mistaken : List String :=
  [(loggedIn 1 "a1").token, signAsync forger (issueTokens server ⟨2, "b2", 0⟩ victim "user" none)]

theorem victim_decoded (signer : Env) {claims : Claims}
    (h : claims = issueTokens server ⟨1, "a1", 0⟩ victim "user" none ∨
      claims = issueTokens server ⟨2, "b2", 0⟩ victim "user" none) :
    decodeJwtPayload server (signAsync signer claims) = some victim := by
  rw [decodeJwtPayload_signAsync]
  rcases h with rfl | rfl
  · decide +kernel
  · decide +kernel

theorem foreign_tokens_honoured :
    mistaken.length = 2 ∧ ∀ t ∈ mistaken, ¬ HonoursIssued 3 twoDevices t := by
  refine ⟨rfl, ?_⟩
  have hOther : mistaken.all (fun t => (loggedIn 2 "b2").token != t) = true := by decide +kernel
  have hPrefix : ∀ signer o, prefixOf (signAsync signer (issueTokens server o victim "user" none)) =
      prefixOf (opening victim) := by
    intro signer o
    have hLength : (issueTokens server o victim "user" none).sub.length = 36 :=
      (rfl : victim.length = 36)
    exact prefixOf_signAsync hLength
  intro t hMem hHonours
  have hT := List.all_eq_true.mp hOther t hMem
  have hLooks : decodeJwtPayload server t = some victim ∧
      prefixOf t = prefixOf (loggedIn 2 "b2").token := by
    simp only [mistaken, List.mem_cons, List.not_mem_nil, or_false] at hMem
    rcases hMem with rfl | rfl
    · exact ⟨victim_decoded server (.inl rfl), (hPrefix server _).trans (hPrefix server _).symm⟩
    · exact ⟨victim_decoded forger (.inr rfl), (hPrefix forger _).trans (hPrefix server _).symm⟩
  rw [bne_iff_ne] at hT
  exact hT (newest_honoured truncating_truncates twoDevices_issued hHonours hLooks.1
    twoDevices_newest ⟨rfl, rfl⟩ hLooks.2)

theorem newest_token_honoured : HonoursIssued 3 twoDevices (loggedIn 2 "b2").token := by
  apply (honours_issued_iff truncating_truncates twoDevices_issued).mpr
  intro sub row id hSub hNewest _ _
  obtain rfl : victim = sub :=
    Option.some.inj ((victim_decoded server (.inr rfl)).symm.trans hSub)
  rw [twoDevices_newest] at hNewest
  cases hNewest
  rfl

end FarmBackend.Sessions
