import FarmBackend.Accounts

/-!
# What a stranger can change about an account

A client that has no proof for an account calls the operations in any order. `Ignorant` is what it
lacks; `Demands` is what the recovery and linking paths would have to ask for.
-/

namespace FarmBackend.Accounts
open Interleaving Rows

set_option autoImplicit false

section Takeover
variable {env : Env} {victim : UserId} {s s' : Store env} {call call' : Call} {o : Outcome}

/-- The token carries the email of the account, as one of the two lookups compares it. -/
def DecodedIdToken.Names (decoded : DecodedIdToken) (user : User env) : Prop :=
  ∃ email ∈ user.email, decoded.email.getD "" = email ∨ decoded.email.map env.normalize = some email

instance (decoded : DecodedIdToken) (user : User env) : Decidable (decoded.Names user) :=
  inferInstanceAs (Decidable (∃ email ∈ user.email, _ ∨ _))

/-- The token belongs to the account: it is of the linked user, or of the verified email. -/
def DecodedIdToken.Proves (decoded : DecodedIdToken) (user : User env) : Prop :=
  user.firebaseUid = some decoded.uid ∨ decoded.emailVerified = some true ∧ decoded.Names user

instance (decoded : DecodedIdToken) (user : User env) : Decidable (decoded.Proves user) :=
  inferInstanceAs (Decidable (_ ∨ _))

/-- No session of the account, no Firebase token that belongs to it, no link that was sent to it. -/
def Ignorant (victim : UserId) : Guard (Store env) Call Outcome := fun o s call =>
  match call with
  | .completePasswordReset _ | .firebaseLogin _ =>
    ∀ decoded ∈ o.decoded, ∀ user ∈ s.users[victim]?, ¬ decoded.Proves user
  | .verifyEmail token =>
    ∀ row ∈ s.tokens, row.userId = victim → row.tokenHash ≠ env.sha256 (env.toLowerCase token)
  | .changePassword userId _ | .deleteAccount userId _ => userId ≠ victim
  | _ => True

/-- No reset by a bare email, and no token with the email of the account that is not verified. -/
def Demands (victim : UserId) : Guard (Store env) Call Outcome := fun o s call =>
  match call with
  | .resetPassword dto => ∀ email ∈ dto.email, ∀ user ∈ s.users[victim]?,
      user.email ≠ some (env.toLowerCase email)
  | .completePasswordReset _ | .firebaseLogin _ =>
    ∀ decoded ∈ o.decoded, ∀ user ∈ s.users[victim]?, decoded.Names user →
      decoded.emailVerified = some true
  | _ => True

def Stranger (victim : UserId) : Guard (Store env) Call Outcome := fun o s call =>
  Ignorant victim o s call ∧ Demands victim o s call

instance : ∀ o s c, Decidable (@Ignorant env victim o s c) := by
  intro o s c
  unfold Ignorant
  cases c <;> infer_instance

instance : ∀ o s c, Decidable (@Demands env victim o s c) := by
  intro o s c
  unfold Demands
  cases c <;> infer_instance

instance : ∀ o s c, Decidable (@Stranger env victim o s c) :=
  fun _ _ _ => inferInstanceAs (Decidable (_ ∧ _))

/-- The account is there, with the credentials it had. -/
def Untouched (before : User env) (victim : UserId) (s : Store env) : Prop :=
  ∃ user, s.users[victim]? = some user ∧ user.passwordHash = before.passwordHash ∧
    user.firebaseUid = before.firebaseUid ∧ user.emailVerified = before.emailVerified

/-- The account that a call is about to write is another one. -/
def Elsewhere (victim : UserId) : Call → Prop
  | .ensureFirebaseAccount userId _ | .linkNew userId _ | .setPassword userId _ | .link userId _
  | .erase userId => userId ≠ victim
  | .claimLink _ row => row.userId ≠ victim
  | _ => True

theorem untouched_update {before : User env} {userId : UserId} {f : User env → User env}
    (h : Untouched before victim s) (hNe : userId ≠ victim) :
    Untouched before victim (s.update userId f) := by
  obtain ⟨user, hUser, hSame⟩ := h
  exact ⟨user, (getElem?_modify_ne f hNe).trans hUser, hSame⟩

theorem untouched_touch {before : User env} {userId : UserId} (n : Option ℕ)
    (h : Untouched before victim s) :
    Untouched before victim
      (s.update userId fun user => { user with failedLoginAttempts := n }) := by
  obtain ⟨user, hUser, hSame⟩ := h
  by_cases hId : userId = victim
  · subst hId
    exact ⟨_, getElem?_modify_self _ hUser, hSame⟩
  · exact ⟨user, (getElem?_modify_ne _ hId).trans hUser, hSame⟩

theorem email_of_findByEmail {email : String} {userId : UserId}
    (h : s.findByEmail email = some userId) :
    ∃ user, s.users[userId]? = some user ∧ user.email = some email := by
  obtain ⟨hLt, hFound, -⟩ := List.findIdx?_eq_some_iff_getElem.mp h
  exact ⟨s.users[userId], List.getElem?_eq_getElem hLt, beq_iff_eq.mp hFound⟩

/-- With both conditions a token does not even carry the email of the account. -/
theorem not_names {decoded : DecodedIdToken} {user : User env}
    (hIgnorant : ¬ decoded.Proves user)
    (hDemands : decoded.Names user → decoded.emailVerified = some true) : ¬ decoded.Names user := by
  intro hNames
  exact hIgnorant (.inr ⟨hDemands hNames, hNames⟩)

theorem claimLink_cases {now id : ℕ} {row : EmailToken} (h : claimLink now id row s = some s') :
    s'.users = (s.update row.userId fun user => { user with emailVerified := some true }).users := by
  simp only [claimLink, Option.bind_eq_bind, Option.bind_eq_some_iff,
    Option.ite_none_right_eq_some, Option.pure_def, Option.some.injEq] at h
  obtain ⟨-, -, -, -, -, rfl⟩ := h
  rfl

theorem stranger_step {before : User env} (h : Untouched before victim s)
    (hCall : Elsewhere victim call) (hOk : Stranger victim o s call)
    (hStep : step o s call = some (s', call')) :
    Untouched before victim s' ∧ Elsewhere victim call' := by
  obtain ⟨hIgnorant, hDemands⟩ := hOk
  obtain ⟨user, hUser, hSame⟩ := id h
  cases call with
  | register dto =>
    simp only [step, Option.ite_none_left_eq_some, Option.some.injEq, Prod.mk.injEq] at hStep
    obtain ⟨-, rfl, rfl⟩ := hStep
    exact ⟨h, trivial⟩
  | createUser dto =>
    simp only [step, Option.ite_none_left_eq_some, Option.some.injEq, Prod.mk.injEq] at hStep
    obtain ⟨-, rfl, rfl⟩ := hStep
    refine ⟨⟨user, getElem?_append_of_some hUser, hSame⟩, ?_⟩
    split
    · trivial
    · exact Nat.ne_of_gt (List.getElem?_eq_some_iff.mp hUser).1
  | ensureFirebaseAccount userId email =>
    simp only [step, Option.bind_eq_bind, Option.bind_eq_some_iff, Option.pure_def,
      Option.some.injEq, Prod.mk.injEq] at hStep
    obtain ⟨uid, -, rfl, rfl⟩ := hStep
    exact ⟨h, hCall⟩
  | linkNew userId uid =>
    simp only [step, Option.ite_none_left_eq_some, Option.some.injEq, Prod.mk.injEq] at hStep
    obtain ⟨-, rfl, rfl⟩ := hStep
    exact ⟨untouched_update h hCall, trivial⟩
  | resetPassword dto =>
    simp only [step] at hStep
    split at hStep
    · cases hStep
    · split at hStep
      · cases hStep
        exact ⟨h, trivial⟩
      · rename_i email hEmail
        obtain ⟨userId, hFound, hNext⟩ := Option.map_eq_some_iff.mp hStep
        cases hNext
        obtain ⟨other, hOther, hOtherEmail⟩ := email_of_findByEmail hFound
        refine ⟨h, ?_⟩
        rintro rfl
        obtain rfl : other = user := Option.some.inj (hOther.symm.trans hUser)
        exact hDemands email (Option.filter_eq_some_iff.mp hEmail).1 other hUser hOtherEmail
  | completePasswordReset dto =>
    simp only [step, Option.ite_none_left_eq_some, Option.bind_eq_bind, Option.bind_eq_some_iff,
      Option.pure_def, Option.some.injEq, Prod.mk.injEq] at hStep
    obtain ⟨-, decoded, hDecoded, userId, hFound, rfl, rfl⟩ := hStep
    obtain ⟨other, hOther, hOtherEmail⟩ := email_of_findByEmail hFound
    refine ⟨h, ?_⟩
    rintro rfl
    obtain rfl : other = user := Option.some.inj (hOther.symm.trans hUser)
    have hNot := not_names (hIgnorant decoded hDecoded other hUser)
      (hDemands decoded hDecoded other hUser)
    exact hNot ⟨_, hOtherEmail, .inl rfl⟩
  | setPassword userId password =>
    cases hStep
    exact ⟨untouched_update h hCall, trivial⟩
  | firebaseLogin firebaseToken =>
    simp only [step, Option.ite_none_left_eq_some, Option.ite_none_right_eq_some,
      Option.bind_eq_bind, Option.bind_eq_some_iff, Option.pure_def, Option.some.injEq,
      Prod.mk.injEq] at hStep
    obtain ⟨-, decoded, hDecoded, email, hEmail, other, hOther, ⟨⟨hMatch, -⟩, -⟩, rfl, rfl⟩ := hStep
    refine ⟨h, ?_⟩
    split
    · trivial
    · rename_i hUnlinked
      rintro rfl
      obtain rfl : other = user := Option.some.inj (hOther.symm.trans hUser)
      have hNot := not_names (hIgnorant decoded hDecoded other hUser)
        (hDemands decoded hDecoded other hUser)
      rcases hMatch with hUid | hSameEmail
      · exact hUnlinked hUid
      · exact hNot ⟨email, hSameEmail, .inr (Option.filter_eq_some_iff.mp hEmail).1⟩
  | link userId uid =>
    simp only [step, Option.ite_none_left_eq_some, Option.some.injEq, Prod.mk.injEq] at hStep
    obtain ⟨-, rfl, rfl⟩ := hStep
    exact ⟨untouched_update h hCall, trivial⟩
  | touch userId =>
    cases hStep
    exact ⟨untouched_touch _ h, trivial⟩
  | verifyEmail token =>
    simp only [step, Option.ite_none_right_eq_some, Option.bind_eq_bind, Option.bind_eq_some_iff,
      Option.pure_def, Option.some.injEq, Prod.mk.injEq] at hStep
    obtain ⟨-, id, hId, row, hRow, -, rfl, rfl⟩ := hStep
    refine ⟨h, ?_⟩
    intro hVictim
    obtain ⟨hLt, hHash, -⟩ := List.findIdx?_eq_some_iff_getElem.mp hId
    obtain rfl : s.tokens[id] = row := Option.some.inj ((List.getElem?_eq_getElem hLt).symm.trans hRow)
    exact hIgnorant _ (List.getElem_mem hLt) hVictim (beq_iff_eq.mp hHash)
  | claimLink id row =>
    obtain ⟨s'', hClaimed, hNext⟩ := Option.map_eq_some_iff.mp hStep
    cases hNext
    obtain ⟨same, hRow, hKept⟩ := untouched_update h hCall
    exact ⟨⟨same, (claimLink_cases hClaimed).symm ▸ hRow, hKept⟩, trivial⟩
  | changePassword userId dto =>
    simp only [step, Option.ite_none_right_eq_some, Option.bind_eq_bind, Option.bind_eq_some_iff,
      Option.pure_def, Option.some.injEq, Prod.mk.injEq] at hStep
    obtain ⟨-, -, -, rfl, rfl⟩ := hStep
    exact ⟨h, hIgnorant⟩
  | deleteAccount userId dto =>
    simp only [step, Option.ite_none_right_eq_some, Option.bind_eq_bind, Option.bind_eq_some_iff,
      Option.pure_def, Option.some.injEq, Prod.mk.injEq] at hStep
    obtain ⟨-, -, -, rfl, rfl⟩ := hStep
    exact ⟨h, hIgnorant⟩
  | erase userId =>
    cases hStep
    exact ⟨untouched_update h hCall, trivial⟩
  | done => cases hStep

/-- In every run of calls of a client that has no proof for an account, each of which demands one,
the account keeps its password, its Firebase user and its verified email. -/
theorem account_untouched {start : Store env} {before : User env}
    (hBefore : start.users[victim]? = some before) {c : Config (Store env) Call}
    (h : (program env).Reaches (Stranger victim) (Program.idle start) c) :
    Untouched before victim c.store := by
  refine (h.assertions (Untouched before victim) (fun _ => Elsewhere victim) ⟨?_, ?_⟩ ?_ ?_ ?_).1
  · exact ⟨before, hBefore, rfl, rfl, rfl⟩
  · intro call hMem
    cases hMem
  · intro request s _
    cases request <;> trivial
  · intro o s s' call call' hSame hCall hOk hStep
    exact stranger_step hSame hCall hOk hStep
  · intro o s s' call call' other _ _ hOther _ _
    exact hOther

end Takeover

/-- Everything below is in lower case and without blanks. -/
def service : Env := ⟨Bcrypt.plain, fun s => s, fun s => s, fun s => s⟩

def owner : User service :=
  ⟨"owner", some "owner@farm.africa", none, "+254700000001", "secret", some true, some false,
    some false, some false, some 0⟩

def owned : Store service := ⟨[owner], []⟩

/-- A Firebase account that anybody may open with the owner's email. -/
def opened : DecodedIdToken := ⟨"u9", some "owner@farm.africa", some false⟩

def presents (decoded : Option DecodedIdToken) (found : UserId) : Outcome :=
  ⟨0, 0, decoded, some "u2", found, false⟩

def takeovers : List (List (Move Request Outcome)) :=
  [[.enter (.resetPassword ⟨some "owner@farm.africa", "Str0ng-Passw0rd!", "Str0ng-Passw0rd!"⟩),
      .run 0 (presents none 0), .run 0 (presents none 0)],
    [.enter (.completePasswordReset ⟨"t", "Str0ng-Passw0rd!", "Str0ng-Passw0rd!"⟩),
      .run 0 (presents (some opened) 0), .run 0 (presents (some opened) 0)],
    [.enter (.firebaseLogin "t"), .run 0 (presents (some opened) 0),
      .run 0 (presents (some opened) 0)]]

theorem account_taken_over :
    takeovers.length = 3 ∧ ∀ moves ∈ takeovers, ∃ c,
      (program service).Reaches (Ignorant 0) (Program.idle owned) c ∧
      ¬ Untouched owner 0 c.store := by
  refine ⟨rfl, ?_⟩
  have hRuns : takeovers.all (fun moves =>
      (((program service).guarded (Ignorant 0)).schedule moves (Program.idle owned)).any fun c =>
        c.store.users[0]?.any fun user => !service.bcrypt.compare "secret" user.passwordHash ||
          user.firebaseUid != owner.firebaseUid) = true := by
    decide +kernel
  intro moves hMem
  have hRun := List.all_eq_true.mp hRuns moves hMem
  simp only [Option.any_eq_true, Bool.or_eq_true, Bool.not_eq_true', bne_iff_ne, ne_eq] at hRun
  obtain ⟨c, hReached, user, hUser, hChanged⟩ := hRun
  refine ⟨c, Program.reaches_of_guarded (Program.reaches_of_schedule hReached), ?_⟩
  rintro ⟨same, hSame, hHash, hUid, -⟩
  obtain rfl : user = same := Option.some.inj (hUser.symm.trans hSame)
  rcases hChanged with hOther | hUid'
  · rw [hHash] at hOther
    cases hOther
  · exact hUid' hUid

/-- A stranger registers, and logs in with a verified email of its own. -/
def ownAccount : List (Move Request Outcome) :=
  [.enter (.register ⟨"other", "+254700000002", some "other@farm.africa", "Str0ng-Passw0rd!"⟩),
    .run 0 (presents none 0), .run 0 (presents none 0), .run 0 (presents none 0),
    .run 0 (presents none 0), .enter (.firebaseLogin "t"),
    .run 1 (presents (some ⟨"u2", some "other@farm.africa", some true⟩) 1),
    .run 1 (presents none 0)]

theorem owner_untouched :
    ∃ c, (program service).Reaches (Stranger 0) (Program.idle owned) c ∧
      c.store.users.length = 2 ∧ Untouched owner 0 c.store := by
  have hRun : (((program service).guarded (Stranger 0)).schedule ownAccount
      (Program.idle owned)).any (fun c => c.store.users.length == 2) = true := by
    decide +kernel
  obtain ⟨c, hReach, hEnd⟩ := Program.reaches_of_guarded_any hRun
  exact ⟨c, hReach, beq_iff_eq.mp hEnd, account_untouched rfl hReach⟩

end FarmBackend.Accounts
