import FarmBackend.ApiKeys

/-!
# What a rotation and a revocation leave behind

A key is rotated or revoked only while it is active, and neither makes it active again. Where that still
holds when the call writes, a key with a successor is dead, and so is one whose revocation has returned.
-/

namespace FarmBackend.ApiKeys
open Interleaving Rows

set_option autoImplicit false

section Updates
variable {s : Store} {key k : ApiKey} {id heir : KeyId} {mode : Mode}

theorem isActive_iff : s.isActive id = true ↔ ∃ k, s.keys[id]? = some k ∧ k.status = .active := by
  simp [Store.isActive, Option.any_eq_true]

theorem lt_of_isActive (h : s.isActive id = true) : id < s.keys.length := by
  obtain ⟨k, hRow, -⟩ := isActive_iff.mp h
  exact (List.getElem?_eq_some_iff.mp hRow).1

theorem succeeds_insert : Succeeds (s.insert key) id heir ↔
    Succeeds s id heir ∨ heir = s.keys.length ∧ key.rotatedFromId = some id := by
  constructor
  · rintro ⟨k, hRow, hFrom⟩
    rcases getElem?_insert_cases hRow with hOld | ⟨rfl, rfl⟩
    · exact .inl ⟨k, hOld, hFrom⟩
    · exact .inr ⟨rfl, hFrom⟩
  · rintro (⟨k, hRow, hFrom⟩ | ⟨rfl, hFrom⟩)
    · exact ⟨k, getElem?_append_of_some hRow, hFrom⟩
    · exact ⟨key, List.getElem?_concat_length, hFrom⟩

theorem succeeds_revoke {other : KeyId} : Succeeds (s.revoke other) id heir ↔ Succeeds s id heir := by
  constructor
  · rintro ⟨k, hRow, hFrom⟩
    rcases getElem?_modify_cases hRow with ⟨rfl, old, hOld, rfl⟩ | ⟨-, hOld⟩
    · exact ⟨old, hOld, hFrom⟩
    · exact ⟨k, hOld, hFrom⟩
  · rintro ⟨k, hRow, hFrom⟩
    by_cases hId : other = heir
    · subst hId
      exact ⟨k.revoke, getElem?_modify_self _ hRow, hFrom⟩
    · exact ⟨k, (getElem?_modify_ne _ hId).trans hRow, hFrom⟩

theorem isActive_insert_of_lt (h : id < s.keys.length) : (s.insert key).isActive id = s.isActive id := by
  simp only [Store.isActive, Store.insert, List.getElem?_append_left h]

theorem isActive_revoke_self : (s.revoke id).isActive id = false := by
  rw [Bool.eq_false_iff]
  intro hActive
  obtain ⟨k, hRow, hStatus⟩ := isActive_iff.mp hActive
  rcases getElem?_modify_cases hRow with ⟨-, old, -, rfl⟩ | ⟨hNe, -⟩
  · cases hStatus
  · exact hNe rfl

theorem isActive_revoke {other : KeyId} (h : s.isActive id = false) :
    (s.revoke other).isActive id = false := by
  by_cases hId : other = id
  · subst hId
    exact isActive_revoke_self
  · simpa only [Store.isActive, Store.revoke, getElem?_modify_ne _ hId] using h

theorem activeKeys_insert : (s.insert key).activeKeys mode = s.activeKeys mode +
    if key.mode == mode && key.status == .active then 1 else 0 := by
  simp only [Store.activeKeys, Store.insert, List.countP_append, List.countP_singleton]

theorem activeKeys_revoke_le : (s.revoke id).activeKeys mode ≤ s.activeKeys mode := by
  have hAll : ∀ (keys : List ApiKey) (id : KeyId),
      (keys.modify id ApiKey.revoke).countP (fun k => k.mode == mode && k.status == .active) ≤
        keys.countP fun k => k.mode == mode && k.status == .active := by
    intro keys
    induction keys with
    | nil => simp
    | cons head tail ih =>
      intro id
      cases id with
      | zero => simp [ApiKey.revoke, List.countP_cons]
      | succ id =>
        simp only [List.modify_succ_cons, List.countP_cons]
        exact Nat.add_le_add_right (ih id) _
  exact hAll s.keys id

/-- The key that is revoked is counted no more. -/
theorem activeKeys_revoke_lt (hRow : s.keys[id]? = some k) (hActive : k.status = .active) :
    (s.revoke id).activeKeys k.mode < s.activeKeys k.mode := by
  have hAll : ∀ (keys : List ApiKey) (id : KeyId), keys[id]? = some k →
      (keys.modify id ApiKey.revoke).countP (fun x => x.mode == k.mode && x.status == .active) <
        keys.countP fun x => x.mode == k.mode && x.status == .active := by
    intro keys
    induction keys with
    | nil => simp
    | cons head tail ih =>
      intro id hAt
      cases id with
      | zero =>
        rw [List.getElem?_cons_zero, Option.some.injEq] at hAt
        subst hAt
        simp [ApiKey.revoke, hActive]
      | succ id =>
        simp only [List.modify_succ_cons, List.countP_cons]
        exact Nat.add_lt_add_right (ih id hAt) _
  exact hAll s.keys id hRow

end Updates

/-! ### What the keys keep -/

/-- A key that nothing descends from and that cannot be rotated any more. -/
structure Dead (s : Store) (id : KeyId) : Prop where
  lt : id < s.keys.length
  inactive : s.isActive id = false
  barren : ∀ heir, ¬Succeeds s id heir

structure Kept (s : Store) : Prop where
  replaced : ∀ id heir, Succeeds s id heir → id < s.keys.length ∧ s.isActive id = false
  single : ∀ id heir other, Succeeds s id heir → Succeeds s id other → heir = other
  limit : ∀ mode, s.activeKeys mode ≤ MAX_ACTIVE_KEYS_PER_MODE
  dead : ∀ id ∈ s.revoked, Dead s id

/-- What a call has read stays true of the key it read. -/
def Knows (s : Store) : Call → Prop
  | .count key | .insert key => key.rotatedFromId = none
  | .rotateTx id key => key.rotatedFromId = some id ∧ ∃ old, s.keys[id]? = some old ∧ old.mode = key.mode
  | .returned id => Dead s id
  | _ => True

section Steps
variable {s s' : Store} {o : Outcome} {call call' other : Call} {key : ApiKey} {id gone : KeyId}

theorem Kept.controlled (h : Kept s) : Controlled s := by
  refine ⟨?_, h.single, h.limit⟩
  intro id hRevoked heir hPath
  obtain ⟨-, hInactive, hBarren⟩ := h.dead id hRevoked
  rcases Relation.ReflTransGen.cases_head hPath with rfl | ⟨next, hFirst, -⟩
  · exact hInactive
  · exact absurd hFirst (hBarren next)

theorem Dead.insert (h : Dead s gone) (hFrom : key.rotatedFromId ≠ some gone) :
    Dead (s.insert key) gone := by
  refine ⟨?_, ?_, ?_⟩
  · simp only [Store.insert, List.length_append]
    exact Nat.lt_add_right _ h.lt
  · rw [isActive_insert_of_lt h.lt]
    exact h.inactive
  · intro heir hSucceeds
    rcases succeeds_insert.mp hSucceeds with hOld | ⟨-, hNew⟩
    · exact h.barren heir hOld
    · exact hFrom hNew

theorem Dead.revoke (h : Dead s gone) (id : KeyId) : Dead (s.revoke id) gone := by
  refine ⟨?_, isActive_revoke h.inactive, ?_⟩
  · simp only [Store.revoke, List.length_modify]
    exact h.lt
  · intro heir hSucceeds
    exact h.barren heir (succeeds_revoke.mp hSucceeds)

/-- An active key has no successor yet. -/
theorem Kept.dead_of_revoke (h : Kept s) (hActive : s.isActive id = true) : Dead (s.revoke id) id := by
  refine ⟨?_, isActive_revoke_self, ?_⟩
  · simp only [Store.revoke, List.length_modify]
    exact lt_of_isActive hActive
  · intro heir hSucceeds
    have hInactive := (h.replaced id heir (succeeds_revoke.mp hSucceeds)).2
    rw [hActive] at hInactive
    cases hInactive

theorem Kept.revoke (h : Kept s) (id : KeyId) : Kept (s.revoke id) := by
  refine ⟨?_, ?_, ?_, ?_⟩
  · intro old heir hSucceeds
    obtain ⟨hLt, hInactive⟩ := h.replaced old heir (succeeds_revoke.mp hSucceeds)
    refine ⟨?_, isActive_revoke hInactive⟩
    simp only [Store.revoke, List.length_modify]
    exact hLt
  · intro old heir other hHeir hOther
    exact h.single old heir other (succeeds_revoke.mp hHeir) (succeeds_revoke.mp hOther)
  · intro mode
    exact activeKeys_revoke_le.trans (h.limit mode)
  · intro dead hRevoked
    exact (h.dead dead hRevoked).revoke id

/-- A new key that succeeds nobody, or a dead one. -/
theorem Kept.insert (h : Kept s) (hRoom : s.activeKeys key.mode < MAX_ACTIVE_KEYS_PER_MODE)
    (hFrom : ∀ old, key.rotatedFromId = some old → Dead s old)
    (hRevoked : ∀ old ∈ s.revoked, key.rotatedFromId ≠ some old) : Kept (s.insert key) := by
  refine ⟨?_, ?_, ?_, ?_⟩
  · intro old heir hSucceeds
    have hBefore : old < s.keys.length ∧ s.isActive old = false := by
      rcases succeeds_insert.mp hSucceeds with hOld | ⟨-, hNew⟩
      · exact h.replaced old heir hOld
      · exact ⟨(hFrom old hNew).lt, (hFrom old hNew).inactive⟩
    refine ⟨?_, (isActive_insert_of_lt hBefore.1).trans hBefore.2⟩
    simp only [Store.insert, List.length_append]
    exact Nat.lt_add_right _ hBefore.1
  · intro old heir other hHeir hOther
    rcases succeeds_insert.mp hHeir with hHeir | ⟨rfl, hNew⟩
    · rcases succeeds_insert.mp hOther with hOther | ⟨-, hNew⟩
      · exact h.single old heir other hHeir hOther
      · exact absurd hHeir ((hFrom old hNew).barren heir)
    · rcases succeeds_insert.mp hOther with hOther | ⟨rfl, -⟩
      · exact absurd hOther ((hFrom old hNew).barren other)
      · rfl
  · intro mode
    have hLimit := h.limit mode
    rw [activeKeys_insert]
    split
    · rename_i hCounted
      rw [Bool.and_eq_true, beq_iff_eq] at hCounted
      obtain ⟨rfl, -⟩ := hCounted
      exact hRoom
    · exact hLimit
  · intro dead hMem
    exact (h.dead dead hMem).insert (hRevoked dead hMem)

/-- What a step does to the keys. -/
inductive Took (s : Store) : Store → Prop where
  | stays : Took s s
  | inserts (key : ApiKey) (hFrom : key.rotatedFromId = none)
      (hRoom : s.activeKeys key.mode < MAX_ACTIVE_KEYS_PER_MODE) : Took s (s.insert key)
  | rotates (id : KeyId) (key old : ApiKey) (hFrom : key.rotatedFromId = some id)
      (hActive : s.isActive id = true) (hOld : s.keys[id]? = some old) (hMode : old.mode = key.mode) :
      Took s ((s.revoke id).insert key)
  | revokes (id : KeyId) (hActive : s.isActive id = true) : Took s (s.revoke id)
  | returns (id : KeyId) (hDead : Dead s id) : Took s { s with revoked := id :: s.revoked }

theorem took_of_step (hKnows : Knows s call) (hStands : Stands o s call)
    (h : step o s call = some (s', call')) : Took s s' := by
  cases call with
  | create dto =>
    simp only [step, Option.bind_eq_bind, Option.bind_eq_some_iff, Option.ite_none_right_eq_some,
      Option.some.injEq, Prod.mk.injEq] at h
    obtain ⟨_, _, _, rfl, -⟩ := h
    exact .stays
  | count key =>
    simp only [step, Option.ite_none_left_eq_some, Option.some.injEq, Prod.mk.injEq] at h
    obtain ⟨_, rfl, -⟩ := h
    exact .stays
  | insert key =>
    cases h
    exact .inserts key hKnows hStands
  | findRotated id grants =>
    simp only [step, Option.bind_eq_bind, Option.bind_eq_some_iff, Option.ite_none_right_eq_some,
      Option.pure_def, Option.some.injEq, Prod.mk.injEq] at h
    obtain ⟨_, _, _, _, _, rfl, -⟩ := h
    exact .stays
  | rotateTx id key =>
    cases h
    obtain ⟨hFrom, old, hOld, hMode⟩ := hKnows
    exact .rotates id key old hFrom hStands hOld hMode
  | findRevoked id =>
    simp only [step, Option.bind_eq_bind, Option.bind_eq_some_iff, Option.ite_none_right_eq_some,
      Option.some.injEq, Prod.mk.injEq] at h
    obtain ⟨_, _, _, rfl, -⟩ := h
    exact .stays
  | rotate id | revoke id =>
    simp only [step, Option.ite_none_right_eq_some, Option.some.injEq, Prod.mk.injEq] at h
    obtain ⟨_, rfl, -⟩ := h
    exact .stays
  | updateRevoked id =>
    cases h
    exact .revokes id hStands
  | returned id =>
    cases h
    exact .returns id hKnows
  | done => cases h

theorem Took.kept (h : Took s s') (hKept : Kept s) : Kept s' := by
  cases h with
  | stays => exact hKept
  | inserts key hFrom hRoom =>
    refine hKept.insert hRoom ?_ ?_
    · intro old hOld
      rw [hFrom] at hOld
      cases hOld
    · intro old _ hOld
      rw [hFrom] at hOld
      cases hOld
  | rotates id key old hFrom hActive hOld hMode =>
    obtain ⟨k, hRow, hStatus⟩ := isActive_iff.mp hActive
    obtain rfl : old = k := Option.some.inj (hOld.symm.trans hRow)
    refine (hKept.revoke id).insert ?_ ?_ ?_
    · rw [← hMode]
      exact (activeKeys_revoke_lt hRow hStatus).trans_le (hKept.limit old.mode)
    · intro other hOther
      obtain rfl : id = other := Option.some.inj (hFrom.symm.trans hOther)
      exact hKept.dead_of_revoke hActive
    · intro other hRevoked hOther
      obtain rfl : id = other := Option.some.inj (hFrom.symm.trans hOther)
      have hInactive := (hKept.dead id hRevoked).inactive
      rw [hActive] at hInactive
      cases hInactive
  | revokes id hActive => exact hKept.revoke id
  | returns id hDead =>
    refine ⟨hKept.replaced, hKept.single, hKept.limit, ?_⟩
    intro dead hMem
    rcases List.mem_cons.mp hMem with rfl | hOld
    · exact ⟨hDead.lt, hDead.inactive, hDead.barren⟩
    · exact ⟨(hKept.dead dead hOld).lt, (hKept.dead dead hOld).inactive, (hKept.dead dead hOld).barren⟩

/-- A dead key stays dead, since only an active one is rotated. -/
theorem Took.dead (h : Took s s') (hDead : Dead s gone) : Dead s' gone := by
  cases h with
  | stays => exact hDead
  | inserts key hFrom hRoom =>
    refine hDead.insert ?_
    rw [hFrom]
    exact (Option.some_ne_none gone).symm
  | rotates id key old hFrom hActive hOld hMode =>
    refine (hDead.revoke id).insert ?_
    intro hSame
    obtain rfl : id = gone := Option.some.inj (hFrom.symm.trans hSame)
    have hInactive := hDead.inactive
    rw [hActive] at hInactive
    cases hInactive
  | revokes id hActive => exact hDead.revoke id
  | returns id _ => exact ⟨hDead.lt, hDead.inactive, hDead.barren⟩

/-- The mode of a key is never changed. -/
theorem Took.mode (h : Took s s') {old : ApiKey} (hRow : s.keys[id]? = some old) :
    ∃ new, s'.keys[id]? = some new ∧ new.mode = old.mode := by
  have hRevoke : ∀ other, ∃ new, (s.revoke other).keys[id]? = some new ∧ new.mode = old.mode := by
    intro other
    by_cases hId : other = id
    · subst hId
      exact ⟨old.revoke, getElem?_modify_self _ hRow, rfl⟩
    · exact ⟨old, (getElem?_modify_ne _ hId).trans hRow, rfl⟩
  cases h with
  | stays | returns _ _ => exact ⟨old, hRow, rfl⟩
  | inserts _ _ _ => exact ⟨old, getElem?_append_of_some hRow, rfl⟩
  | rotates other _ _ _ _ _ _ =>
    obtain ⟨new, hNew, hMode⟩ := hRevoke other
    exact ⟨new, getElem?_append_of_some hNew, hMode⟩
  | revokes other _ => exact hRevoke other

theorem Took.knows (h : Took s s') (hKnows : Knows s other) : Knows s' other := by
  cases other with
  | count _ | insert _ => exact hKnows
  | rotateTx id key =>
    obtain ⟨hFrom, old, hOld, hMode⟩ := hKnows
    obtain ⟨new, hNew, hSame⟩ := h.mode hOld
    exact ⟨hFrom, new, hNew, hSame.trans hMode⟩
  | returned id => exact h.dead hKnows
  | create _ | rotate _ | findRotated _ _ | revoke _ | findRevoked _ | updateRevoked _ | done => trivial

theorem knows_of_step (hKept : Kept s) (hKnows : Knows s call) (hStands : Stands o s call)
    (h : step o s call = some (s', call')) : Knows s' call' := by
  cases call with
  | create dto =>
    simp only [step, Option.bind_eq_bind, Option.bind_eq_some_iff, Option.ite_none_right_eq_some,
      Option.some.injEq, Prod.mk.injEq] at h
    obtain ⟨_, _, _, rfl, rfl⟩ := h
    rfl
  | count key =>
    simp only [step, Option.ite_none_left_eq_some, Option.some.injEq, Prod.mk.injEq] at h
    obtain ⟨_, rfl, rfl⟩ := h
    exact hKnows
  | findRotated id grants =>
    simp only [step, Option.bind_eq_bind, Option.bind_eq_some_iff, Option.ite_none_right_eq_some,
      Option.pure_def, Option.some.injEq, Prod.mk.injEq] at h
    obtain ⟨old, hOld, _, _, _, rfl, rfl⟩ := h
    exact ⟨rfl, old, hOld, rfl⟩
  | findRevoked id =>
    simp only [step, Option.bind_eq_bind, Option.bind_eq_some_iff, Option.ite_none_right_eq_some,
      Option.some.injEq, Prod.mk.injEq] at h
    obtain ⟨_, _, _, rfl, rfl⟩ := h
    trivial
  | rotate id | revoke id =>
    simp only [step, Option.ite_none_right_eq_some, Option.some.injEq, Prod.mk.injEq] at h
    obtain ⟨_, rfl, rfl⟩ := h
    trivial
  | updateRevoked id =>
    cases h
    exact hKept.dead_of_revoke hStands
  | insert _ | rotateTx _ _ | returned _ =>
    cases h
    trivial
  | done => cases h

end Steps

/-! ### Runs -/

/-- Keys of a business none of which has been revoked in the run. -/
structure Orderly (s : Store) : Prop where
  replaced : ∀ id heir, Succeeds s id heir → id < s.keys.length ∧ s.isActive id = false
  single : ∀ id heir other, Succeeds s id heir → Succeeds s id other → heir = other
  limit : ∀ mode, s.activeKeys mode ≤ MAX_ACTIVE_KEYS_PER_MODE
  fresh : s.revoked = []

/-- Any creations, rotations and revocations: where each writes while what it has checked still
holds, no revoked key leaves an active one behind. -/
theorem keys_controlled {start : Store} {c : Config Store Call} (hStart : Orderly start)
    (h : program.Reaches Stands (Program.idle start) c) : Controlled c.store := by
  have hInit : Kept start := by
    refine ⟨hStart.replaced, hStart.single, hStart.limit, ?_⟩
    rw [hStart.fresh]
    exact fun _ hMem => absurd hMem List.not_mem_nil
  refine (h.assertions Kept Knows ⟨hInit, ?_⟩ ?_ ?_ ?_).1.controlled
  · exact fun _ hMem => absurd hMem List.not_mem_nil
  · intro request s _
    cases request <;> trivial
  · intro o s s' call call' hKept hKnows hStands hStep
    exact ⟨(took_of_step hKnows hStands hStep).kept hKept, knows_of_step hKept hKnows hStands hStep⟩
  · intro o s s' call call' other _ hKnows hOther hStands hStep
    exact (took_of_step hKnows hStands hStep).knows hOther

/-! A key of a business, and nine of them. -/

def liveKey : ApiKey := ⟨.live, ["account:read"], .active, none, none⟩

def keysOf (n : ℕ) : Store := ⟨List.replicate n liveKey, []⟩

theorem keysOf_orderly {n : ℕ} (h : n ≤ MAX_ACTIVE_KEYS_PER_MODE) : Orderly (keysOf n) := by
  have hNone : ∀ id heir, ¬Succeeds (keysOf n) id heir := by
    rintro id heir ⟨k, hRow, hFrom⟩
    obtain rfl := List.eq_of_mem_replicate (List.mem_of_getElem? hRow)
    cases hFrom
  refine ⟨?_, ?_, ?_, rfl⟩
  · exact fun id heir hSucceeds => absurd hSucceeds (hNone id heir)
  · exact fun id heir _ hSucceeds => absurd hSucceeds (hNone id heir)
  · intro mode
    refine List.countP_le_length.trans ?_
    rw [keysOf, List.length_replicate]
    exact h

/-- Access, the PIN and every scope are granted. -/
def granted : Outcome := ⟨0, true, true, fun _ => true⟩

def times (index n : ℕ) : List (Move Request Outcome) := List.replicate n (.run index granted)

def newKey : CreateApiKeyDto := ⟨.live, ["account:read"], none⟩

/-- A key is made and rotated, and its successor revoked. -/
def inTurn : List (Move Request Outcome) :=
  .enter (.create newKey) :: times 0 3 ++ .enter (.rotate 1) :: times 1 3 ++
    .enter (.revoke 2) :: times 2 4

theorem keys_controlled_inTurn : ∃ c, program.Reaches Stands (Program.idle (keysOf 1)) c ∧
    c.store.revoked = [2] ∧ Controlled c.store := by
  have hRun : ((program.guarded Stands).schedule inTurn (Program.idle (keysOf 1))).any
      (fun c => decide (c.store.revoked = [2])) = true := by
    decide +kernel
  obtain ⟨c, hReach, hEnd⟩ := Program.reaches_of_guarded_any hRun
  exact ⟨c, hReach, of_decide_eq_true hEnd, keys_controlled (keysOf_orderly (by decide)) hReach⟩

/-- A rotation has read the key before it is revoked. -/
def rotatedLate : List (Move Request Outcome) :=
  .enter (.rotate 0) :: times 0 2 ++ .enter (.revoke 0) :: times 1 4 ++ times 0 1

/-- Two rotations have read the key. -/
def rotatedTwice : List (Move Request Outcome) :=
  .enter (.rotate 0) :: times 0 2 ++ .enter (.rotate 0) :: times 1 3 ++ times 0 1

/-- Two creations have counted the keys. -/
def countedTwice : List (Move Request Outcome) :=
  .enter (.create newKey) :: times 0 2 ++ .enter (.create newKey) :: times 1 3 ++ times 0 1

theorem keys_outlive_their_revocation :
    (Orderly (keysOf 1) ∧ ∃ c, program.Reaches anyStep (Program.idle (keysOf 1)) c ∧
      0 ∈ c.store.revoked ∧ Succeeds c.store 0 1 ∧ c.store.isActive 1 = true) ∧
    (∃ c, program.Reaches anyStep (Program.idle (keysOf 1)) c ∧
      Succeeds c.store 0 1 ∧ Succeeds c.store 0 2) ∧
    Orderly (keysOf 9) ∧ ∃ c, program.Reaches anyStep (Program.idle (keysOf 9)) c ∧
      MAX_ACTIVE_KEYS_PER_MODE < c.store.activeKeys .live := by
  have hLate : (program.schedule rotatedLate (Program.idle (keysOf 1))).any (fun c =>
      decide (c.store = ⟨[liveKey.revoke, { liveKey with rotatedFromId := some 0 }], [0]⟩)) = true := by
    decide +kernel
  have hTwice : (program.schedule rotatedTwice (Program.idle (keysOf 1))).any (fun c =>
      decide (c.store = ⟨[liveKey.revoke, { liveKey with rotatedFromId := some 0 },
        { liveKey with rotatedFromId := some 0 }], []⟩)) = true := by
    decide +kernel
  have hCounted : (program.schedule countedTwice (Program.idle (keysOf 9))).any (fun c =>
      decide (MAX_ACTIVE_KEYS_PER_MODE < c.store.activeKeys .live)) = true := by
    decide +kernel
  refine ⟨⟨keysOf_orderly (by decide), ?_⟩, ?_, keysOf_orderly (by decide), ?_⟩
  · obtain ⟨c, hReach, hEnd⟩ := Program.reaches_of_any hLate
    refine ⟨c, hReach, ?_⟩
    rw [of_decide_eq_true hEnd]
    exact ⟨List.mem_cons_self, ⟨_, rfl, rfl⟩, rfl⟩
  · obtain ⟨c, hReach, hEnd⟩ := Program.reaches_of_any hTwice
    refine ⟨c, hReach, ?_⟩
    rw [of_decide_eq_true hEnd]
    exact ⟨⟨_, rfl, rfl⟩, _, rfl, rfl⟩
  · obtain ⟨c, hReach, hEnd⟩ := Program.reaches_of_any hCounted
    exact ⟨c, hReach, of_decide_eq_true hEnd⟩

end FarmBackend.ApiKeys
