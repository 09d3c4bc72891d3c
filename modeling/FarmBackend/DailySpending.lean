import FarmBackend.SpendCaps

/-!
# What is spent within the caps

A sum that records what has been spent bounds it, together with the amount that was checked, by the
daily cap that was read; nothing else is spent until that amount is, on the same day.
-/

namespace FarmBackend.SpendCaps
open Interleaving Rows
open ActionRequests (Action Status)

set_option autoImplicit false

/-! Sums over rows. -/

theorem sum_filter_le {p q : ActionRequest → Bool} (h : ∀ r, p r = true → q r = true)
    (rows : List ActionRequest) :
    ((rows.filter p).map (·.amount)).sum ≤ ((rows.filter q).map (·.amount)).sum := by
  have hSub : (rows.filter p).Sublist (rows.filter q) :=
    List.monotone_filter_right rows h
  exact (hSub.map _).sum_le_sum fun _ _ => Nat.zero_le _

/-- A row that only the larger sum counts. -/
theorem sum_filter_add_le {p q : ActionRequest → Bool} (h : ∀ r, p r = true → q r = true)
    {rows : List ActionRequest} {id : ℕ} {r : ActionRequest} (hRow : rows[id]? = some r)
    (hOut : p r = false) (hIn : q r = true) :
    ((rows.filter p).map (·.amount)).sum + r.amount ≤ ((rows.filter q).map (·.amount)).sum := by
  induction rows generalizing id with
  | nil => simp at hRow
  | cons row rows ih =>
    cases id with
    | zero =>
      rw [List.getElem?_cons_zero, Option.some.injEq] at hRow
      subst hRow
      have hRest := sum_filter_le h rows
      simp only [List.filter_cons, hOut, hIn, if_true, Bool.false_eq_true, if_false, List.map_cons,
        List.sum_cons]
      omega
    | succ id =>
      rw [List.getElem?_cons_succ] at hRow
      have hRest := ih hRow
      cases hP : p row with
      | true =>
        simp only [List.filter_cons, hP, h row hP, if_true, List.map_cons, List.sum_cons]
        omega
      | false =>
        simp only [List.filter_cons, hP, Bool.false_eq_true, if_false]
        split
        · simp only [List.map_cons, List.sum_cons]
          omega
        · exact hRest

/-! What a row keeps. -/

structure Same (r r' : ActionRequest) : Prop where
  action : r'.action = r.action
  createdAt : r'.createdAt = r.createdAt
  amount : r.action ≠ .bookFlight → r'.amount = r.amount

def Extends (rows rows' : List ActionRequest) : Prop :=
  ∀ (id : ℕ) r, rows[id]? = some r → ∃ r', rows'[id]? = some r' ∧ Same r r'

theorem Same.refl (r : ActionRequest) : Same r r := ⟨rfl, rfl, fun _ => rfl⟩

theorem same_setStatus (status : Status) (r : ActionRequest) : Same r (r.setStatus status) :=
  ⟨rfl, rfl, fun _ => rfl⟩

theorem same_decide (status : Status) (r : ActionRequest) : Same r (r.decide status) := by
  unfold ActionRequest.decide
  split
  · exact ⟨rfl, rfl, fun _ => rfl⟩
  · exact Same.refl r

theorem Extends.refl (rows : List ActionRequest) : Extends rows rows :=
  fun _ r hRow => ⟨r, hRow, Same.refl r⟩

theorem extends_map {f : ActionRequest → ActionRequest} (hf : ∀ r, Same r (f r))
    (rows : List ActionRequest) : Extends rows (rows.map f) := by
  intro id r hRow
  exact ⟨f r, by simp [hRow], hf r⟩

theorem extends_append (rows new : List ActionRequest) : Extends rows (rows ++ new) :=
  fun _ r hRow => ⟨r, getElem?_append_of_some hRow, Same.refl r⟩

theorem extends_modify {rows : List ActionRequest} {id : ℕ} {f : ActionRequest → ActionRequest}
    (hf : ∀ r, rows[id]? = some r → Same r (f r)) : Extends rows (rows.modify id f) := by
  intro other r hRow
  by_cases hId : id = other
  · subst hId
    exact ⟨f r, getElem?_modify_self f hRow, hf r hRow⟩
  · exact ⟨r, (getElem?_modify_ne f hId).trans hRow, Same.refl r⟩

/-- The call carries nothing that it relies on. -/
def Call.plain : Call → Bool
  | .checkCaps _ | .committedToday _ _ | .excludeSelf _ _ _ | .claimAction _ _ _ | .pay _ _ _
  | .checkAiAction _ | .executedToday _ _ | .holdFlight _ _ _ | .orderFlight _ _ _
  | .confirmFlight _ _ _ | .cancelPending _ | .revoked _ => false
  | _ => true

/-! What a step can do. -/

inductive Took (calendar : Calendar) (o : Outcome) (s : Store) : Call → Store → Call → Prop where
  | aside {call call' : Call} (hPlain : call'.plain = true) : Took calendar o s call s call'
  | found {id : ℕ} {r : ActionRequest} (hRow : s.requests[id]? = some r)
      (hAction : r.action ≠ .bookFlight) :
      Took calendar o s (.confirmAction id) s
        (.checkCaps ⟨id, r.action, r.amount, r.createdAt, s.revokedAt⟩)
  | foundFlight {id price : ℕ} {r : ActionRequest} (hRow : s.requests[id]? = some r)
      (hAction : r.action = .bookFlight) :
      Took calendar o s (.bookFlight id) s
        (.checkAiAction ⟨id, .bookFlight, price, r.createdAt, s.revokedAt⟩)
  | permitted {a : Attempt} (hPermits : s.permissions.permits a.action a.amount = true) :
      Took calendar o s (.checkCaps a) s (.committedToday a s.snapshot)
  | permittedFlight {a : Attempt} (hPermits : s.permissions.permitsFlight a.amount = true) :
      Took calendar o s (.checkAiAction a) s (.executedToday a s.snapshot)
  | summed {a : Attempt} {p : Snapshot} :
      Took calendar o s (.committedToday a p) s (.excludeSelf a p
        ⟨s.sumOf (ActionRequest.committed calendar s.now), s.now, s.spends.length⟩)
  | excluded {a : Attempt} {p : Snapshot} {k : Sum} {r : ActionRequest}
      (hRow : s.requests[a.id]? = some r)
      (hFits : withoutSelf calendar k s.now r + a.amount ≤ p.dailyCap) :
      Took calendar o s (.excludeSelf a p k) s (.claimAction a p k)
  | summedFlight {a : Attempt} {p : Snapshot}
      (hFits : s.sumOf (ActionRequest.executed calendar s.now) + a.amount ≤ p.dailyCap) :
      Took calendar o s (.executedToday a p) s (.holdFlight a p
        ⟨s.sumOf (ActionRequest.executed calendar s.now), s.now, s.spends.length⟩)
  | ordered {id total index : ℕ} :
      Took calendar o s (.orderFlight id total index) s (.confirmFlight id total index)
  | rewrote {call call' : Call} {rows : List ActionRequest} (hRows : Extends s.requests rows)
      (hPlain : call'.plain = true) : Took calendar o s call { s with requests := rows } call'
  | claimed {a : Attempt} {p : Snapshot} {k : Sum} :
      Took calendar o s (.claimAction a p k)
        (s.write a.id (ActionRequest.setStatus .processing)) (.pay a p k)
  | executed {id total index : ℕ} {call' : Call} (hPlain : call'.plain = true) :
      Took calendar o s (.confirmFlight id total index)
        (s.write id fun r => { r with status := .executed, amount := total }) call'
  | paid {a : Attempt} {p : Snapshot} {k : Sum} {price : ℕ} {call' : Call}
      (hMoves : o.payment.moves = true) (hPrice : price ≤ a.amount) (hPlain : call'.plain = true) :
      Took calendar o s (.pay a p k) (s.spend calendar a price) call'
  | held {a : Attempt} {p : Snapshot} {k : Sum} :
      Took calendar o s (.holdFlight a p k) (s.spend calendar a a.amount)
        (.orderFlight a.id a.amount s.spends.length)
  | refunded {call call' : Call} (index : ℕ) (hPlain : call'.plain = true) :
      Took calendar o s call (s.refund index) call'
  | updated {permissions : Permissions} :
      Took calendar o s (.updatePermissions permissions) (Store.note calendar { s with
        permissions := { permissions with revoked := false }
        updates := s.updates + 1 }) .done
  | revoking : Took calendar o s .revokePermissions { s with permissions := s.permissions.revoke }
      (.cancelPending s.updates)
  | cancelled {updates : ℕ} :
      Took calendar o s (.cancelPending updates)
        { s with requests := s.requests.map (ActionRequest.decide .cancelled) } (.revoked updates)
  | revoked {updates : ℕ} :
      Took calendar o s (.revoked updates) { s with revokedAt := some updates } .done
  | waited {elapsed : ℕ} :
      Took calendar o s (.wait elapsed) (Store.note calendar { s with now := s.now + elapsed }) .done

section Inversion
variable {calendar : Calendar} {o : Outcome} {s s' t : Store} {call call' next : Call} {id : ℕ}

/-- A write by id of a status. -/
theorem took_write {f : ActionRequest → ActionRequest} (hf : ∀ r, Same r (f r))
    (hPlain : call'.plain = true) : Took calendar o s call (s.write id f) call' :=
  .rewrote (extends_modify fun r _ => hf r) hPlain

theorem took_attempt (h : attempt o id s t next = (s', call')) (hPlain : next.plain = true)
    (hWrote : ∀ call'', call''.plain = true → Took calendar o s call t call'') :
    Took calendar o s call s' call' := by
  unfold attempt at h
  split at h
  · rw [Prod.mk.injEq] at h
    obtain ⟨hStore, rfl⟩ := h
    rw [← hStore]
    split
    · exact hWrote _ rfl
    · exact .aside rfl
  · rw [Prod.mk.injEq] at h
    obtain ⟨rfl, rfl⟩ := h
    exact hWrote _ hPlain

theorem charge_le {a : Attempt} {price price' : ℕ} (h : charge a price = some price') :
    price' ≤ a.amount := by
  unfold charge at h
  split at h
  · split at h
    · cases h
      assumption
    · cases h
  · cases h
    exact le_refl _

theorem took_of_step (h : step calendar o s call = some (s', call')) :
    Took calendar o s call s' call' := by
  cases call with
  | propose action amount | proposeSum action amount dailyCap =>
    cases h
    refine .aside ?_
    split <;> rfl
  | createRequest action amount =>
    cases h
    exact .rewrote (extends_append _ _) rfl
  | confirmAction id =>
    simp only [step] at h
    split at h
    · cases h
    · rename_i r hRow
      split at h
      · cases h
        exact .aside rfl
      · rename_i hOpen
        rw [not_or] at hOpen
        split at h <;> cases h
        · exact .aside rfl
        · exact .found hRow hOpen.2
  | expireAction id =>
    cases h
    exact took_write (same_setStatus _) rfl
  | checkCaps a =>
    simp only [step] at h
    split at h
    · rename_i hPermits
      cases h
      exact .permitted hPermits
    · cases h
      exact .aside rfl
  | committedToday a p =>
    cases h
    exact .summed
  | excludeSelf a p k =>
    simp only [step] at h
    split at h
    · cases h
    · rename_i r hRow
      split at h
      · rename_i hFits
        cases h
        exact .excluded hRow hFits
      · cases h
        exact .aside rfl
  | claimAction a p k =>
    simp only [step] at h
    split at h
    · cases h
    · split at h <;> cases h
      · exact .claimed
      · exact .aside rfl
  | pay a p k =>
    simp only [step] at h
    split at h
    · cases h
      exact .aside rfl
    · cases h
      refine .aside ?_
      split <;> rfl
    · split at h
      · cases h
        exact .aside rfl
      · rename_i hPayment _ _ hCharge
        cases h
        refine .paid (by rw [hPayment]; rfl) (charge_le hCharge) ?_
        split <;> rfl
  | settleHotel id index =>
    simp only [step] at h
    split at h
    · exact took_attempt (Option.some.inj h) rfl fun _ hPlain => .refunded index hPlain
    · cases h
      refine .aside ?_
      split <;> rfl
  | execute id | failAction id =>
    exact took_attempt (Option.some.inj h) rfl fun _ hPlain =>
      took_write (same_setStatus _) hPlain
  | audit id =>
    cases h
    refine .aside ?_
    split <;> rfl
  | reopen id =>
    cases h
    exact took_write (same_setStatus _) rfl
  | bookFlight id =>
    simp only [step] at h
    split at h
    · cases h
    · rename_i r hRow
      split at h
      · rename_i hOpen
        cases h
        exact .foundFlight hRow hOpen.1
      · cases h
        exact .aside rfl
  | checkAiAction a =>
    simp only [step] at h
    split at h
    · rename_i hPermits
      cases h
      exact .permittedFlight hPermits
    · cases h
      exact .aside rfl
  | executedToday a p =>
    simp only [step] at h
    split at h
    · rename_i hFits
      cases h
      exact .summedFlight hFits
    · cases h
      exact .aside rfl
  | holdFlight a p k =>
    cases h
    exact .held
  | orderFlight id total index =>
    simp only [step] at h
    split at h
    · cases h
      exact .aside rfl
    · split at h <;> cases h
      · exact .ordered
      · exact .aside rfl
  | confirmFlight id total index =>
    simp only [step] at h
    split at h
    · split at h <;> cases h
      · exact .executed rfl
      · exact .aside rfl
    · cases h
      exact .executed rfl
  | refund index =>
    cases h
    exact .refunded index rfl
  | updatePermissions permissions =>
    simp only [step] at h
    split at h <;> cases h
    · exact .updated
    · exact .aside rfl
  | revokePermissions =>
    cases h
    exact .revoking
  | cancelPending updates =>
    cases h
    exact .cancelled
  | revoked updates =>
    cases h
    exact .revoked
  | rejectAction id =>
    cases h
    exact took_write (same_decide _) rfl
  | listActions =>
    cases h
    refine .rewrote (extends_map ?_ _) rfl
    intro r
    split
    · exact same_decide _ r
    · exact Same.refl r
  | wait elapsed =>
    cases h
    exact .waited
  | done => cases h

end Inversion

/-! What any step does to the store. -/

section Moves
variable {calendar : Calendar} {o : Outcome} {s s' : Store} {call call' : Call}

/-- The permissions at a revocation have not been made active by anything but an update. -/
structure Disabled (updates : ℕ) (s : Store) : Prop where
  le : updates ≤ s.updates
  inactive : s.updates = updates → s.permissions.active = false

structure Moves (s s' : Store) : Prop where
  rows : Extends s.requests s'.requests
  now : s.now ≤ s'.now
  caps : ∀ day, s.largestCap day ≤ s'.largestCap day
  length : s.spends.length ≤ s'.spends.length
  spent : s'.spends.length = s.spends.length → ∀ day, s'.spentOn day ≤ s.spentOn day
  updates : s.updates ≤ s'.updates
  active : s'.updates = s.updates → s'.permissions.active = true → s.permissions.active = true

theorem Moves.refl (s : Store) : Moves s s :=
  ⟨Extends.refl _, le_refl _, fun _ => le_refl _, le_refl _, fun _ _ => le_refl _, le_refl _,
    fun _ hActive => hActive⟩

theorem moves_rows {rows : List ActionRequest} (h : Extends s.requests rows) :
    Moves s { s with requests := rows } :=
  ⟨h, le_refl _, fun _ => le_refl _, le_refl _, fun _ _ => le_refl _, le_refl _,
    fun _ hActive => hActive⟩

theorem note_caps (s : Store) (day : ℕ) :
    s.largestCap day ≤ (Store.note calendar s).largestCap day := by
  by_cases hDay : day = s.today calendar
  · subst hDay
    simp [Store.note]
  · simp [Store.note, Function.update_of_ne hDay]

theorem note_today (s : Store) :
    s.permissions.dailyCap ≤ (Store.note calendar s).largestCap (s.today calendar) := by
  simp [Store.note]

theorem spentOn_append {a : Attempt} {price day : ℕ} :
    (s.spend calendar a price).spentOn day =
      s.spentOn day + if s.today calendar = day then price else 0 := by
  simp only [Store.spentOn, Store.spend, List.filter_append, List.map_append, List.sum_append]
  by_cases hDay : s.today calendar = day <;> simp [hDay]

theorem spentOn_refund {index day : ℕ} : (s.refund index).spentOn day ≤ s.spentOn day := by
  simp only [Store.spentOn, Store.refund]
  generalize s.spends = spends
  induction spends generalizing index with
  | nil => simp
  | cons spend spends ih =>
    cases index with
    | zero =>
      simp only [List.modify_zero_cons, List.filter_cons, Bool.not_true, Bool.and_false,
        Bool.false_eq_true, if_false]
      split
      · exact Nat.le_add_left _ _
      · exact le_refl _
    | succ index =>
      have hRest := @ih index
      simp only [List.modify_succ_cons, List.filter_cons]
      split
      · simpa using hRest
      · exact hRest

theorem moves_of_took (hFlight : ∀ id total index, call = .confirmFlight id total index →
      ∀ r, s.requests[id]? = some r → r.action = .bookFlight)
    (hTook : Took calendar o s call s' call') : Moves s s' := by
  cases hTook with
  | aside _ | found _ _ | foundFlight _ _ | permitted _ | permittedFlight _ | summed | excluded _ _
  | summedFlight _ | ordered => exact Moves.refl s
  | rewrote hRows _ => exact moves_rows hRows
  | claimed => exact moves_rows (extends_modify fun r _ => same_setStatus _ r)
  | cancelled => exact moves_rows (extends_map (same_decide _) _)
  | @executed id total index _ _ =>
    refine moves_rows (extends_modify ?_)
    intro r hRow
    refine ⟨rfl, rfl, ?_⟩
    intro hAction
    exact absurd (hFlight id total index rfl r hRow) hAction
  | paid _ _ _ | held =>
    refine ⟨Extends.refl _, le_refl _, fun _ => le_refl _, ?_, ?_, le_refl _,
      fun _ hActive => hActive⟩
    · simp [Store.spend]
    · intro hLength
      simp [Store.spend] at hLength
  | refunded index _ =>
    refine ⟨Extends.refl _, le_refl _, fun _ => le_refl _, ?_, fun _ _ => spentOn_refund,
      le_refl _, fun _ hActive => hActive⟩
    simp [Store.refund]
  | @updated permissions =>
    refine ⟨Extends.refl _, le_refl _, ?_, le_refl _, fun _ _ => le_refl _, Nat.le_succ _, ?_⟩
    · intro day
      exact note_caps { s with
        permissions := { permissions with revoked := false }
        updates := s.updates + 1 } day
    · intro hUpdates
      exact absurd hUpdates (Nat.succ_ne_self _)
  | revoking =>
    refine ⟨Extends.refl _, le_refl _, fun _ => le_refl _, le_refl _, fun _ _ => le_refl _,
      le_refl _, ?_⟩
    intro _ hActive
    cases hActive
  | revoked =>
    exact ⟨Extends.refl _, le_refl _, fun _ => le_refl _, le_refl _, fun _ _ => le_refl _,
      le_refl _, fun _ hActive => hActive⟩
  | @waited elapsed =>
    refine ⟨Extends.refl _, Nat.le_add_right _ _, ?_, le_refl _, fun _ _ => le_refl _, le_refl _,
      fun _ hActive => hActive⟩
    intro day
    exact note_caps { s with now := s.now + elapsed } day

theorem Disabled.moves {updates : ℕ} (h : Disabled updates s) (hMoves : Moves s s') :
    Disabled updates s' := by
  refine ⟨h.le.trans hMoves.updates, ?_⟩
  intro hUpdates
  have hSame : s'.updates = s.updates :=
    le_antisymm (hUpdates.trans_le h.le) hMoves.updates
  by_contra hActive
  rw [Bool.not_eq_false] at hActive
  have hBefore := hMoves.active hSame hActive
  rw [h.inactive (hSame.symm.trans hUpdates)] at hBefore
  cases hBefore

end Moves

/-! What a call knows. -/

section Knowledge
variable {calendar : Calendar} {o : Outcome} {s s' : Store} {call call' : Call} {a : Attempt}
  {p : Snapshot} {k : Sum}

def FlightRow (id : ℕ) (s : Store) : Prop := ∃ r, s.requests[id]? = some r ∧ r.action = .bookFlight

/-- The request is as it has been read. -/
def OwnRow (a : Attempt) (s : Store) : Prop :=
  ∃ r, s.requests[a.id]? = some r ∧ r.action ≠ .bookFlight ∧ r.amount = a.amount ∧
    r.createdAt = a.createdAt

/-- The confirmation has found the permissions active, and its amount within their cap. -/
structure Passed (calendar : Calendar) (a : Attempt) (p : Snapshot) (s : Store) : Prop where
  started : a.started = none
  single : a.amount ≤ p.perTxCap
  since : p.since ≤ s.now
  daily : p.dailyCap ≤ s.largestCap (calendar.startOfDay p.since)

/-- As long as nothing else is spent, this much more can be spent on the day of the sum. -/
structure Leaves (calendar : Calendar) (p : Snapshot) (k : Sum) (amount bound : ℕ) (s : Store) :
    Prop where
  order : p.since ≤ k.takenAt
  taken : k.takenAt ≤ s.now
  length : k.spends ≤ s.spends.length
  fits : s.spends.length = k.spends →
    s.spentOn (calendar.startOfDay k.takenAt) + amount ≤ bound

/-- What the sum counts of the request itself. -/
def selfAmount (calendar : Calendar) (a : Attempt) (k : Sum) : ℕ :=
  if calendar.startOfDay k.takenAt ≤ a.createdAt then a.amount else 0

def Knows (calendar : Calendar) (s : Store) : Call → Prop
  | .checkCaps a => OwnRow a s ∧ ∀ updates ∈ a.started, Disabled updates s
  | .committedToday a p => OwnRow a s ∧ Passed calendar a p s
  | .excludeSelf a p k => OwnRow a s ∧ Passed calendar a p s ∧
    Leaves calendar p k (selfAmount calendar a k) k.today s
  | .claimAction a p k | .pay a p k =>
    Passed calendar a p s ∧ Leaves calendar p k a.amount p.dailyCap s
  | .checkAiAction a => FlightRow a.id s ∧ ∀ updates ∈ a.started, Disabled updates s
  | .executedToday a p => FlightRow a.id s ∧ Passed calendar a p s
  | .holdFlight a p k => FlightRow a.id s ∧ Passed calendar a p s ∧
    Leaves calendar p k a.amount p.dailyCap s
  | .orderFlight id _ _ | .confirmFlight id _ _ => FlightRow id s
  | .cancelPending updates | .revoked updates => Disabled updates s
  | _ => True

theorem knows_plain (h : call.plain = true) : Knows calendar s call := by
  cases call with
  | checkCaps _ | committedToday _ _ | excludeSelf _ _ _ | claimAction _ _ _ | pay _ _ _
  | checkAiAction _ | executedToday _ _ | holdFlight _ _ _ | orderFlight _ _ _
  | confirmFlight _ _ _ | cancelPending _ | revoked _ => cases h
  | _ => exact trivial

theorem FlightRow.moves {id : ℕ} (h : FlightRow id s) (hMoves : Moves s s') : FlightRow id s' := by
  obtain ⟨r, hRow, hAction⟩ := h
  obtain ⟨r', hRow', hSame⟩ := hMoves.rows id r hRow
  exact ⟨r', hRow', hSame.action.trans hAction⟩

theorem OwnRow.moves (h : OwnRow a s) (hMoves : Moves s s') : OwnRow a s' := by
  obtain ⟨r, hRow, hAction, hAmount, hCreated⟩ := h
  obtain ⟨r', hRow', hSame⟩ := hMoves.rows a.id r hRow
  exact ⟨r', hRow', hSame.action ▸ hAction, (hSame.amount hAction).trans hAmount,
    hSame.createdAt.trans hCreated⟩

theorem Passed.moves (h : Passed calendar a p s) (hMoves : Moves s s') :
    Passed calendar a p s' :=
  ⟨h.started, h.single, h.since.trans hMoves.now, h.daily.trans (hMoves.caps _)⟩

theorem Leaves.moves {amount bound : ℕ} (h : Leaves calendar p k amount bound s)
    (hMoves : Moves s s') : Leaves calendar p k amount bound s' := by
  refine ⟨h.order, h.taken.trans hMoves.now, h.length.trans hMoves.length, ?_⟩
  intro hLength
  have hLe := hMoves.length
  have hOwn := h.length
  have hFits := h.fits (by omega)
  have hSpent := hMoves.spent (by omega) (calendar.startOfDay k.takenAt)
  omega

theorem knows_moves (h : Knows calendar s call) (hMoves : Moves s s') : Knows calendar s' call := by
  cases call with
  | checkCaps a => exact ⟨h.1.moves hMoves, fun updates hMem => (h.2 updates hMem).moves hMoves⟩
  | committedToday a p => exact ⟨h.1.moves hMoves, h.2.moves hMoves⟩
  | excludeSelf a p k => exact ⟨h.1.moves hMoves, h.2.1.moves hMoves, h.2.2.moves hMoves⟩
  | claimAction a p k | pay a p k => exact ⟨h.1.moves hMoves, h.2.moves hMoves⟩
  | checkAiAction a =>
    exact ⟨h.1.moves hMoves, fun updates hMem => (h.2 updates hMem).moves hMoves⟩
  | executedToday a p => exact ⟨h.1.moves hMoves, h.2.moves hMoves⟩
  | holdFlight a p k => exact ⟨h.1.moves hMoves, h.2.1.moves hMoves, h.2.2.moves hMoves⟩
  | orderFlight id total index | confirmFlight id total index =>
    have hFlight : FlightRow id s := h
    exact hFlight.moves hMoves
  | cancelPending updates | revoked updates =>
    have hDisabled : Disabled updates s := h
    exact hDisabled.moves hMoves
  | _ => exact trivial

theorem moves_step (hKnows : Knows calendar s call) (hTook : Took calendar o s call s' call') :
    Moves s s' := by
  refine moves_of_took ?_ hTook
  rintro id total index rfl r hRow
  obtain ⟨row, hRow', hAction⟩ := hKnows
  rw [hRow, Option.some.injEq] at hRow'
  rw [hRow']
  exact hAction

/-! The invariant. -/

structure Kept (calendar : Calendar) (s : Store) : Prop extends Consistent s where
  cap : s.permissions.dailyCap ≤ s.largestCap (s.today calendar)
  disabled : ∀ updates ∈ s.revokedAt, Disabled updates s

/-- Nothing is spent by such a step. -/
theorem Kept.moves (h : Kept calendar s) (hMoves : Moves s s') (hSpends : s'.spends = s.spends)
    (hCap : s'.permissions.dailyCap ≤ s'.largestCap (s'.today calendar))
    (hRevoked : s'.revokedAt = s.revokedAt) : Kept calendar s' := by
  refine ⟨⟨?_, hSpends ▸ h.single, hSpends ▸ h.revoked⟩, hCap, ?_⟩
  · intro day
    have hSpent := hMoves.spent (by rw [hSpends]) day
    exact (hSpent.trans (h.daily day)).trans (hMoves.caps day)
  · intro updates hMem
    rw [hRevoked] at hMem
    exact (h.disabled updates hMem).moves hMoves

theorem started_none (hStarted : ∀ updates ∈ a.started, Disabled updates s)
    (hHeeds : ∀ updates ∈ a.started, s.updates = updates) (hActive : s.permissions.active = true) :
    a.started = none := by
  cases hCase : a.started with
  | none => rfl
  | some updates =>
    have hMem : updates ∈ a.started := hCase
    rw [(hStarted updates hMem).inactive (hHeeds updates hMem)] at hActive
    cases hActive

theorem passed_snapshot (h : Kept calendar s) (hStarted : ∀ updates ∈ a.started, Disabled updates s)
    (hHeeds : ∀ updates ∈ a.started, s.updates = updates) (hActive : s.permissions.active = true)
    (hSingle : a.amount ≤ s.permissions.perTxCap) : Passed calendar a s.snapshot s :=
  ⟨started_none hStarted hHeeds hActive, hSingle, le_refl _, h.cap⟩

/-- The payment that its check allows. -/
theorem kept_spend {price : ℕ} (h : Kept calendar s) (hPassed : Passed calendar a p s)
    (hLeaves : Leaves calendar p k a.amount p.dailyCap s) (hFresh : Fresh calendar p k s)
    (hPrice : price ≤ a.amount) : Kept calendar (s.spend calendar a price) := by
  obtain ⟨hDay, hCap, hLength⟩ := hFresh
  have hTaken : calendar.startOfDay k.takenAt = s.today calendar := by
    have hLower := calendar.mono hLeaves.order
    have hUpper := calendar.mono hLeaves.taken
    rw [Store.today] at hDay ⊢
    omega
  have hFits := hLeaves.fits hLength
  have hDaily := hPassed.daily
  rw [hTaken] at hFits
  rw [← hDay] at hDaily
  refine ⟨⟨?_, ?_, ?_⟩, h.cap, ?_⟩
  · intro day
    rw [spentOn_append]
    split
    · rename_i hToday
      subst hToday
      have hLargest : (s.spend calendar a price).largestCap = s.largestCap := rfl
      rw [hLargest]
      omega
    · exact h.daily day
  · intro spend hMem
    rcases List.mem_append.mp hMem with hOld | hNew
    · exact h.single spend hOld
    · rw [List.mem_singleton.mp hNew]
      exact (hPrice.trans hPassed.single).trans hCap
  · intro spend hMem
    rcases List.mem_append.mp hMem with hOld | hNew
    · exact h.revoked spend hOld
    · rw [List.mem_singleton.mp hNew]
      simp [hPassed.started]
  · intro updates hMem
    exact ⟨(h.disabled updates hMem).le, (h.disabled updates hMem).inactive⟩

theorem kept_refund {index : ℕ} (h : Kept calendar s) : Kept calendar (s.refund index) := by
  refine ⟨⟨fun day => spentOn_refund.trans (h.daily day), ?_, ?_⟩, h.cap, ?_⟩
  · intro spend hMem
    obtain ⟨i, hRow⟩ := List.getElem?_of_mem hMem
    rcases getElem?_modify_cases hRow with ⟨-, old, hOld, rfl⟩ | ⟨-, hOld⟩
    · exact h.single old (List.mem_of_getElem? hOld)
    · exact h.single spend (List.mem_of_getElem? hOld)
  · intro spend hMem
    obtain ⟨i, hRow⟩ := List.getElem?_of_mem hMem
    rcases getElem?_modify_cases hRow with ⟨-, old, hOld, rfl⟩ | ⟨-, hOld⟩
    · exact h.revoked old (List.mem_of_getElem? hOld)
    · exact h.revoked spend (List.mem_of_getElem? hOld)
  · intro updates hMem
    exact ⟨(h.disabled updates hMem).le, (h.disabled updates hMem).inactive⟩

end Knowledge

end FarmBackend.SpendCaps
