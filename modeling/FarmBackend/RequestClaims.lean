import FarmBackend.AgentSteps
import FarmBackend.Ticket

/-!
# Who holds an agent request, and what its confirmation knows

A request is `processing` in the hands of one confirmation. Where nobody revokes the mandate and it
does not expire meanwhile, what `checkCaps` has found stays true until the request is confirmed.
-/

namespace FarmBackend.AgentPayments
open Decimal Wallets Interleaving Rows

set_option autoImplicit false

def Call.claimed : Call → Option Confirm
  | .confirm c => c.claimed
  | _ => none

/-- The claim on a request that a call holds. -/
def Call.holds (id : RequestId) (c : Call) : ℕ :=
  if c.claimed.any (fun q => q.requestId == id) then 1 else 0

/-- A request that nobody holds: it is pending, or does not exist yet. -/
def Store.unclaimed (id : RequestId) (s : Store) : Prop :=
  ∀ r, s.requests[id]? = some r → r.status = .pending

def requestTicket (id : RequestId) : Ticket Store Call where
  isOpen := Store.unclaimed id
  fired _ := 0
  holds := Call.holds id

section Claims
variable {id : RequestId} {s s' : Store} {c c' : Call} {o : Outcome} {env : Env}

theorem claimed_within (a : Attempt) (r : PayResult) :
    (Call.confirm (r.within a)).claimed = some a.confirm := by
  cases r <;> rfl

theorem claimed_alone (r : PayResult) : r.alone.claimed = none := by
  cases r <;> rfl

theorem claimed_of_isPlain (h : c.isPlain = true) : c.claimed = none := by
  cases c with
  | confirm c =>
    cases c with
    | expired q => rfl
    | _ => cases h
  | pay c => cases h
  | _ => rfl

/-- A step that leaves the requests alone keeps or drops the claims. -/
theorem keeps_of_requests (hRequests : s'.requests = s.requests)
    (hHolds : c'.holds id ≤ c.holds id) : (requestTicket id).Keeps s c s' c' := by
  refine ⟨Nat.add_le_add_left hHolds 0, fun hOpen => .inl ?_⟩
  intro r hRow
  exact hOpen r (by rw [hRequests]; exact hRow)

/-- A call that writes the request it holds gives its claim up. -/
theorem keeps_of_update {q : Confirm} {f : AgentRequest → AgentRequest}
    (hClaimed : c.claimed = some q) (hDone : c'.claimed = none)
    (hRequests : s'.requests = s.requests.modify q.requestId f) :
    (requestTicket id).Keeps s c s' c' := by
  have hAfter : c'.holds id = 0 := by simp [Call.holds, hDone]
  have hBefore : c.holds id = if q.requestId = id then 1 else 0 := by
    simp [Call.holds, hClaimed]
  constructor
  · show 0 + c'.holds id ≤ 0 + c.holds id
    omega
  · intro hOpen
    by_cases hId : q.requestId = id
    · right
      show 0 + c'.holds id < 0 + c.holds id
      rw [hAfter, hBefore, if_pos hId]
      omega
    · left
      intro r hRow
      refine hOpen r ?_
      rw [hRequests, getElem?_modify_ne f hId]
      exact hRow

theorem holds_took (h : Took env o s c s' c') :
    (requestTicket id).Keeps s c s' c' ∨ (requestTicket id).Takes s c s' c' := by
  cases h with
  | pay c =>
    refine .inl (keeps_of_requests (payFrame_payStep c).requests ?_)
    simp [Call.holds, claimed_alone]
  | paying a c =>
    refine .inl (keeps_of_requests (payFrame_payStep c).requests (le_of_eq ?_))
    rw [Call.holds, Call.holds, claimed_within]
    rfl
  | aside hPlain hAside =>
    refine .inl ⟨?_, fun hOpen => .inl ?_⟩
    · show 0 + c'.holds id ≤ 0 + c.holds id
      simp [Call.holds, claimed_of_isPlain hPlain]
    · intro r hRow
      obtain ⟨r', hRow', hCloses⟩ := hAside.requests.forward hRow
      rcases hCloses with rfl | ⟨hPending, _⟩
      · exact hOpen r' hRow'
      · exact hPending
  | creating hAside hRequests _ => exact .inl (keeps_of_requests hRequests le_rfl)
  | created d m i =>
    refine .inl ⟨le_rfl, fun hOpen => .inl ?_⟩
    intro r hRow
    exact hOpen r (getElem?_append_of_some hRow)
  | @claim q r row hRow hPending =>
    by_cases hId : q.requestId = id
    · right
      subst hId
      refine ⟨?_, ?_, ?_⟩
      · intro r' hRow'
        rw [hRow, Option.some.injEq] at hRow'
        rw [← hRow', hPending]
      · intro hOpen
        have hStatus := hOpen _ (getElem?_modify_self _ hRow)
        cases hStatus
      · simp [requestTicket, Call.holds, Call.claimed, ConfirmCall.claimed]
    · left
      refine ⟨?_, fun hOpen => .inl ?_⟩
      · simp [requestTicket, Call.holds, Call.claimed, ConfirmCall.claimed, hId]
      · intro r' hRow'
        refine hOpen r' ?_
        exact (getElem?_modify_ne _ hId).trans hRow'
  | @thrown c q e hClaimed =>
    refine .inl (keeps_of_requests rfl (le_of_eq ?_))
    simp only [Call.holds, Call.claimed, hClaimed]
    rfl
  | mark a reference _ => exact .inl (keeps_of_update rfl rfl rfl)
  | settle q e => exact .inl (keeps_of_update rfl rfl rfl)
  | read _ _ => exact .inl (keeps_of_requests rfl le_rfl)
  | checked _ _ => exact .inl (keeps_of_requests rfl le_rfl)
  | counted a => exact .inl (keeps_of_requests rfl le_rfl)
  | started _ _ => exact .inl (keeps_of_requests rfl le_rfl)
  | revoke _ => exact .inl (keeps_of_requests rfl le_rfl)

end Claims

theorem requestTicket_sound {env : Env} {ok : Guard Store Call Outcome} {start : Store}
    {c : Config Store Call} (h : (program env).Reaches ok (Program.idle start) c)
    (id : RequestId) : (requestTicket id).Sound c := by
  refine Ticket.Sound.reaches h ⟨?_, ?_⟩ ?_ ?_
  · simp [Ticket.spent, requestTicket, Program.idle]
  · simp [Ticket.spent, requestTicket, Program.idle]
  · intro request
    cases request with
    | pay p =>
      show Call.holds id (payEnter p).alone = 0
      simp [Call.holds, claimed_alone]
    | _ => rfl
  · intro o s s' call call' _ _ _ _ hStep
    have hTook := @holds_took id _ _ _ _ _ _ (took_of_step hStep)
    exact hTook

/-! What a confirmation knows of its request and its mandate. -/

/-- A mandate under which a request is being confirmed does not expire while `elapsed` passes. -/
def Store.lasts (elapsed : ℕ) (s : Store) : Bool :=
  s.requests.all fun r => r.status != .processing || (s.mandates[r.authorizationId]?).all fun m =>
    decide (s.now < m.expiresAt → s.now + elapsed < m.expiresAt)

/-- A mandate is not revoked while one of its requests is being confirmed, and a request is marked
confirmed on the day it was created. -/
def spares (env : Env) (o : Outcome) (s : Store) : Call → Bool
  | .revoke _ id => s.requests.all fun r => r.status != .processing || r.authorizationId != id
  | .confirm (.mark a _) => o.fails || (s.requests[a.confirm.requestId]?).all fun r =>
      env.calendar.startOfDay r.createdAt == env.calendar.startOfDay s.now
  | _ => true

abbrev Careful (env : Env) : Guard Store Call Outcome := fun o s c =>
  (s.lasts o.elapsed && spares env o (s.pass o.elapsed) c) = true

/-- The request is there as it was read, and being confirmed. -/
def Processing (s : Store) (q : Confirm) (r : AgentRequest) : Prop :=
  ∃ row, s.requests[q.requestId]? = some row ∧ SameAs r row ∧ row.status = .processing

/-- What `checkCaps` has found. The sums start at a time since the request was created. -/
structure Attempt.Checked (env : Env) (s : Store) (a : Attempt) : Prop where
  processing : Processing s a.confirm a.row
  mandate : s.mandates[a.row.authorizationId]? = some a.mandate
  allows : a.mandate.allows s.now a.row.amount
  since : ∃ t, a.row.createdAt ≤ t ∧ t ≤ s.now ∧
    a.usage.sinceDay = env.calendar.startOfDay t ∧ a.usage.sinceMonth = env.calendar.startOfMonth t

def Attempt.Fits (a : Attempt) : Prop :=
  a.usage.complete = true ∧ a.usage.fits a.mandate a.row.amount

def ConfirmCall.Sees (env : Env) (s : Store) : ConfirmCall → Prop
  | .claim q r => ∃ row, s.requests[q.requestId]? = some row ∧ SameAs r row
  | .mandate q r => Processing s q r
  | .usage a => a.Checked env s
  | .paying a _ => a.Checked env s ∧ a.Fits
  | .mark a _ => a.Checked env s ∧ a.Fits
  | _ => True

def Call.Sees (env : Env) (s : Store) : Call → Prop
  | .confirm c => c.Sees env s
  | .create c => ∀ i, c.intent? = some i → 0 ≤ i.amount
  | _ => True

/-- A confirmed request: under a mandate that was in force, and on the day it was created. -/
def Decided (env : Env) (s : Store) (r : AgentRequest) : Prop :=
  ∃ m t, s.mandates[r.authorizationId]? = some m ∧ r.decidedAt = some t ∧ t ≤ s.now ∧
    t < m.expiresAt ∧ (∀ revoked, m.revokedAt = some revoked → t ≤ revoked) ∧
    r.amount ≤ m.perTxCap ∧ env.calendar.startOfDay r.createdAt = env.calendar.startOfDay t

structure InForce (env : Env) (s : Store) : Prop where
  intents : ∀ i ∈ s.intents, 0 ≤ i.amount
  requests : ∀ r ∈ s.requests, 0 ≤ r.amount ∧ r.createdAt ≤ s.now
  mandates : ∀ m ∈ s.mandates, m.active = true → m.revokedAt = none
  confirmed : ∀ r ∈ s.requests, r.status = .confirmed → Decided env s r

section Sees
variable {env : Env} {s s' : Store} {o : Outcome} {c c' : Call}

/-! Time passes. -/

theorem InForce.pass (h : InForce env s) (elapsed : ℕ) : InForce env (s.pass elapsed) := by
  refine ⟨h.intents, ?_, h.mandates, ?_⟩
  · intro r hMem
    obtain ⟨hAmount, hCreated⟩ := h.requests r hMem
    exact ⟨hAmount, hCreated.trans (Nat.le_add_right _ _)⟩
  · intro r hMem hStatus
    obtain ⟨m, t, hMandate, hDecided, hNow, hRest⟩ := h.confirmed r hMem hStatus
    exact ⟨m, t, hMandate, hDecided, hNow.trans (Nat.le_add_right _ _), hRest⟩

theorem lasts_mandate {elapsed : ℕ} {id : RequestId} {r : AgentRequest} {m : Mandate}
    (h : s.lasts elapsed = true) (hRow : s.requests[id]? = some r) (hStatus : r.status = .processing)
    (hMandate : s.mandates[r.authorizationId]? = some m) (hNow : s.now < m.expiresAt) :
    s.now + elapsed < m.expiresAt := by
  have hRows := List.all_eq_true.mp h r (List.mem_of_getElem? hRow)
  simp only [hStatus, hMandate, bne_self_eq_false, Bool.false_or, Option.all_some,
    decide_eq_true_eq] at hRows
  exact hRows hNow

theorem Attempt.Checked.pass {a : Attempt} {elapsed : ℕ} (h : a.Checked env s)
    (hLasts : s.lasts elapsed = true) : a.Checked env (s.pass elapsed) := by
  obtain ⟨row, hRow, hSame, hStatus⟩ := h.processing
  obtain ⟨hActive, hNow, hAmount⟩ := h.allows
  obtain ⟨t, hCreated, hBefore, hDay, hMonth⟩ := h.since
  refine ⟨⟨row, hRow, hSame, hStatus⟩, h.mandate, ⟨hActive, ?_, hAmount⟩, t, hCreated,
    hBefore.trans (Nat.le_add_right _ _), hDay, hMonth⟩
  refine lasts_mandate hLasts hRow hStatus ?_ hNow
  rw [hSame.authorizationId]
  exact h.mandate

theorem Call.Sees.pass {elapsed : ℕ} (h : c.Sees env s) (hLasts : s.lasts elapsed = true) :
    c.Sees env (s.pass elapsed) := by
  cases c with
  | confirm c =>
    cases c with
    | claim q r => exact h
    | mandate q r => exact h
    | usage a => exact Attempt.Checked.pass h hLasts
    | paying a c => exact ⟨h.1.pass hLasts, h.2⟩
    | mark a reference => exact ⟨h.1.pass hLasts, h.2⟩
    | _ => exact trivial
  | create c => exact h
  | _ => exact trivial

/-! A step is taken. -/

/-- A request that is being confirmed is written by the call that holds it only. -/
theorem processing_took (h : Took env o s c s' c') {id : RequestId} {r : AgentRequest}
    (hRow : s.requests[id]? = some r) (hStatus : r.status = .processing)
    (hNone : c.holds id = 0) : s'.requests[id]? = some r := by
  have hOther : ∀ q, c.claimed = some q → q.requestId ≠ id := by
    intro q hClaimed hSame
    simp [Call.holds, hClaimed, hSame] at hNone
  cases h with
  | pay c => rwa [(payFrame_payStep c).requests]
  | paying a c => rwa [(payFrame_payStep c).requests]
  | aside _ hAside =>
    obtain ⟨r', hRow', hCloses⟩ := hAside.requests.forward hRow
    rcases hCloses with rfl | ⟨hPending, _⟩
    · exact hRow'
    · rw [hStatus] at hPending
      cases hPending
  | creating _ hRequests _ => rwa [hRequests]
  | created d m i => exact getElem?_append_of_some hRow
  | @claim q _ row hOld hPending =>
    have hId : q.requestId ≠ id := by
      rintro rfl
      rw [hRow, Option.some.injEq] at hOld
      rw [← hOld, hStatus] at hPending
      cases hPending
    exact (getElem?_modify_ne _ hId).trans hRow
  | mark a reference _ => exact (getElem?_modify_ne _ (hOther _ rfl)).trans hRow
  | settle q e => exact (getElem?_modify_ne _ (hOther _ rfl)).trans hRow
  | _ => exact hRow

theorem mandate_took (h : Took env o s c s' c') (hSpares : spares env o s c = true)
    {id : RequestId} {r : AgentRequest} {m : Mandate} (hRow : s.requests[id]? = some r)
    (hStatus : r.status = .processing) (hMandate : s.mandates[r.authorizationId]? = some m) :
    s'.mandates[r.authorizationId]? = some m := by
  cases h with
  | pay c => rwa [(payFrame_payStep c).mandates]
  | paying a c => rwa [(payFrame_payStep c).mandates]
  | aside _ hAside => rwa [hAside.mandates]
  | creating hAside _ _ => rwa [hAside.mandates]
  | @revoke userId other _ _ =>
    have hRows := List.all_eq_true.mp hSpares r (List.mem_of_getElem? hRow)
    simp only [hStatus, bne_self_eq_false, Bool.false_or, bne_iff_ne] at hRows
    exact (getElem?_modify_ne _ (Ne.symm hRows)).trans hMandate
  | _ => exact hMandate

theorem Attempt.Checked.took {a : Attempt} (h : a.Checked env s) (hTook : Took env o s c s' c')
    (hSpares : spares env o s c = true) (hProcessing : Processing s' a.confirm a.row) :
    a.Checked env s' := by
  obtain ⟨row, hRow, hSame, hStatus⟩ := h.processing
  have hNow := now_took hTook
  refine ⟨hProcessing, ?_, by rw [hNow]; exact h.allows, by rw [hNow]; exact h.since⟩
  have hMandate := h.mandate
  rw [← hSame.authorizationId] at hMandate ⊢
  exact mandate_took hTook hSpares hRow hStatus hMandate

theorem Attempt.Checked.count {a : Attempt} (h : a.Checked env s) (o : Outcome) :
    (a.count o s).Checked env s := by
  refine ⟨h.processing, h.mandate, h.allows, ?_⟩
  obtain ⟨t, hCreated, hNow, hDay, hMonth⟩ := h.since
  refine ⟨t, hCreated, hNow, ?_⟩
  unfold Attempt.count Usage.read
  split <;> exact ⟨hDay, hMonth⟩

/-- A step of a call that holds another request. -/
theorem Call.Sees.others {call : Call} (h : c.Sees env s) (hTook : Took env o s call s' c')
    (hSpares : spares env o s call = true) (hApart : ∀ id, c.holds id = 1 → call.holds id = 0) :
    c.Sees env s' := by
  have hProcessing : ∀ q r, c.claimed = some q → Processing s q r → Processing s' q r := by
    rintro q r hClaimed ⟨row, hRow, hSame, hStatus⟩
    have hNone : call.holds q.requestId = 0 := hApart q.requestId (by simp [Call.holds, hClaimed])
    exact ⟨row, processing_took hTook hRow hStatus hNone, hSame, hStatus⟩
  cases c with
  | confirm c =>
    cases c with
    | claim q r =>
      obtain ⟨row, hRow, hSame⟩ := h
      obtain ⟨row', hRow', hSame'⟩ := sameAs_took hTook hRow
      exact ⟨row', hRow', hSame.trans hSame'⟩
    | mandate q r => exact hProcessing q r rfl h
    | usage a =>
      exact Attempt.Checked.took h hTook hSpares (hProcessing _ _ rfl (Attempt.Checked.processing h))
    | paying a c =>
      exact ⟨h.1.took hTook hSpares (hProcessing _ _ rfl h.1.processing), h.2⟩
    | mark a reference =>
      exact ⟨h.1.took hTook hSpares (hProcessing _ _ rfl h.1.processing), h.2⟩
    | _ => exact trivial
  | create c => exact h
  | _ => exact trivial

theorem Decided.of_eq {r : AgentRequest} (h : Decided env s r) (hMandates : s'.mandates = s.mandates)
    (hNow : s'.now = s.now) : Decided env s' r := by
  unfold Decided
  rw [hMandates, hNow]
  exact h

theorem InForce.of_requests (h : InForce env s) (hNow : s'.now = s.now)
    (hMandates : s'.mandates = s.mandates)
    (hAmounts : Related SameAmount s.intents s'.intents)
    (hRequests : ∀ r' ∈ s'.requests, ∃ r ∈ s.requests, SameAs r r' ∧
      (r'.status = .confirmed → r' = r)) : InForce env s' := by
  refine ⟨?_, ?_, ?_, ?_⟩
  · intro i' hMem
    obtain ⟨id, hRow'⟩ := List.getElem?_of_mem hMem
    obtain ⟨i, hRow, hAmount⟩ := hAmounts.backward hRow'
    have hNonneg := h.intents i (List.mem_of_getElem? hRow)
    unfold SameAmount at hAmount
    rwa [hAmount]
  · intro r' hMem'
    obtain ⟨r, hMem, hSame, _⟩ := hRequests r' hMem'
    rw [hSame.amount, hSame.createdAt, hNow]
    exact h.requests r hMem
  · rw [hMandates]
    exact h.mandates
  · intro r' hMem' hStatus
    obtain ⟨r, hMem, _, hConfirmed⟩ := hRequests r' hMem'
    have hEq := hConfirmed hStatus
    subst hEq
    exact (h.confirmed r' hMem hStatus).of_eq hMandates hNow

theorem InForce.payFrame (h : InForce env s) (hFrame : PayFrame s s') : InForce env s' := by
  refine h.of_requests hFrame.now hFrame.mandates hFrame.amounts ?_
  intro r hMem
  rw [hFrame.requests] at hMem
  exact ⟨r, hMem, .refl r, fun _ => rfl⟩

theorem InForce.aside (h : InForce env s) (hAside : Aside s s') : InForce env s' := by
  refine h.of_requests hAside.now hAside.mandates (amounts_idles hAside.intents) ?_
  intro r' hMem
  obtain ⟨id, hRow'⟩ := List.getElem?_of_mem hMem
  obtain ⟨r, hRow, hCloses⟩ := hAside.requests.backward hRow'
  refine ⟨r, List.mem_of_getElem? hRow, hCloses.sameAs, ?_⟩
  rcases hCloses with rfl | ⟨_, hInactive, _⟩
  · exact fun _ => rfl
  · intro hStatus
    rw [hStatus] at hInactive
    cases hInactive

theorem InForce.requestsUpdate (h : InForce env s) {id : RequestId}
    {f : AgentRequest → AgentRequest} (hf : ∀ r, SameAs r (f r) ∧ (f r).status ≠ .confirmed) :
    InForce env (s.requestsUpdate id f) := by
  refine h.of_requests rfl rfl (.refl SameAmount.refl _) ?_
  intro r' hMem
  obtain ⟨other, hRow'⟩ := List.getElem?_of_mem hMem
  rcases getElem?_modify_cases hRow' with ⟨_, r, hRow, rfl⟩ | ⟨_, hRow⟩
  · obtain ⟨hSame, hOpen⟩ := hf r
    exact ⟨r, List.mem_of_getElem? hRow, hSame, fun hStatus => absurd hStatus hOpen⟩
  · exact ⟨r', List.mem_of_getElem? hRow, .refl r', fun _ => rfl⟩

/-- A revocation comes after every confirmation. -/
theorem InForce.revoke (h : InForce env s) {id : MandateId} :
    InForce env { s with mandates := s.mandates.modify id fun m =>
      { m with active := false, revokedAt := some s.now } } := by
  refine ⟨h.intents, h.requests, ?_, ?_⟩
  · intro m' hMem hActive
    obtain ⟨other, hRow'⟩ := List.getElem?_of_mem hMem
    rcases getElem?_modify_cases hRow' with ⟨_, m, _, rfl⟩ | ⟨_, hRow⟩
    · cases hActive
    · exact h.mandates m' (List.mem_of_getElem? hRow) hActive
  · intro r hMem hStatus
    obtain ⟨m, t, hMandate, hDecided, hNow, hExpires, hRevoked, hAmount, hDay⟩ :=
      h.confirmed r hMem hStatus
    by_cases hId : id = r.authorizationId
    · subst hId
      refine ⟨_, t, getElem?_modify_self _ hMandate, hDecided, hNow, hExpires, ?_, hAmount, hDay⟩
      intro revoked hSome
      simp only [Option.some.injEq] at hSome
      subst hSome
      exact hNow
    · exact ⟨m, t, (getElem?_modify_ne _ hId).trans hMandate, hDecided, hNow, hExpires, hRevoked,
        hAmount, hDay⟩

theorem InForce.confirm (h : InForce env s) {a : Attempt} {reference : Option ℕ}
    (hChecked : a.Checked env s) (hAnswered : o.fails = false)
    (hSpares : spares env o s (.confirm (.mark a reference)) = true) :
    InForce env (s.confirm a.confirm.requestId reference) := by
  obtain ⟨row, hRow, hSame, _⟩ := hChecked.processing
  refine ⟨h.intents, ?_, h.mandates, ?_⟩
  · intro r' hMem
    obtain ⟨other, hRow'⟩ := List.getElem?_of_mem hMem
    rcases getElem?_modify_cases hRow' with ⟨_, r, hOld, rfl⟩ | ⟨_, hOld⟩
    · exact h.requests r (List.mem_of_getElem? hOld)
    · exact h.requests r' (List.mem_of_getElem? hOld)
  · intro r' hMem hStatus
    obtain ⟨other, hRow'⟩ := List.getElem?_of_mem hMem
    rcases getElem?_modify_cases hRow' with ⟨_, r, hOld, rfl⟩ | ⟨_, hOld⟩
    · rw [hRow, Option.some.injEq] at hOld
      subst hOld
      obtain ⟨hActive, hNow, hAmount⟩ := hChecked.allows
      have hMandate := hChecked.mandate
      rw [← hSame.authorizationId] at hMandate
      rw [value_le_value, ← hSame.amount] at hAmount
      simp only [spares, hAnswered, hRow, Bool.false_or, Option.all_some, beq_iff_eq] at hSpares
      refine ⟨a.mandate, s.now, hMandate, rfl, le_rfl, hNow, ?_, hAmount, hSpares⟩
      intro revoked hRevoked
      rw [h.mandates _ (List.mem_of_getElem? hMandate) hActive] at hRevoked
      cases hRevoked
    · exact (h.confirmed r' (List.mem_of_getElem? hOld) hStatus).of_eq rfl rfl

theorem sees_of_isPlain (h : c.isPlain = true) : c.Sees env s := by
  cases c with
  | confirm c =>
    cases c with
    | expired q => exact trivial
    | _ => cases h
  | create c => cases h
  | _ => exact trivial

theorem InForce.took (h : InForce env s) (hSees : c.Sees env s) (hTook : Took env o s c s' c')
    (hSpares : spares env o s c = true) : InForce env s' ∧ c'.Sees env s' := by
  cases hTook with
  | pay c =>
    refine ⟨h.payFrame (payFrame_payStep c), ?_⟩
    cases (payStep o s c).2 <;> exact trivial
  | paying a c =>
    obtain ⟨hChecked, hFits⟩ := hSees
    have hFrame := @payFrame_payStep o s c
    have hProcessing : Processing (payStep o s c).1 a.confirm a.row := by
      unfold Processing
      rw [hFrame.requests]
      exact hChecked.processing
    have hAfter := hChecked.took (.paying s a c) hSpares hProcessing
    refine ⟨h.payFrame hFrame, ?_⟩
    cases (payStep o s c).2 with
    | going c' => exact ⟨hAfter, hFits⟩
    | paid reference => exact ⟨hAfter, hFits⟩
    | thrown e => exact trivial
  | aside hPlain hAside => exact ⟨h.aside hAside, sees_of_isPlain hPlain⟩
  | revoke hMandate => exact ⟨h.revoke, trivial⟩
  | creating hAside hRequests hRead =>
    refine ⟨h.aside hAside, ?_⟩
    intro i hIntent
    rcases hRead i hIntent with hOld | hMem
    · exact hSees i hOld
    · exact h.intents i hMem
  | created d m i =>
    have hAmount : 0 ≤ i.amount := hSees i rfl
    refine ⟨⟨h.intents, ?_, h.mandates, ?_⟩, trivial⟩
    · intro r hMem
      rcases List.mem_append.mp hMem with hMem | hMem
      · exact h.requests r hMem
      · rw [List.mem_singleton.mp hMem]
        exact ⟨hAmount, le_rfl⟩
    · intro r hMem hStatus
      rcases List.mem_append.mp hMem with hMem | hMem
      · exact (h.confirmed r hMem hStatus).of_eq rfl rfl
      · rw [List.mem_singleton.mp hMem] at hStatus
        cases hStatus
  | read hRow hUser => exact ⟨h, _, hRow, .refl _⟩
  | claim hRow hPending =>
    refine ⟨h.requestsUpdate fun r => ⟨⟨rfl, rfl, rfl, rfl, rfl⟩, nofun⟩, ?_⟩
    obtain ⟨row, hOld, hSame⟩ := hSees
    refine ⟨_, getElem?_modify_self _ hOld, ?_, rfl⟩
    exact hSame.trans ⟨rfl, rfl, rfl, rfl, rfl⟩
  | thrown e hClaimed => exact ⟨h, trivial⟩
  | @checked q r m hMandate hAllows =>
    obtain ⟨row, hRow, hSame, hStatus⟩ := hSees
    have hCreated := (h.requests row (List.mem_of_getElem? hRow)).2
    rw [hSame.createdAt] at hCreated
    exact ⟨h, ⟨row, hRow, hSame, hStatus⟩, hMandate, hAllows, s.now, hCreated, le_rfl, rfl, rfl⟩
  | counted a => exact ⟨h, hSees.count o⟩
  | started hComplete hFits => exact ⟨h, Attempt.Checked.count hSees o, hComplete, hFits⟩
  | mark a reference hAnswered => exact ⟨h.confirm hSees.1 hAnswered hSpares, trivial⟩
  | settle q e =>
    refine ⟨h.requestsUpdate fun r => ⟨⟨rfl, rfl, rfl, rfl, rfl⟩, ?_⟩, trivial⟩
    cases e.final <;> simp

end Sees

/-- A careful run keeps mandates in force, and its confirmations see that. -/
theorem inForce_of_reaches {env : Env} {start : Store} {c : Config Store Call}
    (hStart : InForce env start) (h : (program env).Reaches (Careful env) (Program.idle start) c) :
    InForce env c.store ∧ ∀ call ∈ c.calls, call.Sees env c.store := by
  refine h.assertions_among (InForce env) (fun s c => c.Sees env s)
    ⟨hStart, by simp [Program.idle]⟩ ?_ ?_ ?_
  · intro request s _
    cases request with
    | pay p =>
      show Call.Sees env s (payEnter p).alone
      unfold payEnter
      split <;> exact trivial
    | create d => exact fun i hNone => by cases hNone
    | _ => exact trivial
  · intro o s s' call call' before after _ hInForce hSees hOk hStep
    obtain ⟨hLasts, hSpares⟩ := Bool.and_eq_true_iff.mp hOk
    exact (hInForce.pass o.elapsed).took (hSees.pass hLasts) (took_of_step hStep) hSpares
  · intro o s s' call call' before after other hRun hMem _ _ hOther hOk hStep
    obtain ⟨hLasts, hSpares⟩ := Bool.and_eq_true_iff.mp hOk
    refine (hOther.pass hLasts).others (took_of_step hStep) hSpares ?_
    intro id hHolds
    have hApart : 0 + call.holds id + other.holds id ≤ 1 := (requestTicket_sound hRun id).apart hMem
    omega

end FarmBackend.AgentPayments
