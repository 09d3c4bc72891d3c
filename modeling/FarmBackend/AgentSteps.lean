import FarmBackend.AgentCalls

/-!
# What a step of the agent service can do

One inversion lemma for `step`: `Took` lists the transitions that matter to an intent, to a request
or to a mandate, and puts all others under `aside`.
-/

namespace FarmBackend.AgentPayments
open Decimal Wallets Interleaving Rows

set_option autoImplicit false

/-- No payer has taken the intent, or no longer has it. -/
def IntentStatus.isOpen : IntentStatus → Bool
  | .requiresPayment | .canceled | .expired => true
  | _ => false

/-- What a step that is not a payer's may do to an intent. -/
def Idles (i i' : PaymentIntent) : Prop :=
  i' = i ∨ (i.status = .requiresPayment ∧ i'.status.isOpen = true ∧
    i'.payerUserId = i.payerUserId ∧ i'.liveMode = i.liveMode ∧ i'.amount = i.amount)

/-- The columns of a request that are never written again. -/
structure SameAs (r r' : AgentRequest) : Prop where
  authorizationId : r'.authorizationId = r.authorizationId
  userId : r'.userId = r.userId
  intentId : r'.intentId = r.intentId
  amount : r'.amount = r.amount
  createdAt : r'.createdAt = r.createdAt

/-- What a step that does not hold the request may do to it. -/
def Closes (r r' : AgentRequest) : Prop :=
  r' = r ∨ (r.status = .pending ∧ r'.status.isActive = false ∧ SameAs r r')

theorem SameAs.refl (r : AgentRequest) : SameAs r r := ⟨rfl, rfl, rfl, rfl, rfl⟩

theorem SameAs.trans {a b c : AgentRequest} (hab : SameAs a b) (hbc : SameAs b c) : SameAs a c :=
  ⟨hbc.authorizationId.trans hab.authorizationId, hbc.userId.trans hab.userId,
    hbc.intentId.trans hab.intentId, hbc.amount.trans hab.amount,
    hbc.createdAt.trans hab.createdAt⟩

theorem Idles.refl (i : PaymentIntent) : Idles i i := .inl rfl

theorem Closes.refl (r : AgentRequest) : Closes r r := .inl rfl

theorem Closes.sameAs {r r' : AgentRequest} (h : Closes r r') : SameAs r r' := by
  rcases h with rfl | ⟨_, _, hSame⟩
  · exact .refl _
  · exact hSame

theorem idles_expireIntent (now : Time) (i : PaymentIntent) : Idles i (expireIntent now i) := by
  unfold expireIntent
  split
  · rename_i hOpen
    exact .inr ⟨hOpen.1, rfl, rfl, rfl, rfl⟩
  · exact .refl i

theorem idles_expireIntents (which : Which) (s : Store) :
    Related Idles s.intents (s.expireIntents which).intents := by
  refine related_mapIdx ?_ s.intents
  intro id i
  split
  · exact idles_expireIntent s.now i
  · exact .refl i

theorem closes_cancelPending (now : Time) (r : AgentRequest) : Closes r (r.cancelPending now) := by
  unfold AgentRequest.cancelPending
  split
  · rename_i hPending
    exact .inr ⟨hPending, rfl, ⟨rfl, rfl, rfl, rfl, rfl⟩⟩
  · exact .refl r

def ConfirmCall.claimed : ConfirmCall → Option Confirm
  | .mandate q _ => some q
  | .usage a => some a.confirm
  | .paying a _ => some a.confirm
  | .mark a _ => some a.confirm
  | .settle q _ => some q
  | _ => none

def CreateCall.intent? : CreateCall → Option PaymentIntent
  | .usage _ _ i _ => some i
  | .openRequest _ _ i => some i
  | .create _ _ i => some i
  | _ => none

/-- Calls that neither hold nor remember anything. -/
def Call.isPlain : Call → Bool
  | .pay _ => false
  | .create _ => false
  | .confirm (.expired _) => true
  | .confirm _ => false
  | _ => true

/-- The store as a step aside leaves it. -/
structure Aside (s s' : Store) : Prop where
  now : s'.now = s.now
  intents : Related Idles s.intents s'.intents
  transfers : s'.transfers = s.transfers
  mandates : s'.mandates = s.mandates
  requests : Related Closes s.requests s'.requests

theorem Aside.refl (s : Store) : Aside s s :=
  ⟨rfl, .refl Idles.refl _, rfl, rfl, .refl Closes.refl _⟩

theorem aside_expireIntents (which : Which) (s : Store) : Aside s (s.expireIntents which) :=
  ⟨rfl, idles_expireIntents which s, rfl, rfl, .refl Closes.refl _⟩

def Attempt.count (o : Outcome) (s : Store) (a : Attempt) : Attempt :=
  { a with usage := a.usage.read o.monthFirst a.row.authorizationId (some a.confirm.requestId) s }

variable (env : Env) (o : Outcome)

inductive Took : Store → Call → Store → Call → Prop where
  | pay (s : Store) (c : PayCall) : Took s (.pay c) (payStep o s c).1 (payStep o s c).2.alone
  | paying (s : Store) (a : Attempt) (c : PayCall) :
      Took s (.confirm (.paying a c)) (payStep o s c).1 (.confirm ((payStep o s c).2.within a))
  | aside {s s' : Store} {c c' : Call} (hPlain : c'.isPlain = true) (hAside : Aside s s') :
      Took s c s' c'
  | revoke {s : Store} {userId : UserId} {id : MandateId} {m : Mandate}
      (hMandate : s.mandates[id]? = some m) :
      Took s (.revoke userId id)
        { s with mandates := s.mandates.modify id fun m =>
          { m with active := false, revokedAt := some s.now } }
        (.cancelRequestsUnder id)
  | creating {s s' : Store} {c c' : CreateCall} (hAside : Aside s s')
      (hRequests : s'.requests = s.requests)
      (hRead : ∀ i, c'.intent? = some i → c.intent? = some i ∨ i ∈ s.intents) :
      Took s (.create c) s' (.create c')
  | created (s : Store) (d : Creation) (m : Mandate) (i : PaymentIntent) :
      Took s (.create (.create d m i)) (s.requestsCreate (newRequest env s.now d m i)) .done
  | read {s : Store} {q : Confirm} {r : AgentRequest} (hRow : s.requests[q.requestId]? = some r)
      (hUser : r.userId = q.userId) : Took s (.confirm (.read q)) s (.confirm (.claim q r))
  | claim {s : Store} {q : Confirm} {r row : AgentRequest}
      (hRow : s.requests[q.requestId]? = some row) (hPending : row.status = .pending) :
      Took s (.confirm (.claim q r))
        (s.requestsUpdate q.requestId fun r => { r with status := .processing })
        (.confirm (.mandate q r))
  | thrown {s : Store} {c : ConfirmCall} {q : Confirm} (e : Failure) (hClaimed : c.claimed = some q) :
      Took s (.confirm c) s (.confirm (.settle q e))
  | checked {s : Store} {q : Confirm} {r : AgentRequest} {m : Mandate}
      (hMandate : s.mandates[r.authorizationId]? = some m) (hAllows : m.allows s.now r.amount) :
      Took s (.confirm (.mandate q r)) s (.confirm (.usage ⟨q, r, m, .start env.calendar s.now⟩))
  | counted (s : Store) (a : Attempt) :
      Took s (.confirm (.usage a)) s (.confirm (.usage (a.count o s)))
  | started {s : Store} {a : Attempt} (hComplete : (a.count o s).usage.complete = true)
      (hFits : (a.count o s).usage.fits a.mandate a.row.amount) :
      Took s (.confirm (.usage a)) s (.confirm (.paying (a.count o s) (.expire a.payment)))
  | mark (s : Store) (a : Attempt) (reference : Option ℕ) (hAnswered : o.fails = false) :
      Took s (.confirm (.mark a reference)) (s.confirm a.confirm.requestId reference) .done
  | settle (s : Store) (q : Confirm) (e : Failure) :
      Took s (.confirm (.settle q e)) (s.settle q.requestId e) .done

variable {env o} {s s' : Store}

theorem took_checkMandate {q : Confirm} {r : AgentRequest} :
    Took env o s (.confirm (.mandate q r)) s
      (.confirm (checkMandate env s.now q r s.mandates[r.authorizationId]?)) := by
  cases hMandate : s.mandates[r.authorizationId]? with
  | none => exact .thrown (.forbidden false) rfl
  | some m =>
    simp only [checkMandate]
    split
    · rename_i hAllows
      exact .checked hMandate hAllows
    · exact .thrown (.forbidden false) rfl

theorem took_checkUsage {a : Attempt} :
    Took env o s (.confirm (.usage a)) s (.confirm (checkUsage (a.count o s))) := by
  unfold checkUsage
  split
  · rename_i hComplete
    split
    · rename_i hFits
      unfold payEnter
      split
      · exact .started hComplete hFits
      · exact .thrown .other rfl
    · exact .thrown (.forbidden false) rfl
  · exact .counted s a

theorem took_confirmOpen {c : ConfirmCall} {c' : Call} (h : confirmOpen s c = some (s', c')) :
    Took env o s (.confirm c) s' c' := by
  cases c with
  | read q =>
    simp only [confirmOpen, Option.bind_eq_bind, Option.bind_eq_some_iff] at h
    obtain ⟨r, hRow, h⟩ := h
    split at h
    · rename_i hOpen
      split at h
      all_goals
        simp only [Option.some.injEq, Prod.mk.injEq] at h
        obtain ⟨rfl, rfl⟩ := h
      · exact .aside rfl (.refl s)
      · exact .read hRow hOpen.1
    · split at h
      · simp only [Option.some.injEq, Prod.mk.injEq] at h
        obtain ⟨rfl, rfl⟩ := h
        exact .aside rfl (.refl s)
      · cases h
  | expired q =>
    simp only [confirmOpen, Option.some.injEq, Prod.mk.injEq] at h
    obtain ⟨rfl, rfl⟩ := h
    refine .aside rfl ⟨rfl, .refl Idles.refl _, rfl, rfl, related_modify Closes.refl ?_⟩
    intro row _
    split
    · rename_i hPending
      exact .inr ⟨hPending, rfl, ⟨rfl, rfl, rfl, rfl, rfl⟩⟩
    · exact .refl row
  | claim q r =>
    simp only [confirmOpen, Store.claimRequest, Option.bind_eq_bind, Option.bind_eq_some_iff,
      Option.ite_none_right_eq_some, Option.pure_def, Option.some.injEq, Prod.mk.injEq] at h
    obtain ⟨_, ⟨row, hRow, hPending, rfl⟩, rfl, rfl⟩ := h
    exact .claim hRow hPending
  | mandate q r => cases h
  | usage a => cases h
  | paying a c => cases h
  | mark a reference => cases h
  | settle q e => cases h

theorem took_confirmStep {c : ConfirmCall} {c' : Call}
    (h : confirmStep env o s c = some (s', c')) : Took env o s (.confirm c) s' c' := by
  cases c with
  | read q =>
    simp only [confirmStep, Option.ite_none_left_eq_some] at h
    exact took_confirmOpen h.2
  | expired q =>
    simp only [confirmStep, Option.ite_none_left_eq_some] at h
    exact took_confirmOpen h.2
  | claim q r =>
    simp only [confirmStep, Option.ite_none_left_eq_some] at h
    exact took_confirmOpen h.2
  | mandate q r =>
    simp only [confirmStep, confirmTried, Option.some.injEq, Prod.mk.injEq] at h
    obtain ⟨rfl, rfl⟩ := h
    split
    · exact .thrown .other rfl
    · exact took_checkMandate
  | usage a =>
    simp only [confirmStep, confirmTried, Option.some.injEq, Prod.mk.injEq] at h
    obtain ⟨rfl, rfl⟩ := h
    split
    · exact .thrown .other rfl
    · exact took_checkUsage
  | paying a c =>
    simp only [confirmStep, confirmTried, Option.some.injEq, Prod.mk.injEq] at h
    obtain ⟨rfl, rfl⟩ := h
    exact .paying s a c
  | mark a reference =>
    simp only [confirmStep] at h
    split at h
    all_goals
      simp only [Option.some.injEq, Prod.mk.injEq] at h
      obtain ⟨rfl, rfl⟩ := h
    · exact .thrown .other rfl
    · rename_i hAnswered
      exact .mark s a reference (Bool.eq_false_of_not_eq_true hAnswered)
  | settle q e =>
    simp only [confirmStep, Option.ite_none_left_eq_some, Option.some.injEq, Prod.mk.injEq] at h
    obtain ⟨_, rfl, rfl⟩ := h
    exact .settle s q e

theorem took_createStep {c : CreateCall} {c' : Call}
    (h : createStep env o s c = some (s', c')) : Took env o s (.create c) s' c' := by
  have hStay : ∀ c₁ c₂ : CreateCall, (∀ i, c₂.intent? = some i →
      c₁.intent? = some i ∨ i ∈ s.intents) → Took env o s (.create c₁) s (.create c₂) :=
    fun c₁ c₂ hRead => .creating (.refl s) rfl hRead
  cases c with
  | lookup d =>
    simp only [createStep, Option.ite_none_left_eq_some] at h
    obtain ⟨_, h⟩ := h
    split at h
    all_goals
      simp only [Option.some.injEq, Prod.mk.injEq] at h
      obtain ⟨rfl, rfl⟩ := h
    · exact .aside rfl (.refl s)
    · exact hStay _ _ (by simp [CreateCall.intent?])
  | mandate d =>
    simp only [createStep, Option.bind_eq_bind, Option.bind_eq_some_iff,
      Option.ite_none_right_eq_some, Option.some.injEq, Prod.mk.injEq] at h
    obtain ⟨m, _, _, rfl, rfl⟩ := h
    exact hStay _ _ (by simp [CreateCall.intent?])
  | expire d m =>
    simp only [createStep, Option.some.injEq, Prod.mk.injEq] at h
    obtain ⟨rfl, rfl⟩ := h
    exact .creating (aside_expireIntents _ s) rfl (by simp [CreateCall.intent?])
  | intent d m =>
    simp only [createStep, Option.bind_eq_bind, Option.bind_eq_some_iff,
      Option.ite_none_right_eq_some, Option.some.injEq, Prod.mk.injEq] at h
    obtain ⟨i, hIntent, _, rfl, rfl⟩ := h
    refine hStay _ _ ?_
    intro i' hSame
    simp only [CreateCall.intent?, Option.some.injEq] at hSame
    subst hSame
    exact .inr (List.mem_of_getElem? hIntent)
  | usage d m i u =>
    simp only [createStep] at h
    split at h
    · simp only [Option.ite_none_right_eq_some, Option.some.injEq, Prod.mk.injEq] at h
      obtain ⟨_, rfl, rfl⟩ := h
      exact hStay _ _ (fun _ hSame => .inl hSame)
    · simp only [Option.some.injEq, Prod.mk.injEq] at h
      obtain ⟨rfl, rfl⟩ := h
      exact hStay _ _ (fun _ hSame => .inl hSame)
  | openRequest d m i =>
    simp only [createStep] at h
    split at h
    all_goals
      simp only [Option.some.injEq, Prod.mk.injEq] at h
      obtain ⟨rfl, rfl⟩ := h
    · exact .aside rfl (.refl s)
    · exact hStay _ _ (fun _ hSame => .inl hSame)
  | create d m i =>
    simp only [createStep, Option.ite_none_left_eq_some, Option.some.injEq, Prod.mk.injEq] at h
    obtain ⟨_, rfl, rfl⟩ := h
    exact .created s d m i

theorem took_plainStep {c c' : Call} (h : plainStep env o s c = some (s', c')) :
    Took env o s c s' c' := by
  cases c with
  | pay c => cases h
  | confirm c => cases h
  | create c => exact took_createStep h
  | cancelExpire q =>
    simp only [plainStep, Option.some.injEq, Prod.mk.injEq] at h
    obtain ⟨rfl, rfl⟩ := h
    exact .aside rfl (aside_expireIntents _ s)
  | cancelRead q =>
    simp only [plainStep, Option.bind_eq_bind, Option.bind_eq_some_iff,
      Option.ite_none_right_eq_some, Option.some.injEq, Prod.mk.injEq] at h
    obtain ⟨i, _, _, rfl, rfl⟩ := h
    exact .aside rfl (.refl s)
  | cancelUnpaid q =>
    simp only [plainStep, Store.cancelUnpaid, Option.bind_eq_bind, Option.bind_eq_some_iff,
      Option.ite_none_right_eq_some, Option.pure_def, Option.some.injEq, Prod.mk.injEq] at h
    obtain ⟨_, ⟨i, hIntent, hUnpaid, rfl⟩, rfl, rfl⟩ := h
    refine .aside rfl ⟨rfl, related_modify Idles.refl ?_, rfl, rfl, .refl Closes.refl _⟩
    intro row hRow
    rw [hIntent, Option.some.injEq] at hRow
    subst hRow
    exact .inr ⟨hUnpaid, rfl, rfl, rfl, rfl⟩
  | cancelRequests q =>
    simp only [plainStep, Option.some.injEq, Prod.mk.injEq] at h
    obtain ⟨rfl, rfl⟩ := h
    refine .aside rfl ⟨rfl, .refl Idles.refl _, rfl, rfl, related_map ?_ s.requests⟩
    intro r
    split
    · exact closes_cancelPending s.now r
    · exact .refl r
  | expireIntents which =>
    simp only [plainStep, Option.some.injEq, Prod.mk.injEq] at h
    obtain ⟨rfl, rfl⟩ := h
    exact .aside rfl (aside_expireIntents which s)
  | reject userId id =>
    simp only [plainStep, Store.reject, Option.bind_eq_bind, Option.bind_eq_some_iff,
      Option.ite_none_right_eq_some, Option.pure_def, Option.some.injEq, Prod.mk.injEq] at h
    obtain ⟨_, ⟨r, hRow, hPending, rfl⟩, rfl, rfl⟩ := h
    refine .aside rfl ⟨rfl, .refl Idles.refl _, rfl, rfl, related_modify Closes.refl ?_⟩
    intro row hSame
    rw [hRow, Option.some.injEq] at hSame
    subst hSame
    exact .inr ⟨hPending.2, rfl, ⟨rfl, rfl, rfl, rfl, rfl⟩⟩
  | revoke userId id =>
    simp only [plainStep, Store.revoke, Option.bind_eq_bind, Option.bind_eq_some_iff,
      Option.ite_none_right_eq_some, Option.pure_def, Option.some.injEq, Prod.mk.injEq] at h
    obtain ⟨_, ⟨m, hMandate, _, rfl⟩, rfl, rfl⟩ := h
    exact .revoke hMandate
  | cancelRequestsUnder id =>
    simp only [plainStep, Option.some.injEq, Prod.mk.injEq] at h
    obtain ⟨rfl, rfl⟩ := h
    refine .aside rfl ⟨rfl, .refl Idles.refl _, rfl, rfl, related_map ?_ s.requests⟩
    intro r
    split
    · exact closes_cancelPending s.now r
    · exact .refl r
  | done => cases h

/-- Every step is one of the transitions, from the store at the time of the step. -/
theorem took_of_step {c c' : Call} (h : step env o s c = some (s', c')) :
    Took env o (s.pass o.elapsed) c s' c' := by
  unfold step stepNow at h
  split at h
  · simp only [Option.some.injEq, Prod.mk.injEq] at h
    obtain ⟨rfl, rfl⟩ := h
    exact .pay _ _
  · exact took_confirmStep h
  · simp only [Option.ite_none_left_eq_some] at h
    exact took_plainStep h.2

/-! What no transition changes. -/

theorem claimIntent_eq_some {id : IntentId} {payer : UserId} (h : s.claimIntent id payer = some s') :
    ∃ i, s.intents[id]? = some i ∧ i.status = .requiresPayment ∧
      s' = s.intentsUpdate id fun i =>
        { i with status := .processing, payerUserId := some payer } := by
  simp only [Store.claimIntent, Option.bind_eq_bind, Option.bind_eq_some_iff,
    Option.ite_none_right_eq_some, Option.some.injEq] at h
  obtain ⟨i, hRow, hUnpaid, rfl⟩ := h
  exact ⟨i, hRow, hUnpaid.1, rfl⟩

def SameAmount (i i' : PaymentIntent) : Prop := i'.amount = i.amount

theorem SameAmount.refl (i : PaymentIntent) : SameAmount i i := rfl

/-- What a payment leaves alone: all but the intents and the transfers. -/
structure PayFrame (s s' : Store) : Prop where
  now : s'.now = s.now
  mandates : s'.mandates = s.mandates
  requests : s'.requests = s.requests
  amounts : Related SameAmount s.intents s'.intents
  transfers : ∀ t ∈ s.transfers, t ∈ s'.transfers

theorem amounts_idles (h : Related Idles s.intents s'.intents) :
    Related SameAmount s.intents s'.intents := by
  refine h.mono ?_
  rintro i i' (rfl | ⟨_, _, _, _, hAmount⟩)
  · rfl
  · exact hAmount

theorem payFrame_intentsUpdate {id : IntentId} {f : PaymentIntent → PaymentIntent}
    (hf : ∀ i, (f i).amount = i.amount) : PayFrame s (s.intentsUpdate id f) :=
  ⟨rfl, rfl, rfl, related_modify SameAmount.refl fun i _ => hf i, fun _ h => h⟩

theorem payFrame_payStep (c : PayCall) : PayFrame s (payStep o s c).1 := by
  have hStay : PayFrame s s := ⟨rfl, rfl, rfl, .refl SameAmount.refl _, fun _ h => h⟩
  unfold payStep
  split
  · split <;> exact hStay
  · cases c with
    | expire p => exact ⟨rfl, rfl, rfl, amounts_idles (idles_expireIntents _ s), fun _ h => h⟩
    | read p =>
      simp only [payAnswered]
      split <;> exact hStay
    | business p i =>
      simp only [payAnswered]
      split
      · exact hStay
      · split <;> exact hStay
    | claim p i =>
      simp only [payAnswered]
      split
      · exact hStay
      · rename_i s₁ hClaim
        obtain ⟨_, _, _, rfl⟩ := claimIntent_eq_some hClaim
        exact payFrame_intentsUpdate fun _ => rfl
    | send p i =>
      simp only [payAnswered]
      split
      · exact hStay
      · exact ⟨rfl, rfl, rfl, .refl SameAmount.refl _, fun _ h => List.mem_append_left _ h⟩
    | reset p e =>
      refine payFrame_intentsUpdate ?_
      intro i
      split <;> rfl
    | record p reference => exact payFrame_intentsUpdate fun _ => rfl
    | receipt p reference => exact hStay

/-- A request stays, and what was asked for stays in it. -/
theorem sameAs_took {c c' : Call} (h : Took env o s c s' c') {id : RequestId} {r : AgentRequest}
    (hRow : s.requests[id]? = some r) : ∃ r', s'.requests[id]? = some r' ∧ SameAs r r' := by
  have hUpdate : ∀ (other : RequestId) (f : AgentRequest → AgentRequest), (∀ r, SameAs r (f r)) →
      ∃ r', (s.requestsUpdate other f).requests[id]? = some r' ∧ SameAs r r' := by
    intro other f hf
    exact (related_modify SameAs.refl fun r _ => hf r).forward hRow
  cases h with
  | pay c => exact ⟨r, by rwa [(payFrame_payStep c).requests], .refl r⟩
  | paying a c => exact ⟨r, by rwa [(payFrame_payStep c).requests], .refl r⟩
  | aside _ hAside =>
    obtain ⟨r', hRow', hCloses⟩ := hAside.requests.forward hRow
    exact ⟨r', hRow', hCloses.sameAs⟩
  | creating _ hRequests _ => exact ⟨r, by rwa [hRequests], .refl r⟩
  | created d m i => exact ⟨r, getElem?_append_of_some hRow, .refl r⟩
  | claim _ _ => exact hUpdate _ _ fun _ => ⟨rfl, rfl, rfl, rfl, rfl⟩
  | mark a reference _ => exact hUpdate _ _ fun _ => ⟨rfl, rfl, rfl, rfl, rfl⟩
  | settle q e => exact hUpdate _ _ fun _ => ⟨rfl, rfl, rfl, rfl, rfl⟩
  | _ => exact ⟨r, hRow, .refl r⟩

theorem now_took {c c' : Call} (h : Took env o s c s' c') : s'.now = s.now := by
  cases h with
  | pay c => exact (payFrame_payStep c).now
  | paying a c => exact (payFrame_payStep c).now
  | aside _ hAside => exact hAside.now
  | creating hAside _ _ => exact hAside.now
  | _ => rfl

end FarmBackend.AgentPayments
