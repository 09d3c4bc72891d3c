import FarmBackend.AgentSteps
import FarmBackend.Ticket

/-!
# An intent is paid at most once

The claim of `payIntent` is a ticket for one transfer. It is given back when `sendFunds` throws, and
its holder alone writes the intent until then, so a recorded payer is the one who paid.
-/

namespace FarmBackend.AgentPayments
open Decimal Wallets Interleaving Rows

set_option autoImplicit false

namespace Store

def transfersOf (id : IntentId) (s : Store) : List Transfer :=
  s.transfers.filter (·.intentId = id)

def isOpen (id : IntentId) (s : Store) : Prop :=
  ∃ i, s.intents[id]? = some i ∧ i.status.isOpen = true

end Store

def PayCall.claims (id : IntentId) : PayCall → ℕ
  | .send p _ => if p.intentId = id then 1 else 0
  | .reset p _ => if p.intentId = id then 1 else 0
  | _ => 0

def PayResult.claims (id : IntentId) : PayResult → ℕ
  | .going c => c.claims id
  | _ => 0

def Call.claims (id : IntentId) : Call → ℕ
  | .pay c => c.claims id
  | .confirm (.paying _ c) => c.claims id
  | _ => 0

def intentTicket (id : IntentId) : Ticket Store Call where
  isOpen := Store.isOpen id
  fired s := (s.transfersOf id).length
  holds := Call.claims id

/-- What a step may do to an intent, with the claims on it before and after. -/
def Spends (id : IntentId) (s : Store) (claims : ℕ) (s' : Store) (claims' : ℕ) : Prop :=
  ((s'.transfersOf id).length + claims' ≤ (s.transfersOf id).length + claims ∧
    (s'.isOpen id → s.isOpen id ∨
      (s'.transfersOf id).length + claims' < (s.transfersOf id).length + claims)) ∨
  (s.isOpen id ∧ ¬s'.isOpen id ∧
    (s'.transfersOf id).length + claims' ≤ (s.transfersOf id).length + claims + 1)

section Steps
variable {id : IntentId} {s s' : Store} {o : Outcome}

/-- A step that moves no money and opens no intent may only lose claims. -/
theorem spends_quiet {claims claims' : ℕ} (hTransfers : s'.transfers = s.transfers)
    (hOpen : s'.isOpen id → s.isOpen id) (hClaims : claims' ≤ claims) :
    Spends id s claims s' claims' := by
  refine .inl ⟨?_, fun h => .inl (hOpen h)⟩
  simp only [Store.transfersOf, hTransfers]
  omega

theorem isOpen_related (h : Related Idles s.intents s'.intents) (hOpen : s'.isOpen id) :
    s.isOpen id := by
  obtain ⟨i', hRow', hStatus⟩ := hOpen
  obtain ⟨i, hRow, hIdles⟩ := h.backward hRow'
  refine ⟨i, hRow, ?_⟩
  rcases hIdles with rfl | ⟨hUnpaid, _⟩
  · exact hStatus
  · rw [hUnpaid]
    rfl

theorem isOpen_intentsUpdate_ne {other : IntentId} {f : PaymentIntent → PaymentIntent}
    (hId : other ≠ id) : (s.intentsUpdate other f).isOpen id ↔ s.isOpen id := by
  unfold Store.isOpen Store.intentsUpdate
  rw [getElem?_modify_ne f hId]

theorem not_isOpen_intentsUpdate {f : PaymentIntent → PaymentIntent}
    (hf : ∀ i, (f i).status.isOpen = false) : ¬(s.intentsUpdate id f).isOpen id := by
  rintro ⟨i', hRow', hStatus⟩
  rcases getElem?_modify_cases hRow' with ⟨_, i, _, rfl⟩ | ⟨hNe, _⟩
  · rw [hf] at hStatus
    cases hStatus
  · exact hNe rfl

theorem spends_payAnswered (c : PayCall) :
    Spends id s (c.claims id) (payAnswered o s c).1 ((payAnswered o s c).2.claims id) := by
  cases c with
  | expire p =>
    exact spends_quiet rfl (isOpen_related (idles_expireIntents _ s)) le_rfl
  | read p =>
    simp only [payAnswered]
    split
    · exact spends_quiet rfl (fun h => h) (Nat.zero_le _)
    · rename_i i _
      refine spends_quiet rfl (fun h => h) ?_
      unfold payable
      split
      · exact le_rfl
      · split
        · exact le_rfl
        · split <;> exact le_rfl
  | business p i =>
    simp only [payAnswered]
    split
    · exact spends_quiet rfl (fun h => h) le_rfl
    · split <;> exact spends_quiet rfl (fun h => h) le_rfl
  | claim p i =>
    simp only [payAnswered]
    split
    · exact spends_quiet rfl (fun h => h) le_rfl
    · rename_i s₁ hClaim
      obtain ⟨row, hRow, hUnpaid, rfl⟩ := claimIntent_eq_some hClaim
      simp only [PayResult.claims, PayCall.claims]
      by_cases hId : p.intentId = id
      · subst hId
        rw [if_pos rfl]
        refine .inr ⟨⟨row, hRow, by rw [hUnpaid]; rfl⟩, ?_, le_rfl⟩
        exact not_isOpen_intentsUpdate fun _ => rfl
      · rw [if_neg hId]
        exact spends_quiet rfl (isOpen_intentsUpdate_ne hId).mp le_rfl
  | send p i =>
    simp only [payAnswered]
    split
    · exact spends_quiet rfl (fun h => h) le_rfl
    · refine .inl ⟨?_, fun h => .inl h⟩
      simp only [PayResult.claims, PayCall.claims, Store.transfersOf, List.filter_append,
        List.length_append]
      by_cases hId : p.intentId = id <;> simp [hId]
  | reset p e =>
    simp only [payAnswered, PayResult.claims, PayCall.claims]
    by_cases hId : p.intentId = id
    · rw [if_pos hId]
      refine .inl ⟨?_, fun _ => .inr ?_⟩
      · exact Nat.le_succ _
      · exact Nat.lt_succ_self _
    · rw [if_neg hId]
      exact spends_quiet rfl (isOpen_intentsUpdate_ne hId).mp le_rfl
  | record p reference =>
    simp only [payAnswered, PayResult.claims, PayCall.claims]
    by_cases hId : p.intentId = id
    · subst hId
      refine spends_quiet rfl (fun hOpen => absurd hOpen ?_) le_rfl
      exact not_isOpen_intentsUpdate fun _ => rfl
    · exact spends_quiet rfl (isOpen_intentsUpdate_ne hId).mp le_rfl
  | receipt p reference => exact spends_quiet rfl (fun h => h) le_rfl

theorem spends_payStep (c : PayCall) :
    Spends id s (c.claims id) (payStep o s c).1 ((payStep o s c).2.claims id) := by
  unfold payStep
  split
  · split
    · exact spends_quiet rfl (fun h => h) le_rfl
    · exact spends_quiet rfl (fun h => h) (Nat.zero_le _)
  · exact spends_payAnswered c

theorem claims_alone (r : PayResult) : r.alone.claims id = r.claims id := by
  cases r <;> rfl

theorem claims_within (a : Attempt) (r : PayResult) :
    (Call.confirm (r.within a)).claims id = r.claims id := by
  cases r <;> rfl

theorem claims_of_isPlain {c : Call} (h : c.isPlain = true) : c.claims id = 0 := by
  cases c with
  | confirm c => cases c <;> first | rfl | cases h
  | pay c => cases h
  | _ => rfl

theorem spends_took {env : Env} {c c' : Call} (h : Took env o s c s' c') :
    Spends id s (c.claims id) s' (c'.claims id) := by
  cases h with
  | pay c =>
    rw [claims_alone]
    exact spends_payStep c
  | paying a c =>
    rw [claims_within]
    exact spends_payStep c
  | aside hPlain hAside =>
    rw [claims_of_isPlain hPlain]
    exact spends_quiet hAside.transfers (isOpen_related hAside.intents) (Nat.zero_le _)
  | creating hAside _ _ =>
    exact spends_quiet hAside.transfers (isOpen_related hAside.intents) le_rfl
  | thrown e hClaimed => exact spends_quiet rfl (fun h => h) (Nat.zero_le _)
  | _ => exact spends_quiet rfl (fun h => h) le_rfl

end Steps

/-- Every claim on an intent is a ticket for its one transfer. -/
theorem intentTicket_sound {env : Env} {start : Store} {c : Config Store Call}
    (hNone : start.transfers = []) (h : (program env).Reaches anyStep (Program.idle start) c)
    (id : IntentId) : (intentTicket id).Sound c := by
  have hFired : (start.transfersOf id).length = 0 := by simp [Store.transfersOf, hNone]
  refine Ticket.Sound.reaches h ⟨?_, ?_⟩ ?_ ?_
  · simp [Ticket.spent, intentTicket, Program.idle, hFired]
  · intro _
    simp [Ticket.spent, intentTicket, Program.idle, hFired]
  · intro request
    cases request with
    | pay p =>
      show Call.claims id (payEnter p).alone = 0
      rw [claims_alone]
      unfold payEnter
      split <;> rfl
    | _ => rfl
  · intro o s s' call call' _ _ _ _ hStep
    have hSpends := @spends_took id _ _ _ _ _ _ (took_of_step hStep)
    exact hSpends

/-! Who made the transfer of an intent. -/

def PayCall.payment : PayCall → Payment
  | .expire p | .read p | .business p _ | .claim p _ | .send p _ | .reset p _ | .record p _
  | .receipt p _ => p

def Paid (s : Store) (p : Payment) : Prop :=
  ∃ t ∈ s.transfers, t.intentId = p.intentId ∧ t.payerUserId = p.payerUserId

def PayCall.Knows (s : Store) : PayCall → Prop
  | .send p _ => ∃ i, s.intents[p.intentId]? = some i ∧ i.status = .processing ∧
      i.payerUserId = some p.payerUserId
  | .record p _ => Paid s p
  | .receipt p _ => Paid s p
  | _ => True

/-- The row a confirmation has read. -/
def Reads (s : Store) (q : Confirm) (r : AgentRequest) : Prop :=
  r.userId = q.userId ∧ ∃ row, s.requests[q.requestId]? = some row ∧ SameAs r row

def ConfirmCall.Knows (s : Store) : ConfirmCall → Prop
  | .claim q r => Reads s q r
  | .mandate q r => Reads s q r
  | .usage a => Reads s a.confirm a.row
  | .paying a c => Reads s a.confirm a.row ∧ c.payment = a.payment ∧ c.Knows s
  | .mark a _ => Reads s a.confirm a.row ∧ Paid s a.payment
  | _ => True

def Call.Knows (s : Store) : Call → Prop
  | .pay c => c.Knows s
  | .confirm c => c.Knows s
  | _ => True

/-- Recorded payers are the ones who paid. -/
structure Recorded (s : Store) : Prop where
  payer : ∀ t ∈ s.transfers, ∃ i, s.intents[t.intentId]? = some i ∧
    i.payerUserId = some t.payerUserId
  succeeded : ∀ (id : IntentId) i payer, s.intents[id]? = some i → i.liveMode = true →
    i.status = .succeeded → i.payerUserId = some payer →
      ∃ t ∈ s.transfers, t.intentId = id ∧ t.payerUserId = payer
  confirmed : ∀ r ∈ s.requests, r.status = .confirmed →
    ∃ t ∈ s.transfers, t.intentId = r.intentId ∧ t.payerUserId = r.userId

section Recorded
variable {s s' : Store} {o : Outcome}

theorem idles_fields {i i' : PaymentIntent} (h : Idles i i') :
    i'.payerUserId = i.payerUserId ∧ i'.liveMode = i.liveMode ∧
      (i'.status = .succeeded → i.status = .succeeded) := by
  rcases h with rfl | ⟨_, hOpen, hPayer, hLive, _⟩
  · exact ⟨rfl, rfl, fun h => h⟩
  · refine ⟨hPayer, hLive, fun hPaid => ?_⟩
    rw [hPaid] at hOpen
    cases hOpen

theorem Recorded.aside (h : Recorded s) (hIntents : Related Idles s.intents s'.intents)
    (hTransfers : s'.transfers = s.transfers)
    (hRequests : ∀ r' ∈ s'.requests, r'.status = .confirmed →
      ∃ r ∈ s.requests, r.status = .confirmed ∧ SameAs r r') : Recorded s' := by
  constructor
  · intro t hMem
    rw [hTransfers] at hMem
    obtain ⟨i, hRow, hPayer⟩ := h.payer t hMem
    obtain ⟨i', hRow', hIdles⟩ := hIntents.forward hRow
    exact ⟨i', hRow', (idles_fields hIdles).1.trans hPayer⟩
  · intro id i' payer hRow' hLive hStatus hPayer
    obtain ⟨i, hRow, hIdles⟩ := hIntents.backward hRow'
    obtain ⟨hSamePayer, hSameLive, hPaid⟩ := idles_fields hIdles
    rw [hTransfers]
    exact h.succeeded id i payer hRow (hSameLive.symm.trans hLive) (hPaid hStatus)
      (hSamePayer.symm.trans hPayer)
  · intro r' hMem' hStatus'
    obtain ⟨r, hMem, hStatus, hSame⟩ := hRequests r' hMem' hStatus'
    rw [hTransfers, hSame.intentId, hSame.userId]
    exact h.confirmed r hMem hStatus

theorem Recorded.intentsUpdate_unpaid (h : Recorded s) {id : IntentId}
    {f : PaymentIntent → PaymentIntent} (hUnpaid : s.transfersOf id = [])
    (hf : ∀ i, (f i).status = .succeeded → f i = i) : Recorded (s.intentsUpdate id f) := by
  have hOther : ∀ t ∈ s.transfers, id ≠ t.intentId := by
    intro t hMem hSame
    have hIn : t ∈ s.transfersOf id := List.mem_filter.mpr ⟨hMem, by simp [hSame]⟩
    rw [hUnpaid] at hIn
    cases hIn
  constructor
  · intro t hMem
    obtain ⟨i, hRow, hPayer⟩ := h.payer t hMem
    exact ⟨i, (getElem?_modify_ne f (hOther t hMem)).trans hRow, hPayer⟩
  · intro other i' payer hRow' hLive hStatus hPayer
    rcases getElem?_modify_cases hRow' with ⟨rfl, i, hRow, rfl⟩ | ⟨_, hRow⟩
    · have hSame := hf i hStatus
      rw [hSame] at hLive hStatus hPayer
      exact h.succeeded id i payer hRow hLive hStatus hPayer
    · exact h.succeeded other i' payer hRow hLive hStatus hPayer
  · exact h.confirmed

/-- An intent is recorded as paid by the payer of its transfer. -/
theorem Recorded.recordPayment (h : Recorded s) {p : Payment} {reference : ℕ} (hPaid : Paid s p) :
    Recorded (s.recordPayment p.intentId reference) := by
  obtain ⟨paid, hPaidMem, hPaidIntent, _⟩ := hPaid
  constructor
  · intro t hMem
    obtain ⟨i, hRow, hPayer⟩ := h.payer t hMem
    by_cases hId : p.intentId = t.intentId
    · rw [← hId] at hRow
      rw [← hId]
      exact ⟨_, getElem?_modify_self _ hRow, hPayer⟩
    · exact ⟨i, (getElem?_modify_ne _ hId).trans hRow, hPayer⟩
  · intro id i' payer hRow' hLive hStatus hPayer
    rcases getElem?_modify_cases hRow' with ⟨rfl, i, hRow, rfl⟩ | ⟨_, hRow⟩
    · obtain ⟨i₁, hRow₁, hPayer₁⟩ := h.payer paid hPaidMem
      rw [hPaidIntent, hRow, Option.some.injEq] at hRow₁
      subst hRow₁
      refine ⟨paid, hPaidMem, hPaidIntent, ?_⟩
      exact Option.some.inj (hPayer₁.symm.trans hPayer)
    · exact h.succeeded id i' payer hRow hLive hStatus hPayer
  · exact h.confirmed

theorem Recorded.transfer (h : Recorded s) {t : Transfer} {i : PaymentIntent}
    (hRow : s.intents[t.intentId]? = some i) (hPayer : i.payerUserId = some t.payerUserId) :
    Recorded { s with transfers := s.transfers ++ [t] } := by
  constructor
  · intro t' hMem
    rcases List.mem_append.mp hMem with hMem | hMem
    · exact h.payer t' hMem
    · rw [List.mem_singleton.mp hMem]
      exact ⟨i, hRow, hPayer⟩
  · intro id i' payer hRow' hLive hStatus hPayer'
    obtain ⟨t', hMem, hIntent, hUser⟩ := h.succeeded id i' payer hRow' hLive hStatus hPayer'
    exact ⟨t', List.mem_append_left _ hMem, hIntent, hUser⟩
  · intro r hMem hStatus
    obtain ⟨t', hMem', hIntent, hUser⟩ := h.confirmed r hMem hStatus
    exact ⟨t', List.mem_append_left _ hMem', hIntent, hUser⟩

theorem Paid.mono {p : Payment} (h : Paid s p) (hTransfers : ∀ t ∈ s.transfers, t ∈ s'.transfers) :
    Paid s' p := by
  obtain ⟨t, hMem, hIntent, hPayer⟩ := h
  exact ⟨t, hTransfers t hMem, hIntent, hPayer⟩

/-- What a payment's own step makes of it. -/
def PayResult.Knows (s : Store) (p : Payment) : PayResult → Prop
  | .going c => c.payment = p ∧ c.Knows s
  | .paid _ => Paid s p
  | .thrown _ => True

/-- A payment's own step, taken by the only call with a claim on an intent without transfers. -/
theorem Recorded.payAnswered (h : Recorded s) (c : PayCall) (hKnows : c.Knows s)
    (hClaim : c.claims c.payment.intentId = 1 → s.transfersOf c.payment.intentId = [])
    (hOpen : s.isOpen c.payment.intentId → s.transfersOf c.payment.intentId = []) :
    Recorded (payAnswered o s c).1 ∧ (payAnswered o s c).2.Knows (payAnswered o s c).1 c.payment := by
  cases c with
  | expire p =>
    refine ⟨h.aside (idles_expireIntents _ s) rfl ?_, rfl, trivial⟩
    exact fun r hMem hStatus => ⟨r, hMem, hStatus, .refl r⟩
  | read p =>
    simp only [AgentPayments.payAnswered]
    split
    · exact ⟨h, trivial⟩
    · rename_i i hRow
      refine ⟨h, ?_⟩
      unfold payable
      split
      · exact trivial
      · rename_i hLive
        split
        · rename_i hPaid
          obtain ⟨t, hMem, hIntent, hPayer⟩ :=
            h.succeeded p.intentId i p.payerUserId hRow (by simpa using hLive) hPaid.1 hPaid.2
          exact ⟨t, hMem, hIntent, hPayer⟩
        · split
          · exact ⟨rfl, trivial⟩
          · exact trivial
  | business p i =>
    simp only [AgentPayments.payAnswered]
    split
    · exact ⟨h, trivial⟩
    · split
      · exact ⟨h, trivial⟩
      · exact ⟨h, rfl, trivial⟩
  | claim p i =>
    simp only [AgentPayments.payAnswered]
    split
    · exact ⟨h, trivial⟩
    · rename_i s₁ hClaimed
      obtain ⟨row, hRow, hUnpaid, rfl⟩ := claimIntent_eq_some hClaimed
      have hNone : s.transfersOf p.intentId = [] := hOpen ⟨row, hRow, by rw [hUnpaid]; rfl⟩
      refine ⟨h.intentsUpdate_unpaid hNone ?_, rfl, _, getElem?_modify_self _ hRow, rfl, rfl⟩
      intro i hStatus
      cases hStatus
  | send p i =>
    simp only [AgentPayments.payAnswered]
    split
    · exact ⟨h, rfl, trivial⟩
    · rename_i reference _
      obtain ⟨row, hRow, _, hPayer⟩ := hKnows
      refine ⟨h.transfer hRow hPayer, rfl, ⟨p.intentId, p.payerUserId, i.amount, reference⟩, ?_,
        rfl, rfl⟩
      exact List.mem_append_right _ (List.mem_singleton.mpr rfl)
  | reset p e =>
    have hNone : s.transfersOf p.intentId = [] := hClaim (if_pos rfl)
    refine ⟨h.intentsUpdate_unpaid hNone ?_, trivial⟩
    intro i hStatus
    split at hStatus
    · cases hStatus
    · rename_i hIdle
      exact if_neg hIdle
  | record p reference => exact ⟨h.recordPayment hKnows, rfl, hKnows⟩
  | receipt p reference => exact ⟨h, hKnows⟩

theorem Recorded.payStep (h : Recorded s) (c : PayCall) (hKnows : c.Knows s)
    (hClaim : c.claims c.payment.intentId = 1 → s.transfersOf c.payment.intentId = [])
    (hOpen : s.isOpen c.payment.intentId → s.transfersOf c.payment.intentId = []) :
    Recorded (payStep o s c).1 ∧ (payStep o s c).2.Knows (payStep o s c).1 c.payment := by
  unfold AgentPayments.payStep
  split
  · split
    · exact ⟨h, rfl, trivial⟩
    · exact ⟨h, trivial⟩
  · exact h.payAnswered c hKnows hClaim hOpen

theorem payAnswered_others (c : PayCall) {id : IntentId} {i : PaymentIntent}
    (hRow : s.intents[id]? = some i) (hStatus : i.status = .processing) (hNone : c.claims id = 0)
    (hOther : ∀ p reference, c = .record p reference → p.intentId ≠ id) :
    (payAnswered o s c).1.intents[id]? = some i := by
  cases c with
  | expire p =>
    obtain ⟨i', hRow', hIdles⟩ := (idles_expireIntents (.byId p.intentId) s).forward hRow
    rcases hIdles with rfl | ⟨hUnpaid, _⟩
    · exact hRow'
    · rw [hStatus] at hUnpaid
      cases hUnpaid
  | read p =>
    simp only [payAnswered]
    split <;> exact hRow
  | business p i =>
    simp only [payAnswered]
    split
    · exact hRow
    · split <;> exact hRow
  | claim p _ =>
    simp only [payAnswered]
    split
    · exact hRow
    · rename_i s₁ hClaim
      obtain ⟨row, hOld, hUnpaid, rfl⟩ := claimIntent_eq_some hClaim
      by_cases hId : p.intentId = id
      · rw [hId, hRow, Option.some.injEq] at hOld
        rw [hOld, hUnpaid] at hStatus
        cases hStatus
      · exact (getElem?_modify_ne _ hId).trans hRow
  | send p _ =>
    simp only [payAnswered]
    split <;> exact hRow
  | reset p e =>
    have hId : p.intentId ≠ id := by
      intro hSame
      simp [PayCall.claims, hSame] at hNone
    exact (getElem?_modify_ne _ hId).trans hRow
  | record p reference => exact (getElem?_modify_ne _ (hOther p reference rfl)).trans hRow
  | receipt p reference => exact hRow

/-- The payment whose transfer a call is about to record. -/
def Call.records : Call → Option IntentId
  | .pay (.record p _) => some p.intentId
  | .confirm (.paying _ (.record p _)) => some p.intentId
  | _ => none

/-- What a step does to the rows that other calls have read or hold. -/
structure Others (s : Store) (c : Call) (s' : Store) : Prop where
  transfers : ∀ t ∈ s.transfers, t ∈ s'.transfers
  requests : ∀ (id : RequestId) r, s.requests[id]? = some r →
    ∃ r', s'.requests[id]? = some r' ∧ SameAs r r'
  intents : ∀ (id : IntentId) i, s.intents[id]? = some i → i.status = .processing →
    c.claims id = 0 → c.records ≠ some id → s'.intents[id]? = some i

theorem processing_related (h : Related Idles s.intents s'.intents) {id : IntentId}
    {i : PaymentIntent} (hRow : s.intents[id]? = some i) (hStatus : i.status = .processing) :
    s'.intents[id]? = some i := by
  obtain ⟨i', hRow', hIdles⟩ := h.forward hRow
  rcases hIdles with rfl | ⟨hUnpaid, _⟩
  · exact hRow'
  · rw [hStatus] at hUnpaid
    cases hUnpaid

theorem intents_payStep {c : PayCall} {call : Call} (hClaims : ∀ id, call.claims id = c.claims id)
    (hRecords : ∀ p reference, c = .record p reference → call.records = some p.intentId)
    {id : IntentId} {i : PaymentIntent} (hRow : s.intents[id]? = some i)
    (hStatus : i.status = .processing) (hNone : call.claims id = 0)
    (hOther : call.records ≠ some id) : (payStep o s c).1.intents[id]? = some i := by
  unfold AgentPayments.payStep
  split
  · split <;> exact hRow
  · refine payAnswered_others c hRow hStatus ((hClaims id).symm.trans hNone) ?_
    rintro p reference hRecord rfl
    exact hOther (hRecords p reference hRecord)

theorem others_took {env : Env} {c c' : Call} (h : Took env o s c s' c') : Others s c s' := by
  have hRequests := fun (id : RequestId) r => @sameAs_took env o s s' c c' h id r
  cases h with
  | pay c =>
    refine ⟨(payFrame_payStep c).transfers, hRequests, fun id i hRow hStatus hNone hOther => ?_⟩
    refine intents_payStep (fun _ => rfl) ?_ hRow hStatus hNone hOther
    rintro p reference rfl
    rfl
  | paying a c =>
    refine ⟨(payFrame_payStep c).transfers, hRequests, fun id i hRow hStatus hNone hOther => ?_⟩
    refine intents_payStep (fun _ => rfl) ?_ hRow hStatus hNone hOther
    rintro p reference rfl
    rfl
  | aside _ hAside =>
    refine ⟨?_, hRequests, fun id i hRow hStatus _ _ => processing_related hAside.intents hRow hStatus⟩
    intro t hMem
    rwa [hAside.transfers]
  | creating hAside _ _ =>
    refine ⟨?_, hRequests, fun id i hRow hStatus _ _ => processing_related hAside.intents hRow hStatus⟩
    intro t hMem
    rwa [hAside.transfers]
  | _ => exact ⟨fun _ h => h, hRequests, fun _ _ h _ _ _ => h⟩

theorem Reads.mono {q : Confirm} {r : AgentRequest} (h : Reads s q r)
    (hRequests : ∀ (id : RequestId) r, s.requests[id]? = some r →
      ∃ r', s'.requests[id]? = some r' ∧ SameAs r r') : Reads s' q r := by
  obtain ⟨hUser, row, hRow, hSame⟩ := h
  obtain ⟨row', hRow', hSame'⟩ := hRequests _ _ hRow
  exact ⟨hUser, row', hRow', hSame.trans hSame'⟩

/-- A payment's knowledge survives a step of somebody without a claim on its intent. -/
theorem PayCall.Knows.others {c : PayCall} {call : Call} (h : c.Knows s) (hOthers : Others s call s')
    (hApart : ∀ id, c.claims id = 1 → call.claims id = 0 ∧ call.records ≠ some id) :
    c.Knows s' := by
  cases c with
  | send p i =>
    obtain ⟨row, hRow, hStatus, hPayer⟩ := h
    obtain ⟨hNone, hOther⟩ := hApart p.intentId (if_pos rfl)
    exact ⟨row, hOthers.intents _ _ hRow hStatus hNone hOther, hStatus, hPayer⟩
  | record p reference => exact Paid.mono h hOthers.transfers
  | receipt p reference => exact Paid.mono h hOthers.transfers
  | _ => exact trivial

theorem Call.Knows.others {c call : Call} (h : c.Knows s) (hOthers : Others s call s')
    (hApart : ∀ id, c.claims id = 1 → call.claims id = 0 ∧ call.records ≠ some id) :
    c.Knows s' := by
  cases c with
  | pay c => exact PayCall.Knows.others h hOthers hApart
  | confirm c =>
    cases c with
    | claim q r => exact Reads.mono h hOthers.requests
    | mandate q r => exact Reads.mono h hOthers.requests
    | usage a => exact Reads.mono h hOthers.requests
    | paying a c =>
      obtain ⟨hReads, hPayment, hKnows⟩ := h
      exact ⟨hReads.mono hOthers.requests, hPayment, hKnows.others hOthers hApart⟩
    | mark a reference =>
      obtain ⟨hReads, hPaid⟩ := h
      exact ⟨hReads.mono hOthers.requests, hPaid.mono hOthers.transfers⟩
    | _ => exact trivial
  | _ => exact trivial

/-- A row written by its confirmation, which does not make it confirmed. -/
theorem Recorded.requestsUpdate (h : Recorded s) {id : RequestId} {f : AgentRequest → AgentRequest}
    (hf : ∀ r, (f r).status ≠ .confirmed) : Recorded (s.requestsUpdate id f) := by
  refine h.aside (.refl Idles.refl _) rfl ?_
  intro r' hMem hStatus
  obtain ⟨other, hRow⟩ := List.getElem?_of_mem hMem
  rcases getElem?_modify_cases hRow with ⟨_, r, _, rfl⟩ | ⟨_, hOld⟩
  · exact absurd hStatus (hf r)
  · exact ⟨r', List.mem_of_getElem? hOld, hStatus, .refl r'⟩

/-- A confirmed row, after its user has paid the intent. -/
theorem Recorded.confirm (h : Recorded s) {a : Attempt} {reference : Option ℕ}
    (hReads : Reads s a.confirm a.row) (hPaid : Paid s a.payment) :
    Recorded (s.confirm a.confirm.requestId reference) := by
  obtain ⟨hUser, row, hRow, hSame⟩ := hReads
  refine ⟨h.payer, h.succeeded, ?_⟩
  intro r' hMem hStatus
  obtain ⟨other, hAt⟩ := List.getElem?_of_mem hMem
  rcases getElem?_modify_cases hAt with ⟨_, r, hOld, rfl⟩ | ⟨_, hOld⟩
  · rw [hRow, Option.some.injEq] at hOld
    subst hOld
    obtain ⟨t, hTransfer, hIntent, hPayer⟩ := hPaid
    refine ⟨t, hTransfer, hIntent.trans hSame.intentId.symm, ?_⟩
    exact hPayer.trans (hUser.symm.trans hSame.userId.symm)
  · exact h.confirmed r' (List.mem_of_getElem? hOld) hStatus

theorem knows_alone {c : PayCall} {r : PayResult} (h : r.Knows s c.payment) : r.alone.Knows s := by
  cases r with
  | going c' => exact h.2
  | paid reference => exact trivial
  | thrown e => exact trivial

theorem knows_within {a : Attempt} {r : PayResult} (hReads : Reads s a.confirm a.row)
    (h : r.Knows s a.payment) : (r.within a).Knows s := by
  cases r with
  | going c => exact ⟨hReads, h.1, h.2⟩
  | paid reference => exact ⟨hReads, h⟩
  | thrown e => exact trivial

theorem knows_of_isPlain {c : Call} (h : c.isPlain = true) : c.Knows s := by
  cases c with
  | confirm c =>
    cases c with
    | expired q => exact trivial
    | _ => cases h
  | pay c => cases h
  | _ => exact trivial

theorem Recorded.took {env : Env} {c c' : Call} (h : Recorded s) (hKnows : c.Knows s)
    (hClaim : ∀ id, c.claims id = 1 → s.transfersOf id = [])
    (hOpen : ∀ id, s.isOpen id → s.transfersOf id = []) (hTook : Took env o s c s' c') :
    Recorded s' ∧ c'.Knows s' := by
  have hOthers := others_took hTook
  cases hTook with
  | pay c =>
    obtain ⟨hRecorded, hResult⟩ := h.payStep c hKnows (hClaim _) (hOpen _)
    exact ⟨hRecorded, knows_alone hResult⟩
  | paying a c =>
    obtain ⟨hReads, hPayment, hPayKnows⟩ := hKnows
    obtain ⟨hRecorded, hResult⟩ := h.payStep c hPayKnows (hClaim _) (hOpen _)
    rw [hPayment] at hResult
    exact ⟨hRecorded, knows_within (hReads.mono hOthers.requests) hResult⟩
  | aside hPlain hAside =>
    refine ⟨h.aside hAside.intents hAside.transfers ?_, knows_of_isPlain hPlain⟩
    intro r' hMem hStatus
    obtain ⟨id, hRow'⟩ := List.getElem?_of_mem hMem
    obtain ⟨r, hRow, hCloses⟩ := hAside.requests.backward hRow'
    refine ⟨r, List.mem_of_getElem? hRow, ?_, hCloses.sameAs⟩
    rcases hCloses with rfl | ⟨_, hInactive, _⟩
    · exact hStatus
    · rw [hStatus] at hInactive
      cases hInactive
  | creating hAside hRequests _ =>
    refine ⟨h.aside hAside.intents hAside.transfers ?_, trivial⟩
    intro r' hMem hStatus
    rw [hRequests] at hMem
    exact ⟨r', hMem, hStatus, .refl r'⟩
  | created d m i =>
    refine ⟨⟨h.payer, h.succeeded, ?_⟩, trivial⟩
    intro r hMem hStatus
    rcases List.mem_append.mp hMem with hMem | hMem
    · exact h.confirmed r hMem hStatus
    · rw [List.mem_singleton.mp hMem] at hStatus
      cases hStatus
  | read hRow hUser => exact ⟨h, hUser, _, hRow, .refl _⟩
  | claim hRow hPending =>
    refine ⟨h.requestsUpdate fun _ hStatus => ?_, Reads.mono hKnows hOthers.requests⟩
    cases hStatus
  | thrown e hClaimed => exact ⟨h, trivial⟩
  | revoke hMandate => exact ⟨⟨h.payer, h.succeeded, h.confirmed⟩, trivial⟩
  | checked hMandate hAllows => exact ⟨h, hKnows⟩
  | counted a => exact ⟨h, hKnows⟩
  | started hComplete hFits => exact ⟨h, hKnows, rfl, trivial⟩
  | mark a reference _ => exact ⟨h.confirm hKnows.1 hKnows.2, trivial⟩
  | settle q e =>
    refine ⟨h.requestsUpdate fun r hStatus => ?_, trivial⟩
    cases hFinal : e.final <;> simp [hFinal] at hStatus

end Recorded

/-- Nothing has been paid or confirmed yet; live intents are payable, canceled or expired. -/
structure Unpaid (s : Store) : Prop where
  transfers : s.transfers = []
  intents : ∀ i ∈ s.intents, i.liveMode = true → i.status ≠ .succeeded
  requests : ∀ r ∈ s.requests, r.status ≠ .confirmed

theorem Unpaid.recorded {s : Store} (h : Unpaid s) : Recorded s := by
  constructor
  · simp [h.transfers]
  · intro id i payer hRow hLive hStatus _
    exact absurd hStatus (h.intents i (List.mem_of_getElem? hRow) hLive)
  · intro r hMem hStatus
    exact absurd hStatus (h.requests r hMem)

/-- What a call that records a transfer knows excludes a claim of anybody else. -/
theorem transfersOf_of_records {s : Store} {c : Call} {id : IntentId} (hKnows : c.Knows s)
    (hRecords : c.records = some id) : 0 < (s.transfersOf id).length := by
  have hPaid : ∀ p : Payment, Paid s p → 0 < (s.transfersOf p.intentId).length := by
    rintro p ⟨t, hMem, hIntent, _⟩
    exact List.length_pos_of_mem (List.mem_filter.mpr ⟨hMem, by simp [hIntent]⟩)
  cases c with
  | pay c =>
    cases c with
    | record p reference =>
      simp only [Call.records, Option.some.injEq] at hRecords
      exact hRecords ▸ hPaid p hKnows
    | _ => cases hRecords
  | confirm c =>
    cases c with
    | paying a c =>
      cases c with
      | record p reference =>
        simp only [Call.records, Option.some.injEq] at hRecords
        exact hRecords ▸ hPaid p hKnows.2.2
      | _ => cases hRecords
    | _ => cases hRecords
  | _ => cases hRecords

/-- Along every run the recorded payers are the ones who paid. -/
theorem recorded_of_reaches {env : Env} {start : Store} {c : Config Store Call}
    (hStart : Unpaid start) (h : (program env).Reaches anyStep (Program.idle start) c) :
    Recorded c.store := by
  refine (h.assertions_among Recorded (fun s c => c.Knows s)
    ⟨hStart.recorded, by simp [Program.idle]⟩ ?_ ?_ ?_).1
  · intro request s _
    cases request with
    | pay p =>
      show ((payEnter p).alone).Knows s
      unfold payEnter
      split <;> exact trivial
    | _ => exact trivial
  · intro o s s' call call' before after hRun hRecorded hKnows _ hStep
    refine @Recorded.took (s.pass o.elapsed) s' o env call call' ?_ hKnows ?_ ?_
      (took_of_step hStep)
    · exact ⟨hRecorded.payer, hRecorded.succeeded, hRecorded.confirmed⟩
    · intro id hClaims
      have hLe := (intentTicket_sound hStart.transfers hRun id).fired_add_le
      have hOne : (s.transfersOf id).length + call.claims id ≤ 1 := hLe
      exact List.length_eq_zero_iff.mp (show (s.transfersOf id).length = 0 by omega)
    · intro id hOpen
      exact List.length_eq_zero_iff.mp
        ((intentTicket_sound hStart.transfers hRun id).fired_of_open hOpen)
  · intro o s s' call call' before after other hRun hMem _ hCall hOther _ hStep
    refine @Call.Knows.others (s.pass o.elapsed) s' other call hOther
      (others_took (took_of_step hStep)) ?_
    intro id hClaims
    have hApart : (s.transfersOf id).length + call.claims id + other.claims id ≤ 1 :=
      (intentTicket_sound hStart.transfers hRun id).apart hMem
    refine ⟨by omega, ?_⟩
    intro hRecords
    have hPos := transfersOf_of_records hCall hRecords
    omega

/-- However payments, cancellations, expiry and agent requests interleave and fail: an intent has
at most one transfer, none while it is payable, canceled or expired, and a confirmed request was
paid by its user. -/
theorem intent_paid_at_most_once {env : Env} {start : Store} {c : Config Store Call}
    (hStart : Unpaid start) (h : (program env).Reaches anyStep (Program.idle start) c) :
    (∀ id, (c.store.transfersOf id).length ≤ 1) ∧
      (∀ id i, c.store.intents[id]? = some i →
        (i.status = .requiresPayment ∨ i.status = .canceled ∨ i.status = .expired) →
          c.store.transfersOf id = []) ∧
      ∀ r ∈ c.store.requests, r.status = .confirmed →
        ∃ t, c.store.transfersOf r.intentId = [t] ∧ t.payerUserId = r.userId := by
  have hSound := intentTicket_sound hStart.transfers h
  have hRecorded := recorded_of_reaches hStart h
  have hOnce : ∀ id, (c.store.transfersOf id).length ≤ 1 := fun id => (hSound id).fired_le
  refine ⟨hOnce, ?_, ?_⟩
  · intro id i hRow hStatus
    have hOpen : c.store.isOpen id := by
      refine ⟨i, hRow, ?_⟩
      rcases hStatus with hStatus | hStatus | hStatus <;> rw [hStatus] <;> rfl
    exact List.length_eq_zero_iff.mp ((hSound id).fired_of_open hOpen)
  · intro r hMem hStatus
    obtain ⟨t, hTransfer, hIntent, hPayer⟩ := hRecorded.confirmed r hMem hStatus
    have hIn : t ∈ c.store.transfersOf r.intentId :=
      List.mem_filter.mpr ⟨hTransfer, by simp [hIntent]⟩
    have hLength : (c.store.transfersOf r.intentId).length = 1 :=
      Nat.le_antisymm (hOnce _) (List.length_pos_of_mem hIn)
    obtain ⟨only, hOnly⟩ := List.length_eq_one_iff.mp hLength
    rw [hOnly] at hIn
    exact ⟨t, by rw [hOnly, List.mem_singleton.mp hIn], hPayer⟩

/-- An unpaid intent of ten FARM of the business of user 1, and a pending request to user 2. -/
def tenRequested : Store where
  now := 0
  intents :=
    [{ businessId := 3
       liveMode := true
       amount := 1000 * cent
       status := .requiresPayment
       payerUserId := none
       transactionReference := none
       amountRefunded := 0
       expiresAt := 3600000
       paidAt := none
       canceledAt := none }]
  mandates := [⟨2, 3, 1000 * cent, 2000 * cent, 5000 * cent, true, 9000000, none⟩]
  requests := [⟨0, 2, 3, 0, 1000 * cent, .pending, none, none, 1800000, none, 0⟩]
  ownerOf business := if business = 3 then some 1 else none
  transfers := []

def utcServer : Env := ⟨utc, 1800000⟩

def answers : Outcome := ⟨1, false, .ok 77, false⟩

def pinRefused : Outcome := ⟨1, false, .error (.forbidden true), false⟩

/-- User 5 takes the intent first and gives it back, for the PIN is wrong; user 2 confirms. -/
def twoPayers : List (Move Request Outcome) :=
  [.enter (.pay ⟨5, 0, true⟩), .enter (.confirm ⟨2, 0, true⟩),
    .run 0 answers, .run 0 answers, .run 0 answers, .run 0 answers,
    .run 1 answers, .run 1 answers, .run 1 answers, .run 1 answers, .run 1 answers,
    .run 0 pinRefused, .run 0 answers,
    .run 1 answers, .run 1 answers, .run 1 answers, .run 1 answers, .run 1 answers, .run 1 answers,
    .run 1 answers, .run 1 answers]

theorem tenRequested_unpaid : Unpaid tenRequested := by
  constructor
  · rfl
  · intro i hMem _
    rw [List.mem_singleton.mp hMem]
    decide
  · intro r hMem
    rw [List.mem_singleton.mp hMem]
    decide

theorem ten_requested_paid_once : ∃ c,
    (program utcServer).schedule twoPayers (Program.idle tenRequested) = some c ∧
      c.store.requests.map (·.status) = [.confirmed] ∧
      c.store.intents.map (·.status) = [.succeeded] ∧
      ∃ t, c.store.transfersOf 0 = [t] ∧ t.payerUserId = 2 := by
  have hRuns : ((program utcServer).schedule twoPayers (Program.idle tenRequested)).any (fun c =>
      decide (c.store.requests.map (fun r => (r.status, r.intentId, r.userId)) =
        [(.confirmed, 0, 2)] ∧ c.store.intents.map (·.status) = [.succeeded])) = true := by
    decide +kernel
  obtain ⟨c, hRun, hEnd⟩ := (Option.any_eq_true _ _).mp hRuns
  obtain ⟨hRequests, hIntents⟩ := of_decide_eq_true hEnd
  obtain ⟨r, hRows, hRow⟩ := List.map_eq_singleton_iff.mp hRequests
  simp only [Prod.mk.injEq] at hRow
  obtain ⟨hStatus, hIntent, hUser⟩ := hRow
  obtain ⟨_, _, hConfirmed⟩ := intent_paid_at_most_once tenRequested_unpaid
    (Program.reaches_of_schedule hRun)
  obtain ⟨t, hOnly, hPayer⟩ := hConfirmed r (by rw [hRows]; exact List.mem_singleton.mpr rfl) hStatus
  refine ⟨c, hRun, by rw [hRows, List.map_singleton, hStatus], hIntents, t, ?_, ?_⟩
  · rw [← hIntent, hOnly]
  · rw [hPayer, hUser]

end FarmBackend.AgentPayments
