import FarmBackend.Interleaving
import FarmBackend.QrPayments

/-!
# The three writers of a QR sale

Calls of `complete` and `markFailed` and the failure transactions of the NOWPayments webhook, on one
reference. `complete` reads the rows and the fee rule first and settles in a transaction afterwards.
-/

namespace FarmBackend.QrPayments
open Decimal Fees Wallets Interleaving

set_option autoImplicit false

inductive Call where
  | complete (provider : QrProvider) (v : VerifiedPayment)
  | settle (rule : FeeRule) (p : Settlement)
  | markFailed
  | nowpaymentsFailure
  | done (answer : Bool)

inductive Request where
  | complete (provider : QrProvider) (v : VerifiedPayment)
  | markFailed
  | nowpaymentsFailure

variable (reference : Reference)

/-- The outcome is the merchant rule, read where `complete` reads it. -/
def step (rule : FeeRule) (s : Store) : Call → Option (Store × Call)
  | .complete provider v =>
    match settlementOf reference provider v s.sale with
    | none => some (s, .done false)
    | some p => some (s, .settle rule p)
  | .settle rule p => (completeTx rule p s).map fun (s', answer) => (s', .done answer)
  | .markFailed => let (s', answer) := markFailedTx s; some (s', .done answer)
  | .nowpaymentsFailure => some (nowpaymentsFailureTx s, .done true)
  | .done _ => none

def program : Program Store Call Request FeeRule where
  enter
    | .complete provider v => .complete provider v
    | .markFailed => .markFailed
    | .nowpaymentsFailure => .nowpaymentsFailure
  step := step reference

/-! ## What a step can do -/

/-- What a settlement takes from the rows, none of which a step changes. -/
def Sale.Offers (sale : Sale) (p : Settlement) : Prop :=
  p.id = sale.transaction.id ∧ p.amount = sale.transaction.amount ∧
    sale.qrPayment.merchantId = some p.merchantId ∧
    sale.transaction.receiverWalletId = some p.walletId

/-- The columns of the sale that the three writers leave alone. -/
structure Sale.Same (old new : Sale) : Prop where
  id : new.transaction.id = old.transaction.id
  amount : new.transaction.amount = old.transaction.amount
  receiverWalletId : new.transaction.receiverWalletId = old.transaction.receiverWalletId
  merchantId : new.qrPayment.merchantId = old.qrPayment.merchantId

theorem Sale.Same.refl (sale : Sale) : sale.Same sale := ⟨rfl, rfl, rfl, rfl⟩

theorem Sale.Same.trans {a b c : Sale} (hab : a.Same b) (hbc : b.Same c) : a.Same c :=
  ⟨hbc.id.trans hab.id, hbc.amount.trans hab.amount,
    hbc.receiverWalletId.trans hab.receiverWalletId, hbc.merchantId.trans hab.merchantId⟩

theorem Sale.Same.offers {old new : Sale} (h : old.Same new) {p : Settlement}
    (hOffers : new.Offers p) : old.Offers p := by
  obtain ⟨hId, hAmount, hMerchant, hWallet⟩ := hOffers
  exact ⟨hId.trans h.id, hAmount.trans h.amount, h.merchantId.symm.trans hMerchant,
    h.receiverWalletId.symm.trans hWallet⟩

theorem same_fail (from' : TransactionStatus → Bool) (sale : Sale) :
    sale.Same (sale.fail from') := by
  constructor
  all_goals
    simp only [Sale.fail]
    split <;> rfl

theorem same_settled (rule : FeeRule) (p : Settlement) (sale : Sale) :
    sale.Same (sale.settled rule p) := ⟨rfl, rfl, rfl, rfl⟩

theorem offers_of_settlementOf {reference : Reference} {provider : QrProvider}
    {v : VerifiedPayment} {sale : Option Sale} {p : Settlement}
    (h : settlementOf reference provider v sale = some p) :
    ∃ row, sale = some row ∧ row.Offers p := by
  simp only [settlementOf, Option.bind_eq_bind, Option.bind_eq_some_iff, Option.pure_def,
    Option.ite_none_right_eq_some, Option.some.injEq] at h
  obtain ⟨row, rfl, _, merchantId, hMerchant, walletId, hWallet, rfl⟩ := h
  exact ⟨row, rfl, rfl, rfl, hMerchant, hWallet⟩

/-- Rows that agree fail together, and only when they are not completed. -/
theorem Sale.Agrees.fail {sale : Sale} (h : sale.Agrees) (from' : TransactionStatus → Bool) :
    (sale.fail from').Agrees ∧
      (sale.fail from').status = if from' sale.status then .failed else sale.status := by
  unfold Sale.Agrees at h
  cases hFrom : from' sale.transaction.status with
  | false => simp [Sale.fail, Sale.Agrees, Sale.status, hFrom, ← h]
  | true => simp [Sale.fail, Sale.Agrees, Sale.status, hFrom, ← h]

theorem fail_eq_self {sale : Sale} (h : sale.Agrees) {from' : TransactionStatus → Bool}
    (hFrom : from' sale.status = false) : sale.fail from' = sale := by
  have hQr : from' sale.qrPayment.status = false := by
    rw [← h]
    exact hFrom
  unfold Sale.status at hFrom
  simp [Sale.fail, hFrom, hQr]

/-- One step on a sale whose rows agree. -/
inductive Took (s : Store) (sale : Sale) : Call → Store → Call → Prop where
  | quiet {call call' : Call}
      (hCall' : ∀ rule p, call' = .settle rule p → sale.Offers p) : Took s sale call s call'
  | failed {call : Call} {answer : Bool} {from' : TransactionStatus → Bool}
      (hStatus : from' .completed = false) :
      Took s sale call { s with sale := some (sale.fail from') } (.done answer)
  | settled {rule : FeeRule} {p : Settlement} {till : Till}
      (hStatus : isSettleable sale.status = true) (hTill : s.till.Settled rule p till) :
      Took s sale (.settle rule p) ⟨some (sale.settled rule p), till⟩ (.done true)

variable {reference : Reference} {rule : FeeRule} {s s' : Store} {call call' : Call} {sale : Sale}

theorem took_of_step (hSale : s.sale = some sale)
    (hStep : step reference rule s call = some (s', call')) : Took s sale call s' call' := by
  cases call with
  | complete provider v =>
    simp only [step] at hStep
    split at hStep
    · cases hStep
      exact .quiet (by simp)
    · rename_i p hSettlement
      cases hStep
      apply Took.quiet
      intro rule' p' hCall
      cases hCall
      obtain ⟨row, hRow, hOffers⟩ := offers_of_settlementOf hSettlement
      cases hSale.symm.trans hRow
      exact hOffers
  | settle rule p =>
    obtain ⟨⟨after, answer⟩, hTx, hStep⟩ := Option.map_eq_some_iff.mp hStep
    cases hStep
    rcases completeTx_eq_some hTx with ⟨rfl, rfl, _⟩ | ⟨row, rfl, hRow, hStatus, _, hAfter, hTill⟩
    · exact .quiet (by simp)
    · cases hSale.symm.trans hRow
      obtain ⟨_, till⟩ := s'
      cases hAfter
      exact .settled hStatus hTill
  | markFailed =>
    simp only [step, markFailedTx, hSale] at hStep
    split at hStep
    · cases hStep
      exact .failed rfl
    · cases hStep
      exact .quiet (by simp)
  | nowpaymentsFailure =>
    simp only [step, nowpaymentsFailureTx, hSale, Option.map_some, Option.some.injEq,
      Prod.mk.injEq] at hStep
    obtain ⟨rfl, rfl⟩ := hStep
    exact .failed rfl
  | done answer => cases hStep

/-! ## Runs -/

/-- The store against the one the run began with. -/
structure Follows (start : Store) (sale₀ : Sale) (s : Store) (sale : Sale) : Prop where
  same : sale₀.Same sale
  agrees : sale.Agrees
  unsettled : sale.status ≠ .completed → s.till = start.till
  settled : sale.status = .completed → ∃ rule p, sale₀.Offers p ∧
    sale.transaction.fee = saleFeeUnits rule p.amount ∧
    sale.transaction.netAmount = p.amount - saleFeeUnits rule p.amount ∧
    start.till.Settled rule p s.till

def Knows (sale₀ : Sale) : Call → Prop
  | .settle _ p => sale₀.Offers p
  | _ => True

theorem Follows.fail {start : Store} {sale₀ : Sale} (h : Follows start sale₀ s sale)
    {from' : TransactionStatus → Bool} (hStatus : from' .completed = false) :
    Follows start sale₀ { s with sale := some (sale.fail from') } (sale.fail from') := by
  obtain ⟨hAgrees, hAfter⟩ := h.agrees.fail from'
  refine ⟨h.same.trans (same_fail from' sale), hAgrees, ?_, ?_⟩
  · intro hOpen
    apply h.unsettled
    intro hDone
    rw [hAfter, hDone, hStatus] at hOpen
    exact hOpen rfl
  · intro hDone
    have hBefore : from' sale.status = false := by
      cases hFrom : from' sale.status with
      | false => rfl
      | true =>
        rw [hAfter, hFrom] at hDone
        cases hDone
    rw [fail_eq_self h.agrees hBefore] at hDone ⊢
    exact h.settled hDone

theorem Follows.settle {start : Store} {sale₀ : Sale} {p : Settlement} {till : Till}
    (h : Follows start sale₀ s sale) (hOffers : sale₀.Offers p)
    (hStatus : isSettleable sale.status = true) (hTill : s.till.Settled rule p till) :
    Follows start sale₀ ⟨some (sale.settled rule p), till⟩ (sale.settled rule p) := by
  have hOpen : sale.status ≠ .completed := by
    intro hDone
    rw [hDone] at hStatus
    cases hStatus
  refine ⟨h.same.trans (same_settled rule p sale), rfl, ?_, ?_⟩
  · intro hNot
    exact absurd rfl hNot
  · intro _
    refine ⟨rule, p, hOffers, rfl, rfl, ?_⟩
    rw [← h.unsettled hOpen]
    exact hTill

theorem Follows.took {start : Store} {sale₀ : Sale} (h : Follows start sale₀ s sale)
    (hSale : s.sale = some sale) (hKnows : Knows sale₀ call) (hTook : Took s sale call s' call') :
    (∃ sale', s'.sale = some sale' ∧ Follows start sale₀ s' sale') ∧ Knows sale₀ call' := by
  cases hTook with
  | quiet hCall' =>
    refine ⟨⟨sale, hSale, h⟩, ?_⟩
    cases call' with
    | settle rule p => exact h.same.offers (hCall' rule p rfl)
    | _ => trivial
  | failed hStatus => exact ⟨⟨_, rfl, h.fail hStatus⟩, trivial⟩
  | settled hStatus hTill => exact ⟨⟨_, rfl, h.settle hKnows hStatus hTill⟩, trivial⟩

theorem follows_of_reaches {start : Store} {sale₀ : Sale} {c : Config Store Call}
    (hSale : start.sale = some sale₀) (hAgrees : sale₀.Agrees) (hOpen : sale₀.status ≠ .completed)
    (h : (program reference).Reaches anyStep (Program.idle start) c) :
    ∃ sale, c.store.sale = some sale ∧ Follows start sale₀ c.store sale := by
  have hFirst : Follows start sale₀ start sale₀ :=
    ⟨.refl sale₀, hAgrees, fun _ => rfl, fun hDone => absurd hDone hOpen⟩
  refine (h.assertions (fun s => ∃ sale, s.sale = some sale ∧ Follows start sale₀ s sale)
    (fun _ => Knows sale₀) ⟨⟨sale₀, hSale, hFirst⟩, by simp [Program.idle]⟩ ?_ ?_ ?_).1
  · intro request s _
    cases request <;> trivial
  · rintro rule s s' call call' ⟨sale, hRow, hFollows⟩ hKnows _ hStep
    exact hFollows.took hRow hKnows (took_of_step hRow hStep)
  · intro _ _ _ _ _ _ _ _ hOther _ _
    exact hOther

theorem store_eq_of_completed {c c' : Config Store Call} (hSale : c.store.sale = some sale)
    (hAgrees : sale.Agrees) (hDone : sale.status = .completed)
    (h : (program reference).Reaches anyStep c c') : c'.store = c.store := by
  refine h.store_invariant (fun s => s = c.store) rfl ?_
  rintro rule s s' call call' rfl _ hStep
  have hTook := took_of_step hSale hStep
  generalize c.store = s at hSale hTook
  cases hTook with
  | quiet _ => rfl
  | failed hStatus =>
    rw [fail_eq_self hAgrees (by rw [hDone, hStatus]), ← hSale]
  | settled hStatus _ =>
    rw [hDone] at hStatus
    cases hStatus

def hundredSale : Sale where
  transaction := ⟨0, .merchantPayment, .pending, 100 * 10 ^ 8, 0, 100 * 10 ^ 8, some 1,
    ⟨true, some .paystack, some 1000, none, none, none, none⟩⟩
  qrPayment := ⟨some 7, .pending⟩
  receipt := none

/-- The merchant's wallet is 1, the platform's 0. -/
def hundredSaleStore : Store where
  sale := some hundredSale
  till := ⟨⟨fun w => if w < 2 then some ⟨0, 0, false⟩ else none, some 0, [], []⟩,
    fun w => if w = 1 then some 9 else none, fun m => if m = 7 then some 0 else none⟩

def paidInFull : VerifiedPayment :=
  ⟨none, some "success", some "qr-1", some (some 100000), none, none, none, none, none, none, none,
    none, none, none⟩

def failedThenPaidTwice : List (Move Request FeeRule) :=
  let rule : FeeRule := FEE_DEFAULTS .merchant
  [.enter .markFailed, .enter (.complete .paystack paidInFull),
    .enter (.complete .paystack paidInFull), .enter .nowpaymentsFailure, .run 0 rule, .run 1 rule,
    .run 2 rule, .run 2 rule, .run 3 rule, .run 1 rule]

end FarmBackend.QrPayments
