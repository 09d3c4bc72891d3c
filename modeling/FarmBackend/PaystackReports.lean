import FarmBackend.DepositOutcomes
import FarmBackend.PaystackCalls

/-!
# What Paystack reported when a deposit was credited

Only the webhook compares amounts. Along every run in which the other paths are told the expected
amount too, and none of them is told of a success after a rejection, each credit goes by a
successful charge of the expected amount.
-/

namespace FarmBackend.Paystack
open Decimal Wallets Deposits Interleaving

set_option autoImplicit false

def Charge.matchesExpected (charge : Charge) : Bool := charge.amount == some (charge.expected : ℚ)

structure Report.Good (report : Report) : Prop where
  amount : report.charge.amount = some (report.charge.expected : ℚ)
  success : report.charge.success = true
  first : report.afterRejection = false

/-- Every credit since the start is on record, and went by a good report. -/
structure Store.Justified (rows : Deposits.Store) (s : Store) : Prop where
  recorded : s.rows.credits = rows.credits ++ s.backed.map Prod.fst
  good : ∀ credit ∈ s.backed, ∃ report, credit.2 = some report ∧ report.Good

/-- A finaliser that goes on to settle, after a verification of its own or the cron's, goes by the
expected amount, and no charge was rejected before. -/
def tellsExpected (o : Outcome) (s : Store) : Call → Bool
  | .running _ charge _ (.verify deposit t) =>
    let asked := verifyingProvider deposit t
    let refused := (asked == some .paystack || asked == some .nowpayments) &&
      !(o.rows (.verify deposit t)).verified
    refused || !(routeOrRebuild .deposit deposit t).settling || !s.rejected &&
      (charge.isSome || asked == some .paystack &&
        o.paystack.any fun a => a.amount == some (expectedKobo deposit t : ℚ))
  | .running _ charge _ (.readTransaction .webhook deposit) =>
    (s.rows.transaction.all fun t => !(routeOrRebuild .webhook deposit t).settling) ||
      !s.rejected && charge.all Charge.matchesExpected
  | _ => true

abbrev TellsExpected : Guard Store Call Outcome := fun o s call => tellsExpected o s call = true

def deciding : Deposits.Call → Bool
  | .finalize _ | .readTransaction _ _ | .verify _ _ => true
  | _ => false

/-- What a running call has to show: a charge that the webhook has compared, or the cron's success,
and from the decision on a good report. -/
def Shows (charge : Option Charge) (report : Option Report) : Deposits.Call → Prop
  | .finalize .deposit | .readTransaction .deposit _ | .verify _ _ =>
    ∀ c, charge = some c → c.amount = some (c.expected : ℚ) ∧ c.success = true
  | .finalize .webhook | .readTransaction .webhook _ => ∃ c, charge = some c ∧ c.success = true
  | call => call.settling = true → ∃ r, report = some r ∧ r.Good

def Sound : Call → Prop
  | .chargeDeposit status _ _ => status.all (fun status => status == .success) = true
  | .running _ charge report call => Shows charge report call
  | _ => True

section Steps
variable {o : Deposits.Outcome} {s s' : Deposits.Store} {call call' : Deposits.Call}

theorem deciding_route (service : Service) (deposit : Option Deposit) (t : DepositTransaction) :
    deciding (route service deposit t) = false := by
  unfold route routeMerchantQr
  dsimp only
  repeat' split
  all_goals rfl

theorem deciding_routeOrRebuild (service : Service) (deposit : Option Deposit)
    (t : DepositTransaction) : deciding (routeOrRebuild service deposit t) = false := by
  unfold routeOrRebuild
  split
  · rfl
  · exact deciding_route _ _ _

/-- A call that is past its decision, or never had one, stays so, and settles only if it had decided
to. -/
theorem decided_of_step (hDecided : deciding call = false)
    (hStep : Deposits.step o s call = some (s', call')) :
    deciding call' = false ∧ (call'.settling = true → call.settling = true) := by
  cases call with
  | finalize | readTransaction | verify => cases hDecided
  | rebuild service userId t =>
    simp only [Deposits.step] at hStep
    split at hStep <;> cases hStep
    exact ⟨deciding_route _ _ _, fun _ => rfl⟩
  | finalizePendingDeposit | creditPendingTransactionTx =>
    obtain ⟨r, -, hStep⟩ := Option.bind_eq_some_iff.mp hStep
    cases hStep
    exact ⟨rfl, fun _ => rfl⟩
  | finalizeMerchantQr =>
    obtain ⟨merchantId, -, hStep⟩ := Option.bind_eq_some_iff.mp hStep
    obtain ⟨r, -, hStep⟩ := Option.bind_eq_some_iff.mp hStep
    cases hStep
    exact ⟨rfl, fun _ => rfl⟩
  | completeUpdate | failDepositTx | nowpaymentsMetadata =>
    obtain ⟨r, -, hStep⟩ := Option.bind_eq_some_iff.mp hStep
    cases hStep
    refine ⟨rfl, ?_⟩
    intro h
    cases h
  | creditPendingDeposit service d t =>
    simp only [Deposits.step] at hStep
    split at hStep
    · obtain ⟨r, -, hStep⟩ := Option.bind_eq_some_iff.mp hStep
      cases hStep
      exact ⟨rfl, fun _ => rfl⟩
    · cases hStep
      exact ⟨rfl, fun _ => rfl⟩
  | _ =>
    simp only [Deposits.step] at hStep
    grind [deciding, Call.settling]

theorem shows_of_decided {charge : Option Charge} {report : Option Report}
    (hDecided : deciding call = false) :
    Shows charge report call ↔ (call.settling = true → ∃ r, report = some r ∧ r.Good) := by
  cases call <;> first | rfl | cases hDecided

theorem decides_of_decided {o : Outcome} {s : Store} {charge : Option Charge}
    (hDecided : deciding call = false) : decides o s charge call = none := by
  cases call <;> first | rfl | cases hDecided

end Steps

section Runs
variable {rows : Deposits.Store} {o : Outcome} {s s' : Store} {call call' : Call}

theorem sound_cleanup : Sound cleanup := nofun

/-- A step on the rows, or the cleanup after the cron's call has ended. -/
theorem running_step {cron : Bool} {charge : Option Charge} {report : Option Report}
    {inner : Deposits.Call} (h : step o s (.running cron charge report inner) = some (s', call')) :
    (s' = s ∧ call' = cleanup) ∨ ∃ rows' inner',
      Deposits.step (o.rows inner) s.rows inner = some (rows', inner') ∧
      s'.rows = rows' ∧
      s'.backed = s.backed ++ (rows'.credits.drop s.rows.credits.length).map
        (fun credit => (credit, decides o s charge inner <|> report)) ∧
      call' = .running cron charge (decides o s charge inner <|> report) inner' := by
  simp only [step] at h
  split at h
  · rw [Option.ite_none_right_eq_some] at h
    obtain ⟨-, h⟩ := h
    cases h
    exact .inl ⟨rfl, rfl⟩
  · rename_i rows' inner' hInner
    cases h
    exact .inr ⟨rows', inner', hInner, rfl, rfl, rfl⟩

theorem shows_of_cron {charge : Option Charge} {report : Option Report} {cron : Bool}
    {deposit : Option Deposit} {rows' : Deposits.Store} {inner' : Deposits.Call}
    (hShows : ∃ c, charge = some c ∧ c.success = true)
    (hOk : tellsExpected o s (.running cron charge report (.readTransaction .webhook deposit)) = true)
    (hStep : Deposits.step (o.rows (.readTransaction .webhook deposit)) s.rows
      (.readTransaction .webhook deposit) = some (rows', inner')) :
    Shows charge (decides o s charge (.readTransaction .webhook deposit) <|> report) inner' := by
  obtain ⟨t, hRow, hStep⟩ := Option.bind_eq_some_iff.mp hStep
  cases hStep
  rw [shows_of_decided (deciding_routeOrRebuild _ _ _)]
  intro hSettling
  obtain ⟨c, rfl, hSuccess⟩ := hShows
  simp only [tellsExpected, hRow, Option.all_some, hSettling, Bool.not_true, Bool.false_or,
    Bool.and_eq_true, Bool.not_eq_true', Charge.matchesExpected, beq_iff_eq] at hOk
  exact ⟨⟨c, s.rejected⟩, rfl, hOk.2, hSuccess, hOk.1⟩

theorem shows_of_verify {charge : Option Charge} {report : Option Report} {cron : Bool}
    {deposit : Option Deposit} {t : DepositTransaction} {rows' : Deposits.Store}
    {inner' : Deposits.Call}
    (hShows : ∀ c, charge = some c → c.amount = some (c.expected : ℚ) ∧ c.success = true)
    (hOk : tellsExpected o s (.running cron charge report (.verify deposit t)) = true)
    (hStep : Deposits.step (o.rows (.verify deposit t)) s.rows (.verify deposit t) =
      some (rows', inner')) :
    Shows charge (decides o s charge (.verify deposit t) <|> report) inner' := by
  simp only [Deposits.step] at hStep
  split at hStep
  · cases hStep
    intro h
    cases h
  · rename_i hGoesOn
    cases hStep
    rw [shows_of_decided (deciding_routeOrRebuild _ _ _)]
    intro hSettling
    have hNot : ((verifyingProvider deposit t == some .paystack ||
        verifyingProvider deposit t == some .nowpayments) &&
          !(o.rows (.verify deposit t)).verified) = false := by
      simpa using hGoesOn
    simp only [tellsExpected, hNot, hSettling, Bool.not_true, Bool.false_or, Bool.and_eq_true,
      Bool.not_eq_true', Bool.or_eq_true, beq_iff_eq] at hOk
    obtain ⟨hFirst, hTold⟩ := hOk
    cases charge with
    | some c =>
      obtain ⟨hAmount, hSuccess⟩ := hShows c rfl
      exact ⟨⟨c, s.rejected⟩, rfl, hAmount, hSuccess, hFirst⟩
    | none =>
      obtain ⟨hAsked, hAmount⟩ : verifyingProvider deposit t = some .paystack ∧
          (o.paystack.any fun a => a.amount == some (expectedKobo deposit t : ℚ)) = true := by
        simpa using hTold
      have hSucceeded : (o.paystack.any fun a => a.status == .success) = true := by
        have hVerified : (o.rows (.verify deposit t)).verified = true := by
          simpa [hAsked] using hNot
        rwa [Outcome.rows, if_pos hAsked] at hVerified
      refine ⟨_, rfl, ?_, ?_, hFirst⟩
      · obtain ⟨answer, hAnswer, hIs⟩ := Option.any_eq_true _ _ |>.mp hAmount
        simpa [hAnswer] using hIs
      · simp [hAsked, hSucceeded]

theorem sound_of_step (hSound : Sound call) (hOk : TellsExpected o s call)
    (hStep : step o s call = some (s', call')) : Sound call' := by
  cases call with
  | running cron charge report inner =>
    rcases running_step hStep with ⟨-, rfl⟩ | ⟨rows', inner', hInner, -, -, rfl⟩
    · exact sound_cleanup
    · cases hDeciding : deciding inner with
      | false =>
        obtain ⟨hDecided, hSettles⟩ := decided_of_step hDeciding hInner
        rw [decides_of_decided hDeciding]
        apply (shows_of_decided hDecided).mpr
        intro hSettling
        exact (shows_of_decided hDeciding).mp hSound (hSettles hSettling)
      | true =>
        cases inner with
        | finalize service =>
          cases hInner
          cases service with
          | webhook => exact hSound
          | deposit => exact hSound
        | readTransaction service deposit =>
          cases service with
          | webhook => exact shows_of_cron hSound hOk hInner
          | deposit =>
            obtain ⟨t, -, hInner⟩ := Option.bind_eq_some_iff.mp hInner
            cases hInner
            exact hSound
        | verify deposit t => exact shows_of_verify hSound hOk hInner
        | _ => cases hDeciding
  | chargeSuccess status amount =>
    simp only [step] at hStep
    split at hStep <;> cases hStep <;> trivial
  | chargeTransaction status amount =>
    simp only [step] at hStep
    split at hStep
    · cases hStep
      trivial
    · split at hStep
      · rename_i hStatus
        cases hStep
        exact hStatus.2
      · cases hStep
        trivial
  | chargeDeposit status amount t =>
    simp only [step] at hStep
    split at hStep
    · cases amount with
      | none =>
        cases hStep
        trivial
      | some received =>
        dsimp only at hStep
        split at hStep
        · rename_i hSame
          cases hStep
          rintro c ⟨⟩
          exact ⟨congrArg some hSame, hSound⟩
        · cases hStep
          trivial
    · cases hStep
      trivial
  | chargeFailed reason =>
    simp only [step] at hStep
    split at hStep <;> cases hStep
    · exact nofun
    · trivial
  | fixStuckDeposits =>
    simp only [step] at hStep
    split at hStep <;> cases hStep
    · exact sound_cleanup
    · trivial
  | stuckDeposit t =>
    simp only [step] at hStep
    split at hStep <;> cases hStep
    · trivial
    · exact sound_cleanup
  | stuckVerify deposit t =>
    simp only [step] at hStep
    split at hStep
    · cases hStep
      exact sound_cleanup
    · split at hStep
      · rename_i hSuccess
        cases hStep
        exact ⟨_, rfl, hSuccess⟩
      · split at hStep <;> cases hStep
        · exact nofun
        · exact sound_cleanup
  | verifyDepositStatus userId =>
    simp only [step] at hStep
    split at hStep
    · cases hStep
      trivial
    · simp only [Option.ite_none_right_eq_some] at hStep
      obtain ⟨-, hStep⟩ := hStep
      cases hStep
      trivial
  | verifyOwner userId deposit =>
    simp only [step] at hStep
    split at hStep <;> cases hStep
    exact nofun
  | done => cases hStep

/-- Only a step on the rows touches them or the record of the credits. -/
theorem rows_of_step (hStep : step o s call = some (s', call')) :
    (∃ cron charge report inner, call = .running cron charge report inner) ∨
      (s'.rows = s.rows ∧ s'.backed = s.backed) := by
  cases call with
  | running cron charge report inner => exact .inl ⟨cron, charge, report, inner, rfl⟩
  | chargeDeposit status amount t =>
    right
    simp only [step] at hStep
    split at hStep
    · cases amount with
      | none =>
        cases hStep
        exact ⟨rfl, rfl⟩
      | some received =>
        dsimp only at hStep
        split at hStep <;> cases hStep <;> exact ⟨rfl, rfl⟩
    · cases hStep
      exact ⟨rfl, rfl⟩
  | _ =>
    simp only [step] at hStep
    grind

theorem justified_of_step (h : s.Justified rows) (hSound : Sound call)
    (hStep : step o s call = some (s', call')) : s'.Justified rows := by
  rcases rows_of_step hStep with ⟨cron, charge, report, inner, rfl⟩ | ⟨hRows, hBacked⟩
  · rcases running_step hStep with ⟨rfl, -⟩ | ⟨rows', inner', hInner, hRows, hBacked, -⟩
    · exact h
    · obtain ⟨new, hNew⟩ := prefix_of_step hInner
      have hDrop : rows'.credits.drop s.rows.credits.length = new := by
        rw [← hNew, List.drop_left]
      rw [hDrop] at hBacked
      constructor
      · rw [hRows, hBacked, ← hNew, h.recorded]
        simp [Function.comp_def]
      · intro credit hMem
        rw [hBacked, List.mem_append] at hMem
        rcases hMem with hOld | hAdded
        · exact h.good credit hOld
        · obtain ⟨payment, hPayment, rfl⟩ := List.mem_map.mp hAdded
          have hSettling : inner.settling = true := by
            by_contra hQuiet
            rw [Bool.not_eq_true] at hQuiet
            have hSame := Store.credits_of_money (money_of_step hQuiet hInner)
            rw [hSame, ← List.append_nil s.rows.credits, List.append_assoc,
              List.append_cancel_left_eq] at hNew
            rw [show new = [] from hNew] at hPayment
            cases hPayment
          have hDeciding : deciding inner = false := by
            cases inner <;> first | rfl | cases hSettling
          rw [decides_of_decided hDeciding]
          exact (shows_of_decided hDeciding).mp hSound hSettling
  · exact ⟨by rw [hRows, hBacked]; exact h.recorded, hBacked ▸ h.good⟩

/-- Wherever Paystack tells the expected amount to all who ask, the deposit is credited for a
successful charge of that amount only, and never after a rejection. -/
theorem credited_for_expected_amount {createdAt : Time} {c : Config Store Call}
    (h : program.Reaches TellsExpected (Program.idle (opened rows createdAt)) c) :
    c.store.Justified rows := by
  have hStart : (opened rows createdAt).Justified rows :=
    ⟨by simp [opened], by simp [opened]⟩
  refine (h.assertions (Store.Justified rows) (fun _ => Sound)
    ⟨hStart, by simp [Program.idle]⟩ ?_ ?_ ?_).1
  · intro request store _
    cases request <;> trivial
  · intro outcome store store' call call' hBefore hSound hOk hStep
    exact ⟨justified_of_step hBefore hSound hStep, sound_of_step hSound hOk hStep⟩
  · intro outcome store store' call call' other _ _ hOther _ _
    exact hOther

end Runs

/-- Three minutes after the deposit was opened, Paystack answers with a success over this amount. -/
def answering (amount : ℚ) : Outcome :=
  ⟨3 * 60 * 1000, Fees.FEE_DEFAULTS .merchant, true, some ⟨.success, some amount⟩, false, true,
    48 * 60 * 60 * 1000, false⟩

def steps (index n : ℕ) (o : Outcome) : List (Move Request Outcome) :=
  List.replicate n (.run index o)

/-- The deposit of ten that Paystack is to collect 1000 kobo for. -/
def depositOfTen : Store := opened (Deposits.depositOfTen (some 1) (some pendingRow)) 0

/-- The webhook reports 1 kobo and is rejected; then the cron is told the same. -/
def creditedAfterRejection : List (Move Request Outcome) :=
  .enter (.chargeSuccess (some .success) (some 1)) :: steps 0 3 (answering 1) ++
    .enter .fixStuckDeposits :: steps 1 6 (answering 1)

theorem rejected_charge_credited_by_cron : ∃ c,
    program.Reaches anyStep (Program.idle depositOfTen) c ∧ c.store.rejected = true ∧
      c.store.rows.credits = [(1, Wallets.toUnits 10)] ∧
      (∃ credit ∈ c.store.backed, credit.2 = some ⟨⟨some 1, 1000, true⟩, true⟩) ∧
      ¬c.store.Justified depositOfTen.rows := by
  have hRuns : (program.schedule creditedAfterRejection (Program.idle depositOfTen)).any
      (fun c => c.store.rejected && c.store.rows.credits == [(1, Wallets.toUnits 10)] &&
        c.store.backed.any fun credit => credit.2.any fun r =>
          r.charge.amount == some 1 && r.charge.expected == 1000 && r.charge.success &&
            r.afterRejection) = true := by
    decide +kernel
  obtain ⟨c, hRun, hEnd⟩ := Program.reaches_of_any hRuns
  simp only [Bool.and_eq_true, beq_iff_eq, List.any_eq_true, Option.any_eq_true] at hEnd
  obtain ⟨⟨hRejected, hCredits⟩, credit, hMem, ⟨⟨amount, expected, success⟩, after⟩, hReport,
    ⟨⟨hAmount, hExpected⟩, hSuccess⟩, hAfter⟩ := hEnd
  dsimp only at hAmount hExpected hSuccess hAfter
  subst hAmount hExpected hSuccess hAfter
  refine ⟨c, hRun, hRejected, hCredits, ⟨credit, hMem, hReport⟩, ?_⟩
  intro hJustified
  obtain ⟨report, hSame, hGood⟩ := hJustified.good credit hMem
  rw [hReport, Option.some.injEq] at hSame
  subst hSame
  cases hGood.first

/-- The webhook, the cron and the user are told 1000 kobo; the first of them credits. -/
def creditedAsExpected : List (Move Request Outcome) :=
  .enter (.chargeSuccess (some .success) (some 1000)) :: steps 0 3 (answering 1000) ++
    .enter .fixStuckDeposits :: steps 1 6 (answering 1000) ++
    .enter (.verifyDepositStatus 1) :: steps 2 4 (answering 1000)

theorem deposit_of_ten_credited_for_1000_kobo : ∃ c,
    program.Reaches TellsExpected (Program.idle depositOfTen) c ∧
      c.store.rows.credits = [(1, Wallets.toUnits 10)] ∧
      c.store.Justified (Deposits.depositOfTen (some 1) (some pendingRow)) := by
  have hRuns : ((program.guarded TellsExpected).schedule creditedAsExpected
      (Program.idle depositOfTen)).any
        (fun c => c.store.rows.credits == [(1, Wallets.toUnits 10)]) = true := by
    decide +kernel
  obtain ⟨c, hReach, hCredits⟩ := Program.reaches_of_guarded_any hRuns
  exact ⟨c, hReach, by simpa using hCredits, credited_for_expected_amount hReach⟩

end FarmBackend.Paystack
