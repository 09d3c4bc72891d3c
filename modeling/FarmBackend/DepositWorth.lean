import FarmBackend.ExchangeRates

/-!
# Which paths record what a deposit is worth

`initiateDeposit` divides by the rate that it should multiply with, `createDeposit` takes a shilling
for a FARM, and the rates for crypto fall back to 150 shillings a dollar. So each path is worth its
rate exactly when the rates make up for it.
-/

namespace FarmBackend.ExchangeRates
open Decimal Wallets
open WithdrawCalls (trim truthy)

set_option autoImplicit false

/-! ### Bounds that hold for every large amount -/

section Growth
variable {u v x y : ℚ} (bound low : ℚ)

theorem le_of_growth (h : ∀ a, low ≤ a → a * u ≤ bound + a * v) : u ≤ v := by
  by_contra hLess
  rw [not_le] at hLess
  have hGap : 0 < u - v := sub_pos.mpr hLess
  have hHigh := h (max low (bound / (u - v) + 1)) (le_max_left _ _)
  have hLarge : (bound / (u - v) + 1) * (u - v) ≤ max low (bound / (u - v) + 1) * (u - v) :=
    mul_le_mul_of_nonneg_right (le_max_right _ _) hGap.le
  rw [add_mul, div_mul_cancel₀ _ hGap.ne', one_mul] at hLarge
  linarith

theorem eq_of_growth (hLow : 0 < low) (h : ∀ a, low ≤ a → |a * x - a * y| ≤ bound) : x = y := by
  have hZero : |x - y| ≤ 0 := by
    refine le_of_growth bound low fun a hLe => ?_
    have hClose := h a hLe
    rw [← mul_sub, abs_mul, abs_of_pos (hLow.trans_le hLe)] at hClose
    rwa [mul_zero, add_zero]
  exact sub_eq_zero.mp (abs_nonpos_iff.mp hZero)

end Growth

/-! ### Rates -/

section Rates
variable {r : Rates} {code : String} {rate x : ℚ}

theorem Consistent.pos (h : Consistent r) (hGives : Gives r code rate) : 0 < rate :=
  (h code rate hGives).1

theorem Consistent.unique (h : Consistent r) (hGives : Gives r code rate) (hOther : Gives r code x) :
    x = rate :=
  (h code rate hGives).2 x hOther

theorem Rates.getExchangeRate_cached (h : r.cached code = some x) :
    (r.getExchangeRate code "FARM").1 = x := by
  simp only [Rates.cached, Option.ite_none_left_eq_some] at h
  obtain ⟨hCode, hCache⟩ := h
  simp [Rates.getExchangeRate, hCode, hCache]

/-- Without a cached rate it is a row's, or 1. -/
theorem Rates.getExchangeRate_uncached (h : r.cached code = none) :
    (r.getExchangeRate code "FARM").1 = 1 ∨ Gives r code (r.getExchangeRate code "FARM").1 := by
  unfold Rates.getExchangeRate
  split
  · exact .inl rfl
  · rename_i hCode
    have hCache : r.cache code "FARM" = none := by simpa [Rates.cached, hCode] using h
    rw [hCache]
    dsimp only
    unfold Rates.lookUp
    split
    · rename_i row hRow
      exact .inr (.direct hRow)
    · split
      · rename_i row hRow
        obtain ⟨hFound, hRate⟩ := Option.filter_eq_some_iff.mp hRow
        exact .inr (.reverse hFound (of_decide_eq_true hRate))
      · exact .inl rfl

/-- The rate that is divided by is the inverse of the right one in these cases only. -/
theorem Rates.inverted_iff (hRates : Consistent r) : r.inverted code ↔
    ∃ rate, Gives r code rate ∧ (r.getExchangeRate code "FARM").1 * rate = 1 := by
  unfold Rates.inverted
  cases hCached : r.cached code with
  | some x => rw [Rates.getExchangeRate_cached hCached, Option.getD_some]
  | none =>
    rw [Option.getD_none]
    have hFound := Rates.getExchangeRate_uncached hCached
    constructor
    · rintro ⟨rate, hGives, hOne⟩
      refine ⟨rate, hGives, ?_⟩
      rcases hFound with hFallback | hRow
      · rwa [hFallback]
      · have hUnit : rate = 1 := by linarith
        rw [hRates.unique hGives hRow, hUnit, mul_one]
    · rintro ⟨rate, hGives, hInverse⟩
      refine ⟨rate, hGives, ?_⟩
      rcases hFound with hFallback | hRow
      · rwa [hFallback] at hInverse
      · rw [hRates.unique hGives hRow] at hInverse
        have hPos := hRates.pos hGives
        nlinarith

end Rates

/-! ### Worth -/

theorem abs_toNumber_sub (x : ℚ) : |toNumber (toUnits x) - x| ≤ 1 / 2 / 10 ^ 8 :=
  abs_toFixed_sub 8 x

section Worth
variable {r : Rates} {charged amountFarm rate : ℚ} {code : String}

theorem worthAt_of (h : |amountFarm - charged * rate| ≤ 1 / 2 / 10 ^ 8) :
    (Deposited.of charged code amountFarm).WorthAt rate := by
  have hRow := abs_toNumber_sub amountFarm
  refine ⟨h.trans (by norm_num [Deposited.tolerance, Deposited.of]), ?_⟩
  calc |toNumber (toUnits amountFarm) - charged * rate|
      ≤ |toNumber (toUnits amountFarm) - amountFarm| + |amountFarm - charged * rate| :=
        abs_sub_le _ _ _
    _ ≤ 1 / 2 / 10 ^ 8 + 1 / 2 / 10 ^ 8 := add_le_add hRow h
    _ ≤ _ := by norm_num [Deposited.tolerance, Deposited.of]

/-- Amounts that are all worth a rate have it as their quotient. -/
theorem gives_of_worth {low quotient : ℚ} (hRates : Consistent r) (hLow : 0 < low)
    (h : ∀ a, low ≤ a → (Deposited.of a code (a * quotient)).Worth r) : Gives r code quotient := by
  obtain ⟨rate, hGives, -⟩ := h low le_rfl
  have hSame : quotient = rate := by
    refine eq_of_growth (1 / 10 ^ 8) low hLow fun a hLe => ?_
    obtain ⟨rate', hGives', hWorth⟩ := h a hLe
    rw [← hRates.unique hGives hGives']
    exact hWorth.deposit
  rwa [hSame]

end Worth

/-! ### Money by `initiateDeposit` -/

section Initiate
variable {text : Text} {r : Rates} {o : Outcome} {dto : DepositDto} {d : Deposited}

/-- The rate that the amount is divided by. -/
def divisor (text : Text) (r : Rates) (currency : String) : ℚ :=
  (r.getExchangeRate (text.toUpperCase currency) "FARM").1

def PaymentMethod.isFiat : PaymentMethod → Bool
  | .card | .mobileMoney | .bankTransfer => true
  | .crypto | .applePay => false

/-- A bank transfer in another currency is refused. -/
def wrongCurrency (text : Text) (method : PaymentMethod) (currency : String) : Prop :=
  method = .bankTransfer ∧ text.toUpperCase (trim currency) ≠ "KES"

theorem of_initiateDeposit (h : initiateDeposit text o r dto = some d) :
    ¬wrongCurrency text (dto.paymentMethod.getD .card) dto.currency ∧
      divisor text r dto.currency ≠ 0 ∧
      ((dto.paymentMethod.getD .card).isFiat = true →
        d = .of dto.amountFiat (text.toUpperCase dto.currency)
          (dto.amountFiat / divisor text r dto.currency)) ∧
      (dto.paymentMethod.getD .card = .crypto → ∃ user, createInvoice text o r dto user
        (dto.amountFiat / divisor text r dto.currency) = some d) ∧
      dto.paymentMethod.getD .card ≠ .applePay := by
  simp only [initiateDeposit, Option.ite_none_left_eq_some, Option.bind_eq_bind,
    Option.bind_eq_some_iff, not_or] at h
  obtain ⟨hCurrency, user, -, ⟨-, hRate⟩, h⟩ := h
  refine ⟨hCurrency, hRate, ?_⟩
  cases hMethod : dto.paymentMethod.getD .card with
  | card | bankTransfer =>
    simp only [hMethod, Option.ite_none_right_eq_some, Option.some.injEq] at h
    exact ⟨fun _ => h.2.symm, (fun hOther => by cases hOther), (fun hOther => by cases hOther)⟩
  | mobileMoney =>
    simp only [hMethod, Option.ite_none_right_eq_some, Option.some.injEq] at h
    exact ⟨fun _ => h.2.symm, (fun hOther => by cases hOther), (fun hOther => by cases hOther)⟩
  | crypto =>
    simp only [hMethod] at h
    exact ⟨(fun hOther => by cases hOther), fun _ => ⟨user, h⟩, (fun hOther => by cases hOther)⟩
  | applePay =>
    simp only [hMethod] at h
    cases h

/-- A payer who gives everything, and providers that take everything. -/
def willing (currencies : List String) : Outcome where
  user := some ⟨some "payer@farm", some "+254"⟩
  fraudBlock := false
  hasWallet := true
  currencies := currencies
  minimumAmount := 0
  estimatedAmount := 0
  answered := true

def dtoOf (method : PaymentMethod) (currency : String) (amount : ℚ) : DepositDto where
  amountFiat := amount
  currency := currency
  paymentMethod := some method
  phone := some "+254"
  email := some "payer@farm"
  crypto := none
  merchantQrCheckout := false

theorem initiateDeposit_willing {method : PaymentMethod} {currency : String}
    (hCurrency : ¬wrongCurrency text method currency) (hRate : divisor text r currency ≠ 0)
    (hFiat : method.isFiat = true) (currencies : List String) (a : ℚ) :
    initiateDeposit text (willing currencies) r (dtoOf method currency a) =
      some (.of a (text.toUpperCase currency) (a / divisor text r currency)) := by
  unfold wrongCurrency at hCurrency
  unfold divisor at hRate
  cases method with
  | card | bankTransfer => simp_all [initiateDeposit, willing, dtoOf, divisor]
  | mobileMoney => simp_all [initiateDeposit, willing, dtoOf, divisor, truthy]
  | crypto | applePay => cases hFiat

theorem divisor_eq_zero_iff {currency : String} (hRates : Consistent r) :
    divisor text r currency = 0 ↔ r.cached (text.toUpperCase currency) = some 0 := by
  unfold divisor
  cases hCached : r.cached (text.toUpperCase currency) with
  | some x => rw [Rates.getExchangeRate_cached hCached, Option.some.injEq]
  | none =>
    have hPos : 0 < (r.getExchangeRate (text.toUpperCase currency) "FARM").1 := by
      rcases Rates.getExchangeRate_uncached hCached with hFallback | hRow
      · rw [hFallback]
        exact one_pos
      · exact hRates.pos hRow
    simp [hPos.ne']

theorem initiateDeposit_worth_iff {method : PaymentMethod} {currency : String}
    (hRates : Consistent r) (hFiat : method.isFiat = true) :
    Path.Worth text r (.initiateDeposit method currency) ↔
      wrongCurrency text method currency ∨ r.cached (text.toUpperCase currency) = some 0 ∨
        r.inverted (text.toUpperCase currency) := by
  rw [← divisor_eq_zero_iff hRates, Rates.inverted_iff hRates]
  constructor
  · intro hWorth
    by_cases hCurrency : wrongCurrency text method currency
    · exact .inl hCurrency
    by_cases hRate : divisor text r currency = 0
    · exact .inr (.inl hRate)
    refine .inr (.inr ⟨1 / divisor text r currency, ?_, mul_one_div_cancel hRate⟩)
    refine gives_of_worth hRates one_pos fun a hLe => ?_
    rw [mul_one_div]
    exact hWorth (willing []) (.initiateDeposit (dtoOf method currency a)) rfl
      (one_pos.trans_le hLe) _ (initiateDeposit_willing hCurrency hRate hFiat [] a)
  · intro hFits o request hPath _ d hDeposit
    cases request with
    | initiateDeposit dto =>
      simp only [Request.path, Path.initiateDeposit.injEq] at hPath
      obtain ⟨rfl, rfl⟩ := hPath
      obtain ⟨hCurrency, hRate, hDeposited, -, -⟩ := of_initiateDeposit hDeposit
      rcases hFits with hWrong | hZero | ⟨rate, hGives, hInverse⟩
      · exact absurd hWrong hCurrency
      · exact absurd hZero hRate
      · rw [hDeposited hFiat]
        refine ⟨rate, hGives, worthAt_of ?_⟩
        have hSame : dto.amountFiat / divisor text r dto.currency = dto.amountFiat * rate := by
          rw [div_eq_iff hRate, mul_assoc, mul_comm rate]
          exact (mul_one _).symm.trans (congrArg _ hInverse.symm)
        rw [hSame, sub_self, abs_zero]
        positivity
    | createDeposit dto => cases hPath
    | createNowpaymentsCryptoDeposit dto => cases hPath

/-! ### Crypto by `initiateDeposit` -/

theorem of_createInvoice {user : User} {amountFarm : ℚ}
    (h : createInvoice text o r dto user amountFarm = some d) :
    0 < r.getCurrentRate.farmUsdRate ∧ 0 < toFixed 2 (amountFarm * r.getCurrentRate.farmUsdRate) ∧
      d = { Deposited.of (toFixed 2 (amountFarm * r.getCurrentRate.farmUsdRate)) "USD" amountFarm with
        invoiced := true } := by
  simp only [createInvoice, Option.ite_none_right_eq_some, Option.some.injEq] at h
  obtain ⟨⟨-, -, hRate, hUsd, -⟩, rfl⟩ := h
  exact ⟨hRate, hUsd, rfl⟩

theorem toFixed_mono {digits : ℕ} {x y : ℚ} (h : x ≤ y) : toFixed digits x ≤ toFixed digits y :=
  value_le_value.mpr (column_mono h)

theorem toFixed_zero (digits : ℕ) : toFixed digits 0 = 0 := by
  simpa using toFixed_value digits 0

/-- A cent of the invoice, and a rate that is within a unit of the right one. -/
theorem invoice_worthAt {amountFarm rate farmUsdRate : ℚ} (hAmount : 0 < amountFarm)
    (hRate : 0 < rate) (hClose : |1 / rate - farmUsdRate| ≤ 1 / 10 ^ 8) :
    ({ Deposited.of (toFixed 2 (amountFarm * farmUsdRate)) "USD" amountFarm with
      invoiced := true } : Deposited).WorthAt rate := by
  have hCent := abs_toFixed_sub 2 (amountFarm * farmUsdRate)
  have hRow := abs_toNumber_sub amountFarm
  have hSplit : amountFarm - toFixed 2 (amountFarm * farmUsdRate) * rate =
      amountFarm * rate * (1 / rate - farmUsdRate) -
        rate * (toFixed 2 (amountFarm * farmUsdRate) - amountFarm * farmUsdRate) := by
    field_simp
    ring
  have hDeposit : |amountFarm - toFixed 2 (amountFarm * farmUsdRate) * rate| ≤
      amountFarm * rate * (1 / 10 ^ 8) + rate * (1 / 2 / 10 ^ 2) := by
    rw [hSplit]
    refine (abs_sub _ _).trans (add_le_add ?_ ?_)
    · rw [abs_mul, abs_of_pos (mul_pos hAmount hRate)]
      exact mul_le_mul_of_nonneg_left hClose (mul_pos hAmount hRate).le
    · rw [abs_mul, abs_of_pos hRate]
      exact mul_le_mul_of_nonneg_left hCent hRate.le
  have hTolerance : amountFarm * rate * (1 / 10 ^ 8) + rate * (1 / 2 / 10 ^ 2) + 1 / 2 / 10 ^ 8 ≤
      1 / 10 ^ 8 + rate * (1 / 10 ^ 2 + amountFarm / 10 ^ 8) := by
    ring_nf
    linarith
  refine ⟨?_, ?_⟩
  · refine hDeposit.trans (le_trans ?_ hTolerance)
    norm_num
  · refine (abs_sub_le _ amountFarm _).trans (le_trans ?_ hTolerance)
    rw [add_comm]
    exact add_le_add hDeposit hRow

/-- Invoices that are all worth a rate are made at one that is within a unit of it. -/
theorem close_of_invoices {rate farmUsdRate low : ℚ} (hRate : 0 < rate)
    (h : ∀ amountFarm, low ≤ amountFarm →
      ({ Deposited.of (toFixed 2 (amountFarm * farmUsdRate)) "USD" amountFarm with
        invoiced := true } : Deposited).WorthAt rate) :
    |1 / rate - farmUsdRate| ≤ 1 / 10 ^ 8 := by
  have hBound : |1 - farmUsdRate * rate| ≤ rate / 10 ^ 8 := by
    refine le_of_growth (1 / 10 ^ 8 + rate * (1 / 10 ^ 2 + 1 / 2 / 10 ^ 2)) (max low 0)
      fun a hLe => ?_
    have hNonneg : 0 ≤ a := (le_max_right _ _).trans hLe
    have hWorth := (h a ((le_max_left _ _).trans hLe)).deposit
    have hCent := abs_toFixed_sub 2 (a * farmUsdRate)
    simp only [Deposited.of, Deposited.tolerance, if_true] at hWorth
    calc a * |1 - farmUsdRate * rate| = |a * (1 - farmUsdRate * rate)| := by
          rw [abs_mul, abs_of_nonneg hNonneg]
      _ = |(a - toFixed 2 (a * farmUsdRate) * rate) +
            rate * (toFixed 2 (a * farmUsdRate) - a * farmUsdRate)| := by
          congr 1
          ring
      _ ≤ |a - toFixed 2 (a * farmUsdRate) * rate| +
            rate * |toFixed 2 (a * farmUsdRate) - a * farmUsdRate| := by
          refine (abs_add_le _ _).trans_eq ?_
          rw [abs_mul rate, abs_of_pos hRate]
      _ ≤ (1 / 10 ^ 8 + rate * (1 / 10 ^ 2 + a / 10 ^ 8)) + rate * (1 / 2 / 10 ^ 2) :=
          add_le_add hWorth (mul_le_mul_of_nonneg_left hCent hRate.le)
      _ = 1 / 10 ^ 8 + rate * (1 / 10 ^ 2 + 1 / 2 / 10 ^ 2) + a * (rate / 10 ^ 8) := by ring
  have hScaled : |1 / rate - farmUsdRate| * rate = |1 - farmUsdRate * rate| := by
    rw [← abs_of_pos hRate, ← abs_mul, abs_of_pos hRate, sub_mul, div_mul_cancel₀ _ hRate.ne']
  rw [← hScaled, div_eq_mul_one_div rate, mul_comm rate] at hBound
  exact le_of_mul_le_mul_right hBound hRate

theorem isCurrencyCode_btc : Nowpayments.isCurrencyCode "btc" = true := by decide

theorem initiateDeposit_willing_crypto {currency : String} {amountFarm : ℚ}
    (hRate : divisor text r currency ≠ 0) (hUsd : 0 < r.getCurrentRate.farmUsdRate)
    (hCents : 0 < toFixed 2 (amountFarm * r.getCurrentRate.farmUsdRate)) :
    initiateDeposit text (willing [text.toLowerCase (trim "usdttrc20")]) r
        (dtoOf .crypto currency (amountFarm * divisor text r currency)) =
      some { Deposited.of (toFixed 2 (amountFarm * r.getCurrentRate.farmUsdRate)) "USD" amountFarm with
        invoiced := true } := by
  have hSame : amountFarm * divisor text r currency / divisor text r currency = amountFarm :=
    mul_div_cancel_right₀ _ hRate
  have hEmail : trim "payer@farm" = "payer@farm" := by decide
  unfold divisor at hRate hSame
  simp [initiateDeposit, createInvoice, willing, dtoOf, divisor, hSame, hRate, hEmail, hUsd, hCents,
    truthy]

theorem farmUsdRate_of_active {row : CurrencyRate} (h : r.activeRate = some row) :
    r.getCurrentRate.farmUsdRate = toFixed 8 (row.farmKesRate / row.usdKesRate) := by
  simp [Rates.getCurrentRate, h]

theorem farmUsdRate_of_none (h : r.activeRate = none) :
    r.getCurrentRate.farmUsdRate = toFixed 8 (1 / 150) := by
  simp [Rates.getCurrentRate, h]

theorem toFixed_pos {digits : ℕ} {x : ℚ} (h : 1 / 2 / 10 ^ digits < x) : 0 < toFixed digits x := by
  have hNear := abs_le.mp (abs_toFixed_sub digits x)
  linarith [hNear.1]

theorem pos_of_toFixed_pos {digits : ℕ} {x : ℚ} (h : 0 < toFixed digits x) : 0 < x := by
  by_contra hNonpos
  have hLe : toFixed digits x ≤ toFixed digits 0 := toFixed_mono (not_lt.mp hNonpos)
  rw [toFixed_zero] at hLe
  exact absurd h (not_lt.mpr hLe)

/-- No amount is invoiced at a cached rate that is not positive; any other rate is positive. -/
theorem divisor_pos_iff {currency : String} (hRates : Consistent r) :
    0 < divisor text r currency ↔ ¬∃ rate ≤ 0, r.cached (text.toUpperCase currency) = some rate := by
  unfold divisor
  cases hCached : r.cached (text.toUpperCase currency) with
  | some x => simp [Rates.getExchangeRate_cached hCached]
  | none =>
    refine iff_of_true ?_ (by simp)
    rcases Rates.getExchangeRate_uncached hCached with hFallback | hRow
    · rw [hFallback]
      exact one_pos
    · exact hRates.pos hRow

theorem initiateDeposit_crypto_worth_iff {currency : String} (hRates : Consistent r) :
    Path.Worth text r (.initiateDeposit .crypto currency) ↔
      (∃ rate ≤ 0, r.cached (text.toUpperCase currency) = some rate) ∨ r.activeRate ≠ none ∨
        ∃ rate, Gives r "USD" rate ∧ |1 / rate - toFixed 8 (1 / 150)| ≤ 1 / 10 ^ 8 := by
  constructor
  · intro hWorth
    by_cases hCached : ∃ rate ≤ 0, r.cached (text.toUpperCase currency) = some rate
    · exact .inl hCached
    by_cases hActive : r.activeRate = none
    · have hPos : 0 < divisor text r currency := (divisor_pos_iff hRates).mpr hCached
      have hUsd := farmUsdRate_of_none hActive
      have hUsdPos : 0 < toFixed 8 (1 / 150) := toFixed_pos (by norm_num)
      -- 150 FARM are enough for an invoice of some cents.
      have hInvoiced : ∀ amountFarm : ℚ, 150 ≤ amountFarm →
          ({ Deposited.of (toFixed 2 (amountFarm * toFixed 8 (1 / 150))) "USD" amountFarm with
            invoiced := true } : Deposited).Worth r := by
        intro amountFarm hLe
        have hCents : 0 < toFixed 2 (amountFarm * toFixed 8 (1 / 150)) := by
          have hDollar : 0 < toFixed 2 (150 * toFixed 8 (1 / 150)) := by
            have hNear := (abs_le.mp (abs_toFixed_sub 8 (1 / 150))).1
            exact toFixed_pos (by norm_num at hNear ⊢; linarith)
          exact hDollar.trans_le (toFixed_mono (mul_le_mul_of_nonneg_right hLe hUsdPos.le))
        rw [← hUsd] at hCents hUsdPos ⊢
        refine hWorth _ (.initiateDeposit (dtoOf .crypto currency _)) rfl ?_ _
          (initiateDeposit_willing_crypto hPos.ne' hUsdPos hCents)
        exact mul_pos ((by norm_num : (0 : ℚ) < 150).trans_le hLe) hPos
      obtain ⟨rate, hGives, -⟩ := hInvoiced 150 le_rfl
      have hCloser : ∀ amountFarm : ℚ, 150 ≤ amountFarm →
          ({ Deposited.of (toFixed 2 (amountFarm * toFixed 8 (1 / 150))) "USD" amountFarm with
            invoiced := true } : Deposited).WorthAt rate := by
        intro amountFarm hLe
        obtain ⟨rate', hGives', hAt⟩ := hInvoiced amountFarm hLe
        rw [← hRates.unique hGives hGives']
        exact hAt
      exact .inr (.inr ⟨rate, hGives, close_of_invoices (hRates.pos hGives) hCloser⟩)
    · exact .inr (.inl hActive)
  · intro hFits o request hPath hAmount d hDeposit
    cases request with
    | initiateDeposit dto =>
      simp only [Request.path, Path.initiateDeposit.injEq] at hPath
      obtain ⟨hMethod, rfl⟩ := hPath
      obtain ⟨-, -, -, hInvoice, -⟩ := of_initiateDeposit hDeposit
      obtain ⟨user, hCreated⟩ := hInvoice hMethod
      obtain ⟨hUsd, hCents, rfl⟩ := of_createInvoice hCreated
      have hFarm := (pos_iff_pos_of_mul_pos (pos_of_toFixed_pos hCents)).mpr hUsd
      have hPos : 0 < divisor text r dto.currency := by
        by_contra hNonpos
        exact absurd (div_nonpos_of_nonneg_of_nonpos hAmount.le (not_lt.mp hNonpos))
          (not_le.mpr hFarm)
      have hClose : ∃ rate, Gives r "USD" rate ∧
          |1 / rate - r.getCurrentRate.farmUsdRate| ≤ 1 / 10 ^ 8 := by
        cases hActive : r.activeRate with
        | some row =>
          refine ⟨row.usdKesRate / row.farmKesRate, .usd hActive, ?_⟩
          rw [farmUsdRate_of_active hActive, one_div_div, abs_sub_comm]
          exact (abs_toFixed_sub 8 _).trans (by norm_num)
        | none =>
          rw [farmUsdRate_of_none hActive]
          rcases hFits with hCached | hSome | hNear
          · exact absurd hCached ((divisor_pos_iff hRates).mp hPos)
          · exact absurd hActive hSome
          · exact hNear
      obtain ⟨rate, hGives, hNear⟩ := hClose
      exact ⟨rate, hGives, invoice_worthAt hFarm (hRates.pos hGives) hNear⟩
    | createDeposit dto => cases hPath
    | createNowpaymentsCryptoDeposit dto => cases hPath

end Initiate

/-! ### `createDeposit` and `createNowpaymentsCryptoDeposit` -/

section Others
variable {text : Text} {r : Rates}

/-- A bank transfer in another currency than KES is refused here as well. -/
def notKes (text : Text) (method : PaymentMethod) (currency : Option String) : Prop :=
  method = .bankTransfer ∧ text.toUpperCase (currencyOrKes currency) ≠ "KES"

theorem of_createDeposit {o : Outcome} {dto : CreateDepositDto} {d : Deposited}
    (h : createDeposit text o dto = some d) :
    (dto.paymentMethod.getD .card).isFiat = true ∧
      ¬notKes text (dto.paymentMethod.getD .card) dto.currency ∧
      d = .of dto.amountFiat "KES" dto.amountFiat := by
  simp only [createDeposit, Option.ite_none_left_eq_some, not_or, Option.some.injEq] at h
  obtain ⟨⟨hCrypto, hApple, -, hCurrency, -, -⟩, rfl⟩ := h
  refine ⟨?_, hCurrency, rfl⟩
  cases hMethod : dto.paymentMethod.getD .card with
  | card | mobileMoney | bankTransfer => rfl
  | crypto => exact absurd hMethod hCrypto
  | applePay => exact absurd hMethod hApple

theorem createDeposit_willing {method : PaymentMethod} {currency : Option String} {a : ℚ}
    (hFiat : method.isFiat = true) (hCurrency : ¬notKes text method currency) (hAmount : 10 ≤ a) :
    createDeposit text (willing []) ⟨a, currency, some method, some "+254"⟩ =
      some (.of a "KES" a) := by
  unfold notKes at hCurrency
  cases method with
  | card | bankTransfer => simp_all [createDeposit, willing]
  | mobileMoney => simp_all [createDeposit, willing, truthy]
  | crypto | applePay => cases hFiat

/-- An amount that stands for itself is worth a rate of 1. -/
theorem worth_of_gives_one (a : ℚ) (h : Gives r "KES" 1) : (Deposited.of a "KES" a).Worth r := by
  refine ⟨1, h, worthAt_of ?_⟩
  rw [mul_one, sub_self, abs_zero]
  positivity

theorem createDeposit_worth_iff {method : PaymentMethod} {currency : Option String}
    (hRates : Consistent r) (hFiat : method.isFiat = true) :
    Path.Worth text r (.createDeposit method currency) ↔
      notKes text method currency ∨ Gives r "KES" 1 := by
  constructor
  · intro hWorth
    by_cases hCurrency : notKes text method currency
    · exact .inl hCurrency
    refine .inr (gives_of_worth hRates (by norm_num : (0 : ℚ) < 10) fun a hLe => ?_)
    rw [mul_one]
    exact hWorth (willing []) (.createDeposit ⟨a, currency, some method, some "+254"⟩) rfl
      (lt_of_lt_of_le (by norm_num) hLe) _ (createDeposit_willing hFiat hCurrency hLe)
  · intro hFits o request hPath _ d hDeposit
    cases request with
    | createDeposit dto =>
      simp only [Request.path, Path.createDeposit.injEq] at hPath
      obtain ⟨rfl, rfl⟩ := hPath
      obtain ⟨-, hCurrency, rfl⟩ := of_createDeposit hDeposit
      rcases hFits with hWrong | hOne
      · exact absurd hWrong hCurrency
      · exact worth_of_gives_one _ hOne
    | initiateDeposit dto => cases hPath
    | createNowpaymentsCryptoDeposit dto => cases hPath

theorem usdToFarm_of_active {row : CurrencyRate} (h : r.activeRate = some row) (a : ℚ) :
    r.usdToFarm a = toFixed 8 (a * (row.usdKesRate / row.farmKesRate)) := by
  simp [Rates.usdToFarm, Rates.getCurrentRate, h, mul_div_assoc]

theorem usdToFarm_of_none (h : r.activeRate = none) (a : ℚ) :
    r.usdToFarm a = toFixed 8 (a * 150) := by
  simp [Rates.usdToFarm, Rates.getCurrentRate, h]

theorem worth_of_toFixed {a rate : ℚ} (h : Gives r "USD" rate) :
    (Deposited.of a "USD" (toFixed 8 (a * rate))).Worth r :=
  ⟨rate, h, worthAt_of (abs_toFixed_sub 8 _)⟩

theorem createNowpaymentsCryptoDeposit_worth_iff (hRates : Consistent r) :
    Path.Worth text r .createNowpaymentsCryptoDeposit ↔
      r.activeRate ≠ none ∨ Gives r "USD" 150 := by
  constructor
  · intro hWorth
    by_cases hActive : r.activeRate = none
    · refine .inr ?_
      have hDeposits : ∀ a : ℚ, 2 ≤ a → (Deposited.of a "USD" (toFixed 8 (a * 150))).Worth r := by
        intro a hLe
        have hFarm : 0 < toFixed 8 (a * 150) := by
          have hTwo : 0 < toFixed 8 (2 * 150) := toFixed_pos (by norm_num)
          exact hTwo.trans_le (toFixed_mono (mul_le_mul_of_nonneg_right hLe (by norm_num)))
        refine hWorth (willing ["btc"]) (.createNowpaymentsCryptoDeposit ⟨a, "usd", "btc"⟩) rfl
          (two_pos.trans_le hLe) _ ?_
        have hAllowed : Nowpayments.DepositDto.allowed ⟨a, "usd", "btc"⟩ :=
          ⟨hLe, rfl, isCurrencyCode_btc⟩
        simp [deposit, createNowpaymentsCryptoDeposit, usdToFarm_of_none hActive, willing, hAllowed,
          hFarm]
      obtain ⟨rate, hGives, -⟩ := hDeposits 2 le_rfl
      have hSame : 150 = rate := by
        refine eq_of_growth (1 / 10 ^ 8 + 1 / 2 / 10 ^ 8) 2 two_pos fun a hLe => ?_
        obtain ⟨rate', hGives', hAt⟩ := hDeposits a hLe
        rw [← hRates.unique hGives hGives']
        have hFixed := abs_toFixed_sub 8 (a * 150)
        rw [abs_sub_comm] at hFixed
        refine (abs_sub_le _ (toFixed 8 (a * 150)) _).trans ?_
        rw [add_comm]
        exact add_le_add hAt.deposit hFixed
      rwa [hSame]
    · exact .inl hActive
  · intro hFits o request hPath _ d hDeposit
    cases request with
    | createNowpaymentsCryptoDeposit dto =>
      simp only [deposit, createNowpaymentsCryptoDeposit, Option.ite_none_right_eq_some,
        Option.some.injEq] at hDeposit
      obtain ⟨-, rfl⟩ := hDeposit
      cases hActive : r.activeRate with
      | some row =>
        rw [usdToFarm_of_active hActive]
        exact worth_of_toFixed (.usd hActive)
      | none =>
        rw [usdToFarm_of_none hActive]
        rcases hFits with hSome | hGives
        · exact absurd hActive hSome
        · exact worth_of_toFixed hGives
    | initiateDeposit dto => cases hPath
    | createDeposit dto => cases hPath

/-- What a service refuses, it does not record. -/
theorem worth_of_refused {path : Path}
    (h : ∀ o request d, request.path = path → deposit text o r request ≠ some d) :
    path.Worth text r :=
  fun o request hPath _ d hDeposit => absurd hDeposit (h o request d hPath)

theorem initiateDeposit_applePay (currency : String) :
    Path.Worth text r (.initiateDeposit .applePay currency) := by
  refine worth_of_refused fun o request d hPath hDeposit => ?_
  cases request with
  | initiateDeposit dto =>
    simp only [Request.path, Path.initiateDeposit.injEq] at hPath
    obtain ⟨-, -, -, -, hMethod⟩ := of_initiateDeposit hDeposit
    exact hMethod hPath.1
  | createDeposit dto => cases hPath
  | createNowpaymentsCryptoDeposit dto => cases hPath

theorem createDeposit_refused {method : PaymentMethod} (hFiat : method.isFiat = false)
    (currency : Option String) : Path.Worth text r (.createDeposit method currency) := by
  refine worth_of_refused fun o request d hPath hDeposit => ?_
  cases request with
  | createDeposit dto =>
    simp only [Request.path, Path.createDeposit.injEq] at hPath
    obtain ⟨hTaken, -, -⟩ := of_createDeposit hDeposit
    rw [hPath.1, hFiat] at hTaken
    cases hTaken
  | initiateDeposit dto => cases hPath
  | createNowpaymentsCryptoDeposit dto => cases hPath

/-- On consistent tables a path is worth its rate exactly when it fits them. -/
theorem deposit_worth_iff (hRates : Consistent r) (path : Path) :
    path.Worth text r ↔ path.Fits text r := by
  cases path with
  | initiateDeposit method currency =>
    cases method with
    | card | mobileMoney | bankTransfer =>
      rw [initiateDeposit_worth_iff hRates rfl]
      simp [wrongCurrency, Path.Fits]
    | crypto => exact initiateDeposit_crypto_worth_iff hRates
    | applePay => exact iff_of_true (initiateDeposit_applePay currency) trivial
  | createDeposit method currency =>
    cases method with
    | card | mobileMoney | bankTransfer =>
      rw [createDeposit_worth_iff hRates rfl]
      simp [notKes, Path.Fits]
    | crypto | applePay => exact iff_of_true (createDeposit_refused rfl currency) trivial
  | createNowpaymentsCryptoDeposit => exact createNowpaymentsCryptoDeposit_worth_iff hRates

end Others

/-! ### 130 FARM for a dollar, and no row at all -/

def ascii : Text := ⟨String.toUpper, String.toLower⟩

/-- A dollar is 130 FARM both ways, and a FARM is 2 shillings. -/
def dollarAt130 : Rates where
  exchangeRates := [⟨some "USD", some "FARM", some 130⟩]
  currencyRates := [⟨260, 2, true⟩]
  cache := fun _ _ => none

def noRows : Rates := ⟨[], [], fun _ _ => none⟩

/-- Tables whose rates are those of a function are consistent. -/
theorem consistent_of_function {r : Rates} (rateOf : String → ℚ)
    (h : ∀ code rate, Gives r code rate → 0 < rate ∧ rate = rateOf code) : Consistent r :=
  fun code rate hGives =>
    ⟨(h code rate hGives).1, fun rate' hGives' => (h code rate' hGives').2.trans (h code rate hGives).2.symm⟩

def rateAt130 (code : String) : ℚ :=
  if code = "USD" then 130 else if code = "KES" then 1 / 2 else 1

theorem rateAt130_kes : rateAt130 "KES" = 1 / 2 := by simp [rateAt130]

theorem rateAt130_usd : rateAt130 "USD" = 130 := if_pos rfl

theorem gives_dollarAt130 (code : String) (rate : ℚ) (h : Gives dollarAt130 code rate) :
    0 < rate ∧ rate = rateAt130 code := by
  cases h with
  | farm => exact ⟨one_pos, by simp [rateAt130]⟩
  | direct hRow =>
    simp only [Rates.findFirst, dollarAt130, List.find?_singleton, Bool.and_eq_true, beq_iff_eq,
      Option.some.injEq, Option.ite_none_right_eq_some] at hRow
    obtain ⟨⟨rfl, -⟩, rfl⟩ := hRow
    exact ⟨by norm_num [ExchangeRate.number], by simp [rateAt130_usd, ExchangeRate.number]⟩
  | reverse hRow hRate =>
    simp [Rates.findFirst, dollarAt130] at hRow
  | kes hRow | usd hRow =>
    cases hRow
    norm_num [rateAt130_kes, rateAt130_usd]

theorem consistent_dollarAt130 : Consistent dollarAt130 :=
  consistent_of_function rateAt130 gives_dollarAt130

theorem gives_noRows {code : String} {rate : ℚ} (h : Gives noRows code rate) :
    code = "FARM" ∧ rate = 1 := by
  cases h with
  | farm => exact ⟨rfl, rfl⟩
  | direct hRow => cases hRow
  | reverse hRow hRate => cases hRow
  | kes hRow => cases hRow
  | usd hRow => cases hRow

theorem consistent_noRows : Consistent noRows := by
  intro code rate hGives
  obtain ⟨rfl, rfl⟩ := gives_noRows hGives
  exact ⟨one_pos, fun rate' hGives' => (gives_noRows hGives').2⟩

-- A euro has no rate there, so it counts as one FARM.
example : divisor ascii noRows "EUR" = 1 := by decide +kernel

/-- 100 dollars bring 10/13 FARM, and 100 shillings bring 100 FARM; without rows 100 euros bring 100
FARM, and 2 dollars in bitcoin bring 300. -/
theorem deposit_not_worth :
    (Consistent dollarAt130 ∧
      (∃ d, initiateDeposit ascii (willing []) dollarAt130 (dtoOf .card "USD" 100) = some d ∧
        d.charged = 100 ∧ d.currency = "USD" ∧ d.depositAmount = 10 / 13 ∧ ¬d.Worth dollarAt130) ∧
      ∃ d, createDeposit ascii (willing []) ⟨100, none, some .card, some "+254"⟩ = some d ∧
        d.depositAmount = 100 ∧ ¬d.Worth dollarAt130) ∧
    Consistent noRows ∧
      (∃ d, initiateDeposit ascii (willing []) noRows (dtoOf .card "EUR" 100) = some d ∧
        d.depositAmount = 100 ∧ ¬d.Worth noRows) ∧
      ∃ d, createNowpaymentsCryptoDeposit (willing ["btc"]) noRows ⟨2, "usd", "btc"⟩ = some d ∧
        d.depositAmount = 300 ∧ ¬d.Worth noRows := by
  have hDollar : initiateDeposit ascii (willing []) dollarAt130 (dtoOf .card "USD" 100) =
      some (.of 100 "USD" (10 / 13)) := by
    have hCode : ascii.toUpperCase "USD" = "USD" := by decide +kernel
    have hRate : divisor ascii dollarAt130 "USD" = 130 := by decide +kernel
    rw [initiateDeposit_willing (by simp [wrongCurrency]) (by rw [hRate]; norm_num) rfl, hCode, hRate]
    norm_num
  have hShilling : createDeposit ascii (willing []) ⟨100, none, some .card, some "+254"⟩ =
      some (.of 100 "KES" 100) :=
    createDeposit_willing rfl (by simp [notKes]) (by norm_num)
  have hEuro : initiateDeposit ascii (willing []) noRows (dtoOf .card "EUR" 100) =
      some (.of 100 "EUR" 100) := by
    have hCode : ascii.toUpperCase "EUR" = "EUR" := by decide +kernel
    have hRate : divisor ascii noRows "EUR" = 1 := by decide +kernel
    rw [initiateDeposit_willing (by simp [wrongCurrency]) (by rw [hRate]; norm_num) rfl, hCode, hRate]
    norm_num
  have hCoin : createNowpaymentsCryptoDeposit (willing ["btc"]) noRows ⟨2, "usd", "btc"⟩ =
      some (.of 2 "USD" 300) := by
    have hFarm : noRows.usdToFarm 2 = 300 := by decide +kernel
    have hAllowed : Nowpayments.DepositDto.allowed ⟨2, "usd", "btc"⟩ := by decide +kernel
    simp [createNowpaymentsCryptoDeposit, hFarm, willing, hAllowed]
  refine ⟨⟨consistent_dollarAt130, ⟨_, hDollar, rfl, rfl, rfl, ?_⟩,
    ⟨_, hShilling, rfl, ?_⟩⟩, consistent_noRows, ⟨_, hEuro, rfl, ?_⟩, ⟨_, hCoin, rfl, ?_⟩⟩
  · rintro ⟨rate, hGives, hAt, -⟩
    obtain ⟨-, rfl⟩ := gives_dollarAt130 _ _ hGives
    norm_num [Deposited.of, Deposited.tolerance, rateAt130_kes, rateAt130_usd] at hAt
  · rintro ⟨rate, hGives, hAt, -⟩
    obtain ⟨-, rfl⟩ := gives_dollarAt130 _ _ hGives
    norm_num [Deposited.of, Deposited.tolerance, rateAt130_kes, rateAt130_usd] at hAt
  · rintro ⟨rate, hGives, -⟩
    simpa [Deposited.of] using gives_noRows hGives
  · rintro ⟨rate, hGives, -⟩
    simpa [Deposited.of] using gives_noRows hGives

/-- A shilling is a FARM: the paths that take one for the other are right. -/
def atPar : Rates := ⟨[], [⟨150, 1, true⟩], fun _ _ => none⟩

theorem consistent_atPar : Consistent atPar := by
  refine consistent_of_function (fun code => if code = "USD" then 150 else 1) ?_
  intro code rate h
  cases h with
  | farm => simp
  | direct hRow => cases hRow
  | reverse hRow hRate => cases hRow
  | kes hRow =>
    cases hRow
    simp
  | usd hRow =>
    cases hRow
    norm_num

theorem deposit_worth_at_par :
    Path.Worth ascii atPar (.createDeposit .card none) ∧
      Path.Worth ascii atPar (.initiateDeposit .mobileMoney "KES") ∧
      Path.Worth ascii atPar .createNowpaymentsCryptoDeposit := by
  have hPar : Gives atPar "KES" 1 := by
    have hRow : atPar.activeRate = some ⟨150, 1, true⟩ := rfl
    simpa using Gives.kes hRow
  have hCode : ascii.toUpperCase "KES" = "KES" := by decide +kernel
  refine ⟨(deposit_worth_iff consistent_atPar _).mpr hPar,
    (deposit_worth_iff consistent_atPar _).mpr (.inr ?_),
    (deposit_worth_iff consistent_atPar _).mpr (.inl (Option.some_ne_none _))⟩
  rw [hCode]
  exact ⟨1, hPar, by simp [Rates.cached, atPar]⟩

end FarmBackend.ExchangeRates
