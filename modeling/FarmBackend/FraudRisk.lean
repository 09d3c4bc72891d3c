import FarmBackend.ExchangeRates
import FarmBackend.QrCodes
import Mathlib.Data.Int.ConditionallyCompleteOrder
import Mathlib.Order.WithBotTop

/-!
# Fraud checks on deposits (`payments/payments.service.ts`)

`assessFraudRisk` and the deposits that `initiateDeposit` accepts. A number is its exact value, an
infinity, or `NaN`.
-/

namespace FarmBackend.FraudRisk
open JsonText Wallets ExchangeRates
open QrCodes (isTruthy)

set_option autoImplicit false

/-! ## Numbers -/

/-- A number of JavaScript; `none` is `NaN`. -/
abbrev Number := Option (WithBot (WithTop ℚ))

def finite (x : ℚ) : Number := some ((x : WithTop ℚ) : WithBot (WithTop ℚ))

/-- `x < y`. -/
def less : Number → Number → Bool
  | some a, some b => decide (a < b)
  | _, _ => false

/-- `x <= y`. -/
def atMost : Number → Number → Bool
  | some a, some b => decide (a ≤ b)
  | _, _ => false

/-- What JavaScript makes of a JSON value. -/
structure Script where
  number : List Char → Option Numeral
  toNumber : Json → Number
  toText : Json → String

/-- The start of the day of a time, in the zone of the server. -/
structure Calendar where
  startOfDay : ℤ → ℤ
  le : ∀ t, startOfDay t ≤ t
  mono : Monotone startOfDay

/-! ## Settings -/

structure Setting where
  settingKey : Option String
  settingValue : Option String

/-- `Number(getSetting(key) ?? byDefault)`: a text that is no JSON ends as `Number` of it. -/
def getSetting (js : Script) (settings : List Setting) (key : String) (byDefault : ℚ) : Number :=
  match (settings.find? fun s => s.settingKey == some key).bind Setting.settingValue with
  | none => finite byDefault
  | some text =>
    match parse js.number text with
    | some .null => finite byDefault
    | some value => js.toNumber value
    | none => js.toNumber (.str text)

/-! ## The rule file -/

def listOf : Items → List Json
  | .nil => []
  | .cons head tail => head :: listOf tail

/-- `deviceRisk` is `none` too where it is missing. -/
structure Context where
  amountFiat : ℚ
  ip : String
  deviceRisk : Number
  country : Option String

structure Assessment where
  block : Bool
  challenge : Bool := false
  reason : Option Json := none
  bound : Option Number := none
  rule : Option Json := none

/-- `rule[key]` of a rule that is not `null`. -/
def property (key : String) : Json → Option Json
  | .obj fields => fields.get key
  | _ => none

def isNull : Json → Bool
  | .null => true
  | _ => false

section Rules
variable (js : Script) (ctx : Context)

/-- `rule.priority || 0`. -/
def priority (rule : Json) : Number :=
  match (property "priority" rule).filter isTruthy with
  | some value => js.toNumber value
  | none => finite 0

/-- The highest priority first. -/
def sortRules (rules : List Json) : List Json :=
  rules.mergeSort fun a b => !less (priority js a) (priority js b)

def amountFits (rule : Json) : Bool :=
  !(((property "min_amount" rule).filter isTruthy).any fun bound =>
      less (finite ctx.amountFiat) (js.toNumber bound)) &&
    !(((property "max_amount" rule).filter isTruthy).any fun bound =>
      less (js.toNumber bound) (finite ctx.amountFiat))

def countryFits (rule : Json) : Bool :=
  match property "countries" rule with
  | some (.arr items) =>
    (ctx.country.filter (· ≠ "")).any fun country => (listOf items).any fun item =>
      match item with
      | .str s => s == country
      | _ => false
  | _ => true

def ipFits (rule : Json) : Bool :=
  match property "ip_prefixes" rule with
  | some (.arr items) => ctx.ip == "" || (listOf items).any fun item =>
      (js.toText item).toList.isPrefixOf ctx.ip.toList
  | _ => true

def deviceFits (rule : Json) : Bool :=
  match (property "device_risk_threshold" rule).filter isTruthy with
  | some threshold => !less (some (ctx.deviceRisk.getD (0 : ℚ))) (js.toNumber threshold)
  | none => true

/-- What a rule that fits says, if it says anything. -/
def verdict (rule : Json) : Option Assessment :=
  let reason := (property "reason" rule).filter isTruthy <|> property "id" rule
  match property "action" rule with
  | some (.str action) =>
    if action = "block" then
      some { block := true, reason := reason, rule := property "id" rule }
    else if action = "challenge" then
      some { block := false, challenge := true, reason := reason, rule := property "id" rule }
    else none
  | _ => none

/-- A file that is no list of rules, or lists `null`, throws and no rule is followed. -/
def evaluateRules (file : Option String) : Option Assessment :=
  match file.bind (parse js.number) with
  | some (.arr items) =>
    if (listOf items).any isNull then none
    else (sortRules js (listOf items)).findSome? fun rule =>
      if amountFits js ctx rule && countryFits ctx rule && ipFits js ctx rule &&
        deviceFits js ctx rule then verdict rule else none
  | _ => none

end Rules

/-! ## The check -/

/-- A row of `transactions`; `deposit` is its type and `userId` is in its metadata. -/
structure Row where
  deposit : Bool
  userId : Option UserId
  createdAt : Option ℤ
  amount : ℤ
  nonneg : 0 ≤ amount

structure Service where
  js : Script
  settings : List Setting
  rules : Option String
  calendar : Calendar
  text : Text

def counted (userId : UserId) (since : ℤ) (row : Row) : Bool :=
  row.deposit && row.userId == some userId && row.createdAt.any (since ≤ ·)

def amounts (rows : List Row) : ℤ := (rows.map Row.amount).sum

namespace Service
variable (s : Service)

def amountThreshold : Number := getSetting s.js s.settings "fraud.amount_threshold" 5000

def velocityLimit : Number := getSetting s.js s.settings "fraud.velocity_limit" 5

def maxDailyAmount : Number := getSetting s.js s.settings "fraud.max_daily_amount" 20000

/-- The user's deposits of the last hour. -/
def recent (userId : UserId) (now : ℤ) (table : List Row) : ℕ :=
  (table.filter (counted userId (now - 1000 * 60 * 60))).length

def todaysSum (userId : UserId) (now : ℤ) (table : List Row) : ℤ :=
  amounts (table.filter (counted userId (s.calendar.startOfDay now)))

def amountExceeds (ctx : Context) : Bool := less s.amountThreshold (finite ctx.amountFiat)

def velocityReached (userId : UserId) (now : ℤ) (table : List Row) : Bool :=
  atMost s.velocityLimit (finite (recent userId now table))

def dailyExceeded (userId : UserId) (ctx : Context) (now : ℤ) (table : List Row) : Bool :=
  less s.maxDailyAmount (finite (toNumber (s.todaysSum userId now table) + ctx.amountFiat))

def assessFraudRisk (userId : UserId) (ctx : Context) (now : ℤ) (table : List Row) : Assessment :=
  if s.amountExceeds ctx then
    { block := true, reason := some (.str "amount_exceeds_threshold"),
      bound := some s.amountThreshold }
  else if s.velocityReached userId now table then
    { block := false, challenge := true, reason := some (.str "high_velocity"),
      bound := some s.velocityLimit }
  else if s.dailyExceeded userId ctx now table then
    { block := true, reason := some (.str "daily_limit_exceeded"), bound := some s.maxDailyAmount }
  else (evaluateRules s.js ctx s.rules).getD { block := false }

end Service

/-! ## Calls -/

theorem amount_initiateDeposit {text : Text} {o : Outcome} {r : Rates} {dto : DepositDto}
    {d : Deposited} (h : ExchangeRates.initiateDeposit text o r dto = some d) :
    o.fraudBlock = false ∧ d.transactionAmount =
      toUnits (dto.amountFiat / (r.getExchangeRate (text.toUpperCase dto.currency) "FARM").1) := by
  simp only [ExchangeRates.initiateDeposit, Option.ite_none_left_eq_some, Option.bind_eq_bind,
    Option.bind_eq_some_iff, not_or, Bool.not_eq_true] at h
  obtain ⟨-, user, -, ⟨hBlock, -⟩, h⟩ := h
  refine ⟨hBlock, ?_⟩
  cases hMethod : dto.paymentMethod.getD .card with
  | card | bankTransfer | mobileMoney =>
    simp only [hMethod, Option.ite_none_right_eq_some, Option.some.injEq] at h
    rw [← h.2]
    rfl
  | crypto =>
    simp only [hMethod, createInvoice, Option.ite_none_right_eq_some, Option.some.injEq] at h
    rw [← h.2]
    rfl
  | applePay =>
    simp only [hMethod] at h
    cases h

/-- A call of `initiateDeposit`, in a currency worth 1 FARM: its check comes `waited` after the call
before, and its row is created `took` after the check. -/
structure Call (text : Text) where
  waited : ℕ
  took : ℕ
  outcome : Outcome
  rates : Rates
  dto : DepositDto
  ip : String
  deviceRisk : Number
  country : Option String
  positive : 0 < dto.amountFiat
  worthOne : (rates.getExchangeRate (text.toUpperCase dto.currency) "FARM").1 = 1

def Call.context {text : Text} (call : Call text) : Context :=
  ⟨call.dto.amountFiat, call.ip, call.deviceRisk, call.country⟩

/-- The clock, the rows, and those of them that the calls have created. -/
structure State where
  now : ℤ
  table : List Row
  accepted : List Row

namespace Service
variable (s : Service) (userId : UserId)

def initiateDeposit (st : State) (call : Call s.text) : Option Deposited :=
  let fraud := s.assessFraudRisk userId call.context (st.now + call.waited) st.table
  ExchangeRates.initiateDeposit s.text { call.outcome with fraudBlock := fraud.block } call.rates
    call.dto

theorem amount_of_initiateDeposit {s : Service} {userId : UserId} {st : State} {call : Call s.text}
    {d : Deposited} (h : s.initiateDeposit userId st call = some d) :
    d.transactionAmount = toUnits call.dto.amountFiat := by
  have hAmount := (amount_initiateDeposit h).2
  rw [call.worthOne, div_one] at hAmount
  exact hAmount

theorem nonneg_of_initiateDeposit {s : Service} {userId : UserId} {st : State} {call : Call s.text}
    {d : Deposited} (h : s.initiateDeposit userId st call = some d) : 0 ≤ d.transactionAmount := by
  rw [amount_of_initiateDeposit h]
  exact Decimal.column_nonneg call.positive.le

/-- The row that an accepted call creates. -/
def accept (st : State) (call : Call s.text) : Option Row :=
  (s.initiateDeposit userId st call).attach.map fun d =>
    { deposit := true, userId := some userId, createdAt := some (st.now + call.waited + call.took),
      amount := d.1.transactionAmount, nonneg := nonneg_of_initiateDeposit d.2 }

def serve (st : State) (call : Call s.text) : State where
  now := st.now + call.waited + call.took
  table := (s.accept userId st call).toList ++ st.table
  accepted := (s.accept userId st call).toList ++ st.accepted

def serveAll (st : State) (calls : List (Call s.text)) : State := calls.foldl (s.serve userId) st

def onDay (day : ℤ) (row : Row) : Bool := row.createdAt.any fun t => s.calendar.startOfDay t == day

end Service

/-! ## The condition -/

namespace Service
variable (s : Service) (userId : UserId)

/-- The larger history has not reached the velocity limit, or what is reached there decides
nothing. -/
def Keeps (ctx : Context) (now : ℤ) (history further : List Row) : Prop :=
  s.amountExceeds ctx = true ∨ s.velocityReached userId now (history ++ further) = false ∨
    s.velocityReached userId now history = true ∨
    (s.dailyExceeded userId ctx now history = false ∧
      ((evaluateRules s.js ctx s.rules).any Assessment.block) = false)

/-- The velocity limit is not reached, or the call is refused before it is read. No more is written
than was asked for, or the daily amount has no more decimals than the column. -/
def Fits (st : State) (call : Call s.text) : Prop :=
  (s.amountExceeds call.context = true ∨
      s.velocityReached userId (st.now + call.waited) st.table = false) ∧
    (toNumber (toUnits call.dto.amountFiat) ≤ call.dto.amountFiat ∨
      ∀ x, s.maxDailyAmount = finite x → toNumber (toUnits x) = x)

def AllFit : State → List (Call s.text) → Prop
  | _, [] => True
  | st, call :: calls => s.Fits userId st call ∧ AllFit (s.serve userId st call) calls

/-- What is accepted on a day is at most the daily amount. -/
def Bounded (accepted : List Row) : Prop :=
  ∀ day, accepted.filter (s.onDay day) ≠ [] →
    atMost (finite (toNumber (amounts (accepted.filter (s.onDay day))))) s.maxDailyAmount = true

end Service

section Lemmas
variable {s : Service} {userId : UserId}

theorem block_assessFraudRisk (ctx : Context) (now : ℤ) (table : List Row) :
    (s.assessFraudRisk userId ctx now table).block = true ↔
      s.amountExceeds ctx = true ∨ s.velocityReached userId now table = false ∧
        (s.dailyExceeded userId ctx now table = true ∨
          ((evaluateRules s.js ctx s.rules).any Assessment.block) = true) := by
  unfold Service.assessFraudRisk
  cases s.amountExceeds ctx with
  | true => simp
  | false =>
    cases s.velocityReached userId now table with
    | true => simp
    | false =>
      cases s.dailyExceeded userId ctx now table with
      | true => simp
      | false => cases evaluateRules s.js ctx s.rules <;> simp

theorem less_mono {m : Number} {x y : ℚ} (h : x ≤ y) (hLess : less m (finite x) = true) :
    less m (finite y) = true := by
  cases m with
  | none => exact hLess
  | some m =>
    simp only [less, finite, decide_eq_true_eq] at hLess ⊢
    exact hLess.trans_le (WithBot.coe_le_coe.mpr (WithTop.coe_le_coe.mpr h))

/-- What is written of an amount that is not refused is within the bound. -/
theorem atMost_of_not_less {m : Number} {n k : ℤ} {a : ℚ} (hNumber : m ≠ none) (hn : 0 ≤ n)
    (ha : 0 ≤ a) (hk : k ≤ n) (hWritten : toNumber (toUnits a) ≤ a ∨
      ∀ x, m = finite x → toNumber (toUnits x) = x)
    (hLess : less m (finite (toNumber n + a)) = false) :
    atMost (finite (toNumber (toUnits a + k))) m = true := by
  have hMore : toNumber (toUnits a + k) ≤ toNumber (toUnits a + n) :=
    Decimal.value_le_value.mpr (by omega)
  cases m with
  | none => exact absurd rfl hNumber
  | some m =>
    have hLe := not_lt.mp (of_decide_eq_false hLess)
    apply decide_eq_true
    cases m using WithBot.recBotCoe with
    | bot => exact absurd hLe (WithBot.not_coe_le_bot _)
    | coe m =>
      cases m using WithTop.recTopCoe with
      | top => exact WithBot.coe_le_coe.mpr le_top
      | coe x =>
        have hSum : toNumber n + a ≤ x := WithTop.coe_le_coe.mp (WithBot.coe_le_coe.mp hLe)
        refine WithBot.coe_le_coe.mpr (WithTop.coe_le_coe.mpr (hMore.trans ?_))
        rcases hWritten with hLittle | hDecimals
        · rw [add_comm, toNumber, ← Decimal.value_add]
          exact (add_le_add_right hLittle (toNumber n)).trans hSum
        · have hMono : Decimal.column 8 _ ≤ Decimal.column 8 _ := Decimal.column_mono hSum
          rw [Decimal.column_value_add hn ha, add_comm] at hMono
          rw [← hDecimals x rfl]
          exact Decimal.value_le_value.mpr hMono

theorem amounts_nonneg (rows : List Row) : 0 ≤ amounts rows := by
  apply List.sum_nonneg
  intro a ha
  obtain ⟨row, -, rfl⟩ := List.mem_map.mp ha
  exact row.nonneg

theorem amounts_le_of_sublist {rows others : List Row} (h : rows.Sublist others) :
    amounts rows ≤ amounts others := by
  apply (h.map Row.amount).sum_le_sum
  intro a ha
  obtain ⟨row, -, rfl⟩ := List.mem_map.mp ha
  exact row.nonneg

theorem amounts_append (rows others : List Row) :
    amounts (rows ++ others) = amounts rows + amounts others := by
  rw [amounts, List.map_append, List.sum_append]
  rfl

/-- A longer history has no smaller sum. -/
theorem dailyExceeded_append {ctx : Context} {now : ℤ} {history : List Row} (further : List Row)
    (h : s.dailyExceeded userId ctx now history = true) :
    s.dailyExceeded userId ctx now (history ++ further) = true := by
  apply less_mono _ h
  have hSum : s.todaysSum userId now history ≤ s.todaysSum userId now (history ++ further) := by
    apply amounts_le_of_sublist
    exact (List.sublist_append_left history further).filter _
  have hNumber : toNumber _ ≤ toNumber _ := Decimal.value_le_value.mpr hSum
  linarith

/-- The second history blocks what the first does exactly when the limit does not hide it. -/
theorem blocked_mono_iff (ctx : Context) (now : ℤ) (history further : List Row) :
    ((s.assessFraudRisk userId ctx now history).block = true →
        (s.assessFraudRisk userId ctx now (history ++ further)).block = true) ↔
      s.Keeps userId ctx now history further := by
  rw [block_assessFraudRisk, block_assessFraudRisk, Service.Keeps]
  have hDaily : s.dailyExceeded userId ctx now history = true →
      s.dailyExceeded userId ctx now (history ++ further) = true := dailyExceeded_append further
  constructor
  · intro hMono
    by_cases hAmount : s.amountExceeds ctx = true
    · exact .inl hAmount
    by_cases hLarger : s.velocityReached userId now (history ++ further) = true
    · by_cases hSmaller : s.velocityReached userId now history = true
      · exact .inr (.inr (.inl hSmaller))
      -- the limit hides what the second history would be blocked by, so the first is not blocked
      · right; right; right
        rw [Bool.not_eq_true] at hSmaller
        by_contra hNot
        have hChecks : s.dailyExceeded userId ctx now history = true ∨
            ((evaluateRules s.js ctx s.rules).any Assessment.block) = true := by
          rw [not_and_or, Bool.not_eq_false, Bool.not_eq_false] at hNot
          exact hNot
        rcases hMono (.inr ⟨hSmaller, hChecks⟩) with hTrue | ⟨hFalse, -⟩
        · exact hAmount hTrue
        · rw [hLarger] at hFalse
          cases hFalse
    · exact .inr (.inl (Bool.not_eq_true _ ▸ hLarger))
  · rintro (hAmount | hLarger | hSmaller | ⟨hNoDaily, hNoRule⟩) (hBlocked | ⟨hFirst, hChecks⟩)
    · exact .inl hAmount
    · exact .inl hAmount
    · exact .inl hBlocked
    · rcases hChecks with hExceeded | hRule
      · exact .inr ⟨hLarger, .inl (hDaily hExceeded)⟩
      · exact .inr ⟨hLarger, .inr hRule⟩
    · exact .inl hBlocked
    · rw [hSmaller] at hFirst
      cases hFirst
    · exact .inl hBlocked
    · rw [hNoDaily, hNoRule] at hChecks
      rcases hChecks with hChecks | hChecks <;> cases hChecks

/-! ## The sum of a day -/

/-- What the state keeps of the rows that the calls have created. -/
structure Kept (s : Service) (userId : UserId) (st : State) : Prop where
  sub : st.accepted.Sublist st.table
  own : ∀ row ∈ st.accepted, row.deposit = true ∧ row.userId = some userId ∧
    ∃ t ≤ st.now, row.createdAt = some t
  bounded : s.Bounded st.accepted

theorem of_accept {st : State} {call : Call s.text} {row : Row}
    (h : s.accept userId st call = some row) :
    row.deposit = true ∧ row.userId = some userId ∧
      row.createdAt = some (st.now + call.waited + call.took) ∧
      row.amount = toUnits call.dto.amountFiat ∧
      (s.assessFraudRisk userId call.context (st.now + call.waited) st.table).block = false := by
  obtain ⟨⟨d, hDeposit⟩, -, rfl⟩ := Option.map_eq_some_iff.mp h
  exact ⟨rfl, rfl, rfl, Service.amount_of_initiateDeposit hDeposit,
    (amount_initiateDeposit hDeposit).1⟩

/-- The rows of a day are counted in a check of that day; in a check of the day before they are
none. -/
theorem amounts_le_todaysSum {st : State} (h : Kept s userId st) {checked created day : ℤ}
    (hChecked : st.now ≤ checked) (hCreated : checked ≤ created)
    (hDay : s.calendar.startOfDay created = day) :
    amounts (st.accepted.filter (s.onDay day)) ≤ s.todaysSum userId checked st.table := by
  by_cases hNone : st.accepted.filter (s.onDay day) = []
  · rw [hNone]
    exact amounts_nonneg _
  · obtain ⟨row, hRow⟩ := List.exists_mem_of_ne_nil _ hNone
    obtain ⟨hMem, hOn⟩ := List.mem_filter.mp hRow
    obtain ⟨-, -, t, hNow, hAt⟩ := h.own row hMem
    have hRowDay : s.calendar.startOfDay t = day := by
      simpa [Service.onDay, hAt] using hOn
    have hSame : s.calendar.startOfDay checked = day := by
      have hFrom := s.calendar.mono (hNow.trans hChecked)
      have hTo := s.calendar.mono hCreated
      omega
    have hCounted : ∀ r ∈ st.accepted, s.onDay day r = true → counted userId day r = true := by
      intro r hr hr'
      obtain ⟨hDeposit, hUser, u, -, hu⟩ := h.own r hr
      have hFrom := s.calendar.le u
      simp only [Service.onDay, hu, Option.any_some, beq_iff_eq] at hr'
      simp only [counted, hDeposit, hUser, hu, Option.any_some, beq_self_eq_true, Bool.and_self,
        Bool.true_and, decide_eq_true_eq]
      omega
    have hFilter : st.accepted.filter (s.onDay day) =
        (st.accepted.filter (counted userId day)).filter (s.onDay day) := by
      rw [List.filter_filter]
      apply List.filter_congr
      intro r hr
      cases hOnDay : s.onDay day r with
      | true => rw [hCounted r hr hOnDay]; rfl
      | false => rfl
    rw [hFilter, Service.todaysSum, hSame]
    apply amounts_le_of_sublist
    exact List.filter_sublist.trans (h.sub.filter _)

/-- One call keeps it, if it fits. -/
theorem kept_serve {st : State} {call : Call s.text} (h : Kept s userId st)
    (hNumber : s.maxDailyAmount ≠ none) (hFits : s.Fits userId st call) :
    Kept s userId (s.serve userId st call) := by
  have hLater : st.now ≤ st.now + call.waited + call.took := by omega
  cases hAccept : s.accept userId st call with
  | none =>
    simp only [Service.serve, hAccept, Option.toList_none, List.nil_append]
    refine ⟨h.sub, ?_, h.bounded⟩
    intro row hRow
    obtain ⟨hDeposit, hUser, t, ht, hAt⟩ := h.own row hRow
    exact ⟨hDeposit, hUser, t, ht.trans hLater, hAt⟩
  | some row =>
    obtain ⟨hDeposit, hUser, hAt, hAmount, hBlock⟩ := of_accept hAccept
    simp only [Service.serve, hAccept, Option.toList_some, List.singleton_append]
    refine ⟨h.sub.cons_cons row, ?_, ?_⟩
    · intro r hr
      rcases List.mem_cons.mp hr with rfl | hr
      · exact ⟨hDeposit, hUser, _, le_refl _, hAt⟩
      · obtain ⟨hDeposit, hUser, t, ht, hAt⟩ := h.own r hr
        exact ⟨hDeposit, hUser, t, ht.trans hLater, hAt⟩
    · intro day hSome
      cases hOn : s.onDay day row with
      | false =>
        rw [List.filter_cons_of_neg (by simp [hOn])] at hSome ⊢
        exact h.bounded day hSome
      | true =>
        have hDay : s.calendar.startOfDay (st.now + call.waited + call.took) = day := by
          simpa [Service.onDay, hAt] using hOn
        have hSum : _ ≤ s.todaysSum userId (st.now + call.waited) st.table :=
          amounts_le_todaysSum h (by omega) (by omega) hDay
        have hDaily :
            s.dailyExceeded userId call.context (st.now + call.waited) st.table = false := by
          rw [← Bool.not_eq_true, block_assessFraudRisk, not_or] at hBlock
          rcases hFits.1 with hAmountExceeds | hVelocity
          · exact absurd hAmountExceeds hBlock.1
          · rw [← Bool.not_eq_true]
            intro hExceeded
            exact hBlock.2 ⟨hVelocity, .inl hExceeded⟩
        rw [List.filter_cons_of_pos hOn]
        have hCons : amounts (row :: st.accepted.filter (s.onDay day)) =
            row.amount + amounts (st.accepted.filter (s.onDay day)) := by
          rw [amounts, List.map_cons, List.sum_cons]
          rfl
        rw [hCons, hAmount]
        exact atMost_of_not_less hNumber (amounts_nonneg _) call.positive.le hSum hFits.2 hDaily

/-- The whole run keeps it, if every call fits. -/
theorem kept_serveAll (hNumber : s.maxDailyAmount ≠ none) (calls : List (Call s.text)) :
    ∀ {st : State}, Kept s userId st → s.AllFit userId st calls →
      Kept s userId (s.serveAll userId st calls) := by
  induction calls with
  | nil =>
    intro st h _
    exact h
  | cons call calls ih =>
    intro st h hFit
    exact ih (kept_serve h hNumber hFit.1) hFit.2

end Lemmas

def defaults : Service where
  js := ⟨fun _ => none, fun _ => none, fun _ => ""⟩
  settings := []
  rules := none
  calendar :=
    { startOfDay := fun t => t / 86400000 * 86400000
      le := fun t => Int.ediv_mul_le t (by decide)
      mono := fun _ _ h => Int.mul_le_mul_of_nonneg_right (Int.ediv_le_ediv (by decide) h)
        (by decide) }
  text := ⟨id, id⟩

def depositOf (farm : ℕ) : Row where
  deposit := true
  userId := some 1
  createdAt := some 0
  amount := farm * 10 ^ 8
  nonneg := by positivity

def cardCall : Call defaults.text where
  waited := 1000
  took := 0
  outcome := ⟨some ⟨some "payer", none⟩, false, true, [], 0, 0, true⟩
  rates := ⟨[], [], fun _ _ => none⟩
  dto := ⟨4000, "FARM", none, none, none, none, false⟩
  ip := ""
  deviceRisk := none
  country := none
  positive := by norm_num
  worthOne := rfl

end FarmBackend.FraudRisk
