import FarmBackend.ExchangeRates
import FarmBackend.Ticket

/-!
# The active USD/KES rate (`currency/currency-conversion.service.ts`)

Each database call is one step. The rows are listed as the queries order them, the latest
`effective_at` first; where a new row comes in that order is up to the clocks. The table exists.
-/

namespace FarmBackend.CurrencyRates
open Decimal ExchangeRates Interleaving

set_option autoImplicit false

/-- `set` is history: `updateActiveRate` has created the row. -/
structure RateRow where
  rate : CurrencyRate
  set : Bool

/-- `updating` is history: the updates that are between their two statements. -/
structure Store where
  rows : List RateRow
  updating : ℕ

/-- `place` is where a new row comes in the order of the queries. -/
structure Outcome where
  place : ℕ
  fails : Bool

/-- `none` is no finite number. -/
inductive Request where
  | updateActiveRate (usdKesRate : Option ℚ)
  | ensureRateExists
  | getCurrentRate

/-- A running call, named after its next step; `due` says that a rate had been set when the answer
was read. -/
inductive Call where
  | updateActiveRate (usdKesRate : Option ℚ)
  | createRate (parsedRate : ℚ)
  | ensureRateExists
  | createDefault
  | getCurrentRate
  | answered (answer : CurrentRate) (due : Bool)
  | done

def RateRow.isActive (row : RateRow) : Bool := row.rate.isActive

def RateRow.deactivate (row : RateRow) : RateRow :=
  { row with rate := { row.rate with isActive := false } }

/-- What `getCurrentRate` makes of the row. -/
def RateRow.current (row : RateRow) : CurrentRate where
  usdKesRate := row.rate.usdKesRate
  farmKesRate := row.rate.farmKesRate
  farmUsdRate := toFixed 8 (row.rate.farmKesRate / row.rate.usdKesRate)

def rowOf (usdKesRate : ℚ) (set : Bool) : RateRow :=
  ⟨⟨toFixed 8 usdKesRate, 1, true⟩, set⟩

namespace Store

def findFirst (s : Store) : Option RateRow := s.rows.find? RateRow.isActive

def active (s : Store) : List RateRow := s.rows.filter RateRow.isActive

def isSet (s : Store) : Bool := s.rows.any RateRow.set

def getCurrentRate (s : Store) : CurrentRate :=
  Rates.getCurrentRate ⟨[], s.rows.map RateRow.rate, fun _ _ => none⟩

def updateMany (s : Store) : Store :=
  ⟨s.rows.map fun row => if row.isActive then row.deactivate else row, s.updating + 1⟩

def create (place : ℕ) (row : RateRow) (s : Store) : Store :=
  { s with rows := s.rows.take place ++ row :: s.rows.drop place }

def endUpdate (s : Store) : Store := { s with updating := s.updating - 1 }

end Store

def step (o : Outcome) (s : Store) : Call → Option (Store × Call)
  | .updateActiveRate usdKesRate =>
    (usdKesRate.filter (0 < ·)).map fun parsedRate => (s.updateMany, .createRate parsedRate)
  | .createRate parsedRate =>
    if o.fails then some (s.endUpdate, .done)
    else some ((s.create o.place (rowOf parsedRate true)).endUpdate, .done)
  | .ensureRateExists =>
    match s.findFirst with
    | some _ => some (s, .done)
    | none => some (s, .createDefault)
  | .createDefault => some (s.create o.place (rowOf 150 false), .done)
  | .getCurrentRate => some (s, .answered s.getCurrentRate s.isSet)
  | .answered _ _ | .done => none

def program : Program Store Call Request Outcome where
  enter
    | .updateActiveRate usdKesRate => .updateActiveRate usdKesRate
    | .ensureRateExists => .ensureRateExists
    | .getCurrentRate => .getCurrentRate
  step := step

/-- No update starts while another is between its statements, and none fails there once a rate is
set; nobody reads then; and no default is written from the first update on. -/
def Apart : Guard Store Call Outcome := fun o s call =>
  match call with
  | .updateActiveRate _ => s.updating = 0
  | .createRate _ => o.fails = true → s.isSet = false
  | .createDefault => s.updating = 0 ∧ s.isSet = false
  | .getCurrentRate => s.updating = 0 ∨ s.isSet = false
  | .ensureRateExists | .answered _ _ | .done => True

instance : ∀ o s call, Decidable (Apart o s call)
  | _, _, .updateActiveRate _ => inferInstanceAs (Decidable (_ = _))
  | _, _, .createRate _ => inferInstanceAs (Decidable (_ → _))
  | _, _, .createDefault => inferInstanceAs (Decidable (_ ∧ _))
  | _, _, .getCurrentRate => inferInstanceAs (Decidable (_ ∨ _))
  | _, _, .ensureRateExists | _, _, .answered _ _ | _, _, .done => isTrue trivial

/-! ## One active row -/

theorem getCurrentRate_of_findFirst {s : Store} {row : RateRow} (h : s.findFirst = some row) :
    s.getCurrentRate = row.current := by
  have hActive : (s.rows.map RateRow.rate).find? CurrencyRate.isActive = some row.rate := by
    rw [List.find?_map]
    have hFind : s.rows.find? (CurrencyRate.isActive ∘ RateRow.rate) = some row := h
    rw [hFind]
    rfl
  simp only [Store.getCurrentRate, Rates.getCurrentRate, Rates.activeRate, hActive]
  rfl

theorem findFirst_of_active {s : Store} {row : RateRow} (h : s.active = [row]) :
    s.findFirst = some row := by
  rw [Store.findFirst, ← List.head?_filter]
  exact congrArg List.head? h

theorem active_updateMany (s : Store) : s.updateMany.active = [] := by
  rw [Store.active, List.filter_eq_nil_iff]
  intro row hRow
  obtain ⟨old, -, rfl⟩ := List.mem_map.mp hRow
  cases hActive : old.isActive with
  | true => exact Bool.false_ne_true
  | false => simp [hActive]

theorem isSet_updateMany (s : Store) : s.updateMany.isSet = s.isSet := by
  rw [Store.isSet, Store.updateMany, List.any_map]
  congr 1
  funext row
  rw [Function.comp]
  split <;> rfl

theorem mem_create {place : ℕ} {row new : RateRow} {s : Store} :
    row ∈ (s.create place new).rows ↔ row = new ∨ row ∈ s.rows := by
  have hSplit : row ∈ s.rows ↔ row ∈ s.rows.take place ∨ row ∈ s.rows.drop place := by
    rw [← List.mem_append, List.take_append_drop]
  rw [hSplit, Store.create, List.mem_append, List.mem_cons]
  exact or_left_comm

theorem isSet_create (place : ℕ) (row : RateRow) (s : Store) :
    (s.create place row).isSet = (row.set || s.isSet) := by
  rw [Bool.eq_iff_iff, Bool.or_eq_true, Store.isSet, Store.isSet, List.any_eq_true, List.any_eq_true]
  constructor
  · rintro ⟨r, hMem, hSet⟩
    rcases mem_create.mp hMem with rfl | hOld
    · exact .inl hSet
    · exact .inr ⟨r, hOld, hSet⟩
  · rintro (hSet | ⟨r, hOld, hSet⟩)
    · exact ⟨row, mem_create.mpr (.inl rfl), hSet⟩
    · exact ⟨r, mem_create.mpr (.inr hOld), hSet⟩

/-- Where no other row is active, the new one is the only one. -/
theorem active_create {place : ℕ} {row : RateRow} {s : Store} (h : s.active = [])
    (hRow : row.isActive = true) : (s.create place row).active = [row] := by
  rw [Store.active, ← s.rows.take_append_drop place, List.filter_append, List.append_eq_nil_iff] at h
  rw [Store.active, Store.create, List.filter_append, List.filter_cons_of_pos hRow, h.1, h.2]
  rfl

structure Sound (s : Store) : Prop where
  idle : s.isSet = true → s.updating = 0 → ∃ row, s.active = [row] ∧ row.set = true
  between : s.updating ≠ 0 → s.active = []
  once : s.updating ≤ 1

/-- What was answered once a rate was set is what a row says that an update has created. -/
def Told (s : Store) : Call → Prop
  | .answered answer true => ∃ row ∈ s.rows, row.set = true ∧ row.current = answer
  | _ => True

/-- An update takes the ticket with its first statement and gives it back with its second. -/
def ticket : Ticket Store Call where
  isOpen s := s.updating = 0
  fired _ := 0
  holds
    | .createRate _ => 1
    | _ => 0

section Steps
variable {o : Outcome} {s s' : Store} {call call' : Call}

theorem took_of_step (hFits : Apart o s call) (hStep : step o s call = some (s', call')) :
    ticket.Keeps s call s' call' ∨ ticket.Takes s call s' call' := by
  cases call with
  | updateActiveRate usdKesRate =>
    obtain ⟨parsedRate, -, hNext⟩ := Option.map_eq_some_iff.mp hStep
    cases hNext
    exact .inr ⟨hFits, Nat.succ_ne_zero _, le_refl _⟩
  | createRate parsedRate =>
    simp only [step] at hStep
    split at hStep <;> cases hStep <;> exact .inl ⟨Nat.zero_le _, fun _ => .inr Nat.zero_lt_one⟩
  | ensureRateExists =>
    simp only [step] at hStep
    split at hStep <;> cases hStep <;> exact .inl ⟨le_refl _, .inl⟩
  | createDefault => cases hStep; exact .inl ⟨le_refl _, .inl⟩
  | getCurrentRate => cases hStep; exact .inl ⟨le_refl _, .inl⟩
  | answered _ _ | done => cases hStep

theorem sound_updateMany (h : s.updating = 0) : Sound s.updateMany := by
  refine ⟨?_, fun _ => active_updateMany s, ?_⟩
  · intro _ hIdle
    cases hIdle
  · exact Nat.succ_le_succ h.le

theorem sound_endUpdate (hActive : s.isSet = true → ∃ row, s.active = [row] ∧ row.set = true)
    (hOnce : s.updating ≤ 1) : Sound s.endUpdate := by
  have hZero : s.updating - 1 = 0 := by omega
  exact ⟨fun hSet _ => hActive hSet, fun hNot => absurd hZero hNot, hZero.le.trans (Nat.zero_le 1)⟩

/-- One step; the call that creates a rate is between its statements. -/
theorem sound_step (h : Sound s) (hUpdating : ticket.holds call = 1 → s.updating ≠ 0)
    (hFits : Apart o s call) (hStep : step o s call = some (s', call')) : Sound s' := by
  cases call with
  | updateActiveRate usdKesRate =>
    obtain ⟨parsedRate, -, hNext⟩ := Option.map_eq_some_iff.mp hStep
    cases hNext
    exact sound_updateMany hFits
  | createRate parsedRate =>
    simp only [step] at hStep
    split at hStep
    · rename_i hFails
      cases hStep
      apply sound_endUpdate _ h.once
      intro hSet
      rw [hFits hFails] at hSet
      cases hSet
    · cases hStep
      have hNone : s.active = [] := h.between (hUpdating rfl)
      have hOnce : (s.create o.place (rowOf parsedRate true)).updating ≤ 1 := h.once
      exact sound_endUpdate (fun _ => ⟨_, active_create hNone rfl, rfl⟩) hOnce
  | ensureRateExists =>
    simp only [step] at hStep
    split at hStep <;> cases hStep <;> exact h
  | createDefault =>
    cases hStep
    obtain ⟨hIdle, hUnset⟩ := hFits
    refine ⟨?_, fun hNot => absurd hIdle hNot, h.once⟩
    intro hSet
    rw [isSet_create, hUnset] at hSet
    cases hSet
  | getCurrentRate => cases hStep; exact h
  | answered _ _ | done => cases hStep

theorem told_of_rows {other : Call} (h : Told s other)
    (hRows : ∀ row ∈ s.rows, ∃ row' ∈ s'.rows, row'.set = row.set ∧ row'.current = row.current) :
    Told s' other := by
  cases other with
  | answered answer due =>
    cases due with
    | false => exact trivial
    | true =>
      obtain ⟨row, hMem, hSet, hCurrent⟩ := h
      obtain ⟨row', hMem', hSet', hCurrent'⟩ := hRows row hMem
      exact ⟨row', hMem', hSet'.trans hSet, hCurrent'.trans hCurrent⟩
  | updateActiveRate _ | createRate _ | ensureRateExists | createDefault | getCurrentRate | done =>
    exact trivial

/-- Rows stay, and what they say stays. -/
theorem rows_step (hStep : step o s call = some (s', call')) :
    ∀ row ∈ s.rows, ∃ row' ∈ s'.rows, row'.set = row.set ∧ row'.current = row.current := by
  intro row hRow
  cases call with
  | updateActiveRate usdKesRate =>
    obtain ⟨parsedRate, -, hNext⟩ := Option.map_eq_some_iff.mp hStep
    cases hNext
    refine ⟨_, List.mem_map.mpr ⟨row, hRow, rfl⟩, ?_⟩
    split <;> exact ⟨rfl, rfl⟩
  | createRate parsedRate =>
    simp only [step] at hStep
    split at hStep <;> cases hStep
    · exact ⟨row, hRow, rfl, rfl⟩
    · exact ⟨row, mem_create.mpr (.inr hRow), rfl, rfl⟩
  | ensureRateExists =>
    simp only [step] at hStep
    split at hStep <;> cases hStep <;> exact ⟨row, hRow, rfl, rfl⟩
  | createDefault => cases hStep; exact ⟨row, mem_create.mpr (.inr hRow), rfl, rfl⟩
  | getCurrentRate => cases hStep; exact ⟨row, hRow, rfl, rfl⟩
  | answered _ _ | done => cases hStep

/-- What a call is told itself. -/
theorem told_step (h : Sound s) (hFits : Apart o s call)
    (hStep : step o s call = some (s', call')) : Told s' call' := by
  cases call with
  | updateActiveRate usdKesRate =>
    obtain ⟨parsedRate, -, hNext⟩ := Option.map_eq_some_iff.mp hStep
    cases hNext
    exact trivial
  | createRate parsedRate =>
    simp only [step] at hStep
    split at hStep <;> cases hStep <;> exact trivial
  | ensureRateExists =>
    simp only [step] at hStep
    split at hStep <;> cases hStep <;> exact trivial
  | createDefault => cases hStep; exact trivial
  | getCurrentRate =>
    cases hStep
    cases hSet : s.isSet with
    | false => exact trivial
    | true =>
      have hIdle : s.updating = 0 := by
        rcases hFits with hIdle | hUnset
        · exact hIdle
        · rw [hSet] at hUnset
          cases hUnset
      obtain ⟨row, hActive, hRow⟩ := h.idle hSet hIdle
      have hFirst := findFirst_of_active hActive
      exact ⟨row, List.mem_of_find?_eq_some hFirst, hRow, (getCurrentRate_of_findFirst hFirst).symm⟩
  | answered _ _ | done => cases hStep

end Steps

/-! ## Runs -/

/-- Before the first update of the run. -/
def start (rates : List CurrencyRate) : Store := ⟨rates.map (⟨·, false⟩), 0⟩

theorem isSet_start (rates : List CurrencyRate) : (start rates).isSet = false := by
  rw [Store.isSet, start, List.any_map]
  exact List.any_eq_false.mpr fun _ _ => Bool.false_ne_true

section Runs
variable {rates : List CurrencyRate} {c : Config Store Call}

theorem ticket_reaches (h : program.Reaches Apart (Program.idle (start rates)) c) :
    ticket.Sound c := by
  refine Ticket.Sound.reaches h ⟨Nat.zero_le _, fun _ => rfl⟩ ?_ ?_
  · intro request
    cases request <;> rfl
  · intro o s s' call call' before after _ hFits hStep
    exact took_of_step hFits hStep

theorem sound_reaches (h : program.Reaches Apart (Program.idle (start rates)) c) :
    Sound c.store ∧ ∀ call ∈ c.calls, Told c.store call := by
  refine h.assertions_among Sound Told ⟨?_, by simp [Program.idle]⟩ ?_ ?_ ?_
  · refine ⟨?_, fun hNot => absurd rfl hNot, Nat.zero_le 1⟩
    intro hSet
    rw [Program.idle, isSet_start] at hSet
    cases hSet
  · intro request s _
    cases request <;> exact trivial
  · intro o s s' call call' before after hReach hSound _ hFits hStep
    refine ⟨sound_step hSound ?_ hFits hStep, told_step hSound hFits hStep⟩
    intro hHolds hIdle
    have hSpent := (ticket_reaches hReach).open_spent hIdle
    rw [Ticket.spent_split, hHolds] at hSpent
    omega
  · intro o s s' call call' before after other _ _ _ _ hTold _ hStep
    exact told_of_rows hTold (rows_step hStep)

/-- In every run whose updates stay apart from each other, from reads and from defaults. -/
theorem current_rate_set (h : program.Reaches Apart (Program.idle (start rates)) c) :
    (∀ answer, Call.answered answer true ∈ c.calls →
      ∃ row ∈ c.store.rows, row.set = true ∧ row.current = answer) ∧
    (c.store.isSet = true → c.store.updating = 0 → ∃ row, c.store.active = [row] ∧
      row.set = true ∧ c.store.findFirst = some row ∧ c.store.getCurrentRate = row.current) := by
  obtain ⟨hSound, hTold⟩ := sound_reaches h
  refine ⟨fun answer hMem => hTold _ hMem, ?_⟩
  intro hSet hIdle
  obtain ⟨row, hActive, hRow⟩ := hSound.idle hSet hIdle
  have hFirst := findFirst_of_active hActive
  exact ⟨row, hActive, hRow, hFirst, getCurrentRate_of_findFirst hFirst⟩

end Runs

/-- A rate is set before any other, a second update deactivates it, and a read comes before the
second rate is created. -/
def readBetween : List (Move Request Outcome) :=
  [.enter (.updateActiveRate (some 130)), .run 0 ⟨0, false⟩, .run 0 ⟨0, false⟩,
    .enter (.updateActiveRate (some 131)), .run 1 ⟨0, false⟩, .enter .getCurrentRate,
    .run 2 ⟨0, false⟩]

/-- Two updates that overlap. -/
def overlapping : List (Move Request Outcome) :=
  [.enter (.updateActiveRate (some 130)), .enter (.updateActiveRate (some 131)),
    .run 0 ⟨0, false⟩, .run 1 ⟨0, false⟩, .run 0 ⟨0, false⟩, .run 1 ⟨0, false⟩]

/-- The call has been told this rate, once a rate was set. -/
def Call.toldRate (usdKesRate : ℚ) : Call → Bool
  | .answered answer true => answer.usdKesRate == usdKesRate
  | _ => false

theorem exists_of_toldRate {usdKesRate : ℚ} {calls : List Call}
    (h : calls.any (Call.toldRate usdKesRate) = true) :
    ∃ answer, Call.answered answer true ∈ calls ∧ answer.usdKesRate = usdKesRate := by
  obtain ⟨call, hMem, hTold⟩ := List.any_eq_true.mp h
  cases call with
  | answered answer due =>
    cases due with
    | true => exact ⟨answer, hMem, beq_iff_eq.mp hTold⟩
    | false => cases hTold
  | updateActiveRate _ | createRate _ | ensureRateExists | createDefault | getCurrentRate | done =>
    cases hTold

theorem default_between_updates :
    (∃ c answer, program.Reaches anyStep (Program.idle (start [])) c ∧
      Call.answered answer true ∈ c.calls ∧ answer.usdKesRate = 150 ∧
      ¬ ∃ row ∈ c.store.rows, row.set = true ∧ row.current = answer) ∧
    ∃ c, program.Reaches anyStep (Program.idle (start [])) c ∧ c.store.isSet = true ∧
      c.store.updating = 0 ∧ c.store.active.length = 2 := by
  constructor
  · have hRun : (program.schedule readBetween (Program.idle (start []))).any (fun c =>
        c.calls.any (Call.toldRate 150) &&
          c.store.rows.all fun row => row.rate.usdKesRate != 150) = true := by
      decide +kernel
    obtain ⟨c, hReach, hEnd⟩ := Program.reaches_of_any hRun
    rw [Bool.and_eq_true, List.all_eq_true] at hEnd
    obtain ⟨answer, hMem, hAnswer⟩ := exists_of_toldRate hEnd.1
    refine ⟨c, answer, hReach, hMem, hAnswer, ?_⟩
    rintro ⟨row, hRow, -, rfl⟩
    exact bne_iff_ne.mp (hEnd.2 row hRow) hAnswer
  · have hRun : (program.schedule overlapping (Program.idle (start []))).any (fun c =>
        c.store.isSet && c.store.updating == 0 && c.store.active.length == 2) = true := by
      decide +kernel
    obtain ⟨c, hReach, hEnd⟩ := Program.reaches_of_any hRun
    simp only [Bool.and_eq_true, beq_iff_eq] at hEnd
    exact ⟨c, hReach, hEnd.1.1, hEnd.1.2, hEnd.2⟩

/-- A default is written, two updates follow one another, and the rate is read. -/
theorem second_update_read :
    ∃ c answer, program.Reaches Apart (Program.idle (start [])) c ∧
      Call.answered answer true ∈ c.calls ∧ answer.usdKesRate = 131 ∧
      (∃ row ∈ c.store.rows, row.set = true ∧ row.current = answer) ∧
      ∃ row, c.store.active = [row] ∧ row.set = true ∧ c.store.findFirst = some row ∧
        c.store.getCurrentRate = row.current := by
  have hRun : ((program.guarded Apart).schedule
      [.enter .ensureRateExists, .run 0 ⟨0, false⟩, .run 0 ⟨0, false⟩,
        .enter (.updateActiveRate (some 130)), .run 1 ⟨0, false⟩, .run 1 ⟨0, false⟩,
        .enter (.updateActiveRate (some 131)), .run 2 ⟨0, false⟩, .run 2 ⟨0, false⟩,
        .enter .getCurrentRate, .run 3 ⟨0, false⟩]
      (Program.idle (start []))).any (fun c =>
        c.calls.any (Call.toldRate 131) && c.store.isSet && c.store.updating == 0) = true := by
    decide +kernel
  obtain ⟨c, hReach, hEnd⟩ := Program.reaches_of_guarded_any hRun
  simp only [Bool.and_eq_true, beq_iff_eq] at hEnd
  obtain ⟨⟨hAnswer, hSet⟩, hIdle⟩ := hEnd
  obtain ⟨answer, hMem, hRate⟩ := exists_of_toldRate hAnswer
  have hBoth := current_rate_set hReach
  exact ⟨c, answer, hReach, hMem, hRate, hBoth.1 answer hMem, hBoth.2 hSet hIdle⟩

end FarmBackend.CurrencyRates
