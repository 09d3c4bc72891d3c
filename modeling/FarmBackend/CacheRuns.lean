import FarmBackend.CacheCalls

/-!
# What the cache returns

An invalidation that finds no older fetch in flight leaves nothing older behind: not in the cell, not
in flight. So it stays, whatever the calls do afterwards.
-/

namespace FarmBackend.Cache
open Interleaving JsonText

set_option autoImplicit false

variable {number : List Char → Option Numeral}

/-- Not older than an invalidation. -/
def Fresh (s : Store) (fetchedAt : ℕ) : Prop := ∀ i ∈ s.completed, i.startedAt ≤ fetchedAt

/-- Not older than one that had ended at the start. -/
def FreshFor (s : Store) (start fetchedAt : ℕ) : Prop :=
  ∀ i ∈ s.completed, i.endedAt < start → i.startedAt ≤ fetchedAt

/-- Nothing older is in flight. -/
def Landed (s : Store) (start : ℕ) : Prop := ∀ flight ∈ s.inFlight, start ≤ flight.startedAt

/-- What a step may do. -/
structure Evolves (s s' : Store) : Prop where
  now : s'.now = s.now + 1
  completed : s'.completed = s.completed ∨ ∃ start, s'.completed = ⟨start, s.now⟩ :: s.completed ∧
    start < s.now ∧ Landed s' start ∧ ∀ e, s'.cell = some e → start ≤ e.fetchedAt
  fetches : ∀ fetched ∈ s.fetches, fetched ∈ s'.fetches
  inFlight : ∀ flight ∈ s'.inFlight, flight ∈ s.inFlight ∨ flight.startedAt = s.now
  cell : (s'.cell = s.cell ∧ s'.absences = s.absences) ∨ s'.cell = none ∨
    ∃ e, s'.cell = some e ∧ ∃ flight ∈ s.inFlight, flight.startedAt = e.fetchedAt

structure Timely (s : Store) : Prop where
  completed : ∀ i ∈ s.completed, i.startedAt < s.now ∧ i.endedAt < s.now
  cell : ∀ e, s.cell = some e → Fresh s e.fetchedAt
  inFlight : ∀ flight ∈ s.inFlight, Fresh s flight.startedAt ∧ flight.startedAt < s.now

structure Faithful (number : List Char → Option Numeral) (s : Store) : Prop where
  cell : ∀ e, s.cell = some e → ∃ value : Value number, misread number value.json = false ∧
    e.raw = rawOf value.json ∧ ⟨e.fetchedAt, value.json⟩ ∈ s.fetches
  settled : ∀ flight value, (flight, some value) ∈ s.settled → ⟨flight, value⟩ ∈ s.fetches
  returns : ∀ r ∈ s.returns, r.startedAt < s.now ∧ FreshFor s r.startedAt r.fetchedAt ∧
    ⟨r.fetchedAt, r.value⟩ ∈ s.fetches

/-- What a call knows at its next step. -/
def Knows (s : Store) : Call number → Prop
  | .get _ start | .look _ start => start < s.now
  | .fetch process start flight =>
    start < s.now ∧ FreshFor s start flight ∧ ⟨process, flight⟩ ∈ s.inFlight
  | .set process start flight value =>
    (start < s.now ∧ FreshFor s start flight ∧ ⟨process, flight⟩ ∈ s.inFlight) ∧
      misread number value.json = false ∧ ⟨flight, value.json⟩ ∈ s.fetches
  | .settle process start flight result =>
    (start < s.now ∧ FreshFor s start flight ∧ ⟨process, flight⟩ ∈ s.inFlight) ∧
      ∀ value, result = some value → ⟨flight, value⟩ ∈ s.fetches
  | .await start flight => start < s.now ∧ FreshFor s start flight
  | .answer start fetchedAt value =>
    start < s.now ∧ FreshFor s start fetchedAt ∧ ⟨fetchedAt, value⟩ ∈ s.fetches
  | .scan start | .delete start => start < s.now
  | .scanning start since =>
    start < s.now ∧ Landed s start ∧
      ∀ e, s.cell = some e → start ≤ e.fetchedAt ∨ since = some s.absences
  | .complete start =>
    start < s.now ∧ Landed s start ∧ ∀ e, s.cell = some e → start ≤ e.fetchedAt
  | .wrap _ | .cacheDelete | .cacheInvalidatePattern | .expire | .done => True

/-- The flight whose fetch the call runs. -/
def Call.flight : Call number → Option Flight
  | .fetch process _ flight | .set process _ flight _ | .settle process _ flight _ =>
    some ⟨process, flight⟩
  | _ => none

/-! ### What other calls keep -/

section Evolves
variable {s s' : Store}

theorem Fresh.freshFor {fetchedAt : ℕ} (h : Fresh s fetchedAt) (start : ℕ) :
    FreshFor s start fetchedAt :=
  fun i hMem _ => h i hMem

/-- A later invalidation ends after the start. -/
theorem FreshFor.evolves {start fetchedAt : ℕ} (h : FreshFor s start fetchedAt)
    (hStart : start < s.now) (hEvolves : Evolves s s') : FreshFor s' start fetchedAt := by
  intro i hMem hEnded
  rcases hEvolves.completed with hSame | ⟨_, hNew, -⟩
  · exact h i (hSame ▸ hMem) hEnded
  · rw [hNew] at hMem
    rcases List.mem_cons.mp hMem with rfl | hOld
    · exact absurd hEnded (Nat.not_lt.mpr hStart.le)
    · exact h i hOld hEnded

theorem Landed.evolves {start : ℕ} (h : Landed s start) (hStart : start < s.now)
    (hEvolves : Evolves s s') : Landed s' start := by
  intro flight hMem
  rcases hEvolves.inFlight flight hMem with hOld | hNew
  · exact h flight hOld
  · rw [hNew]
    exact hStart.le

/-- What is stored meanwhile comes from a fetch that is not older. -/
theorem Landed.cell_evolves {start : ℕ} {e : Entry} {P : Prop} (h : Landed s start)
    (hCell : ∀ e, s.cell = some e → start ≤ e.fetchedAt ∨ P) (hEvolves : Evolves s s')
    (hNew : s'.cell = some e) : start ≤ e.fetchedAt ∨ (P ∧ s'.absences = s.absences) := by
  rcases hEvolves.cell with ⟨hSame, hPresent⟩ | hNone | ⟨e', hSet, flight, hMem, hFlight⟩
  · rcases hCell e (hSame ▸ hNew) with hLe | hP
    · exact .inl hLe
    · exact .inr ⟨hP, hPresent⟩
  · rw [hNone] at hNew
    cases hNew
  · rw [hSet] at hNew
    cases hNew
    exact .inl (hFlight ▸ h flight hMem)

theorem Timely.evolves (h : Timely s) (hEvolves : Evolves s s') : Timely s' where
  completed i hMem := by
    rw [hEvolves.now]
    rcases hEvolves.completed with hSame | ⟨start, hNew, hStart, -⟩
    · obtain ⟨hStarted, hEnded⟩ := h.completed i (hSame ▸ hMem)
      exact ⟨Nat.lt_succ_of_lt hStarted, Nat.lt_succ_of_lt hEnded⟩
    · rw [hNew] at hMem
      rcases List.mem_cons.mp hMem with rfl | hOld
      · exact ⟨Nat.lt_succ_of_lt hStart, Nat.lt_succ_self _⟩
      · obtain ⟨hStarted, hEnded⟩ := h.completed i hOld
        exact ⟨Nat.lt_succ_of_lt hStarted, Nat.lt_succ_of_lt hEnded⟩
  cell e hNew i hMem := by
    have hOld : ∀ i ∈ s.completed, i.startedAt ≤ e.fetchedAt := by
      rcases hEvolves.cell with ⟨hSame, -⟩ | hNone | ⟨e', hSet, flight, hFlying, hFlight⟩
      · exact h.cell e (hSame ▸ hNew)
      · rw [hNone] at hNew
        cases hNew
      · rw [hSet] at hNew
        cases hNew
        rw [← hFlight]
        exact (h.inFlight flight hFlying).1
    rcases hEvolves.completed with hSame | ⟨start, hCompleted, -, -, hCell⟩
    · exact hOld i (hSame ▸ hMem)
    · rw [hCompleted] at hMem
      rcases List.mem_cons.mp hMem with rfl | hBefore
      · exact hCell e hNew
      · exact hOld i hBefore
  inFlight flight hMem := by
    have hOld : (∀ i ∈ s.completed, i.startedAt ≤ flight.startedAt) ∧ flight.startedAt ≤ s.now := by
      rcases hEvolves.inFlight flight hMem with hFlying | hNow
      · obtain ⟨hFresh, hBegun⟩ := h.inFlight flight hFlying
        exact ⟨hFresh, hBegun.le⟩
      · exact ⟨fun i hi => hNow ▸ (h.completed i hi).1.le, hNow.le⟩
    refine ⟨fun i hi => ?_, hEvolves.now ▸ Nat.lt_succ_of_le hOld.2⟩
    rcases hEvolves.completed with hSame | ⟨start, hCompleted, -, hLanded, -⟩
    · exact hOld.1 i (hSame ▸ hi)
    · rw [hCompleted] at hi
      rcases List.mem_cons.mp hi with rfl | hBefore
      · exact hLanded flight hMem
      · exact hOld.1 i hBefore

/-- A call that runs a fetch keeps what it knows while its flight is not taken off. -/
theorem Knows.evolves {call : Call number} (h : Knows s call) (hEvolves : Evolves s s')
    (hFlight : ∀ flight, call.flight = some flight → flight ∈ s.inFlight → flight ∈ s'.inFlight) :
    Knows s' call := by
  have hLater : ∀ {start : ℕ}, start < s.now → start < s'.now := fun hStart => by
    rw [hEvolves.now]
    exact Nat.lt_succ_of_lt hStart
  cases call with
  | get process start => exact hLater h
  | look process start => exact hLater h
  | fetch process start flight =>
    obtain ⟨hStart, hFresh, hMem⟩ := h
    exact ⟨hLater hStart, hFresh.evolves hStart hEvolves, hFlight _ rfl hMem⟩
  | set process start flight value =>
    obtain ⟨⟨hStart, hFresh, hMem⟩, hRead, hFetched⟩ := h
    exact ⟨⟨hLater hStart, hFresh.evolves hStart hEvolves, hFlight _ rfl hMem⟩, hRead,
      hEvolves.fetches _ hFetched⟩
  | settle process start flight result =>
    obtain ⟨⟨hStart, hFresh, hMem⟩, hFetched⟩ := h
    exact ⟨⟨hLater hStart, hFresh.evolves hStart hEvolves, hFlight _ rfl hMem⟩,
      fun value hResult => hEvolves.fetches _ (hFetched value hResult)⟩
  | await start flight => exact ⟨hLater h.1, h.2.evolves h.1 hEvolves⟩
  | answer start fetchedAt value =>
    exact ⟨hLater h.1, h.2.1.evolves h.1 hEvolves, hEvolves.fetches _ h.2.2⟩
  | scan start => exact hLater h
  | delete start => exact hLater h
  | scanning start since =>
    obtain ⟨hStart, hLanded, hCell⟩ := h
    refine ⟨hLater hStart, hLanded.evolves hStart hEvolves, fun e hNew => ?_⟩
    rcases hLanded.cell_evolves hCell hEvolves hNew with hLe | ⟨hPresent, hSame⟩
    · exact .inl hLe
    · exact .inr (hSame ▸ hPresent)
  | complete start =>
    obtain ⟨hStart, hLanded, hCell⟩ := h
    refine ⟨hLater hStart, hLanded.evolves hStart hEvolves, fun e hNew => ?_⟩
    have hOld : ∀ e, s.cell = some e → start ≤ e.fetchedAt ∨ False := fun e hSome =>
      .inl (hCell e hSome)
    exact (hLanded.cell_evolves hOld hEvolves hNew).elim id fun hFalse => hFalse.1.elim
  | wrap _ | cacheDelete | cacheInvalidatePattern | expire | done => trivial

theorem Faithful.evolves (h : Faithful number s) (hEvolves : Evolves s s')
    (hCell : ∀ e, s'.cell = some e → s.cell = some e ∨ ∃ value : Value number,
      misread number value.json = false ∧ e.raw = rawOf value.json ∧
        ⟨e.fetchedAt, value.json⟩ ∈ s'.fetches)
    (hSettled : ∀ flight value, (flight, some value) ∈ s'.settled →
      (flight, some value) ∈ s.settled ∨ ⟨flight, value⟩ ∈ s'.fetches)
    (hReturns : ∀ r ∈ s'.returns, r ∈ s.returns ∨ (r.startedAt < s.now ∧
      FreshFor s r.startedAt r.fetchedAt ∧ ⟨r.fetchedAt, r.value⟩ ∈ s.fetches)) :
    Faithful number s' where
  cell e hNew := by
    rcases hCell e hNew with hOld | hWritten
    · obtain ⟨value, hRead, hRaw, hFetched⟩ := h.cell e hOld
      exact ⟨value, hRead, hRaw, hEvolves.fetches _ hFetched⟩
    · exact hWritten
  settled _ value hMem :=
    (hSettled _ value hMem).elim (fun hOld => hEvolves.fetches _ (h.settled _ value hOld)) id
  returns r hMem := by
    have hOld : r.startedAt < s.now ∧ FreshFor s r.startedAt r.fetchedAt ∧
        ⟨r.fetchedAt, r.value⟩ ∈ s.fetches :=
      (hReturns r hMem).elim (h.returns r) id
    obtain ⟨hStart, hFresh, hFetched⟩ := hOld
    exact ⟨by rw [hEvolves.now]; exact Nat.lt_succ_of_lt hStart, hFresh.evolves hStart hEvolves,
      hEvolves.fetches _ hFetched⟩

end Evolves

/-! ### The steps -/

section Steps
variable {o : Outcome number} {s s' : Store} {call call' : Call number}

/-- A step that touches neither the cell nor the flights. -/
theorem evolves_aside (hNow : s'.now = s.now + 1) (hCell : s'.cell = s.cell)
    (hAbsences : s'.absences = s.absences) (hFlights : s'.inFlight = s.inFlight)
    (hFetches : ∀ fetched ∈ s.fetches, fetched ∈ s'.fetches)
    (hCompleted : s'.completed = s.completed) : Evolves s s' where
  now := hNow
  completed := .inl hCompleted
  fetches := hFetches
  inFlight _ hMem := .inl (hFlights ▸ hMem)
  cell := .inl ⟨hCell, hAbsences⟩

theorem evolves_tick (s : Store) : Evolves s s.tick :=
  evolves_aside rfl rfl rfl rfl (fun _ => id) rfl

theorem evolves_clear (s : Store) : Evolves s s.clear.tick where
  now := rfl
  completed := .inl rfl
  fetches _ := id
  inFlight _ := .inl
  cell := .inr (.inl rfl)

theorem evolves_of_step (hKnows : Knows s call) (hStep : step o s call = some (s', call')) :
    Evolves s s' := by
  cases call with
  | done => cases hStep
  | wrap _ | cacheDelete | cacheInvalidatePattern | scan _ | scanning _ _ =>
    cases hStep
    exact evolves_tick s
  | expire =>
    cases hStep
    exact evolves_clear s
  | get process start =>
    simp only [step] at hStep
    split at hStep <;> cases hStep <;> exact evolves_tick s
  | look process start =>
    simp only [step] at hStep
    split at hStep <;> cases hStep
    · exact evolves_tick s
    · refine ⟨rfl, .inl rfl, fun _ => id, fun flight hMem => ?_, .inl ⟨rfl, rfl⟩⟩
      rcases List.mem_cons.mp hMem with rfl | hOld
      · exact .inr rfl
      · exact .inl hOld
  | fetch process start flight =>
    simp only [step] at hStep
    split at hStep <;> cases hStep
    · exact evolves_tick s
    · exact evolves_aside rfl rfl rfl rfl (fun _ => List.mem_cons_of_mem _) rfl
  | set process start flight value =>
    cases hStep
    split
    · exact evolves_tick s
    · exact ⟨rfl, .inl rfl, fun _ => id, fun _ => .inl, .inr (.inr ⟨_, rfl, _, hKnows.1.2.2, rfl⟩)⟩
  | settle process start flight result =>
    cases hStep
    exact ⟨rfl, .inl rfl, fun _ => id, fun _ hMem => .inl (List.mem_of_mem_filter hMem),
      .inl ⟨rfl, rfl⟩⟩
  | await start flight =>
    simp only [step] at hStep
    split at hStep <;> cases hStep <;> exact evolves_tick s
  | answer start fetchedAt value =>
    cases hStep
    exact evolves_aside rfl rfl rfl rfl (fun _ => id) rfl
  | delete start =>
    cases hStep
    split
    · exact evolves_tick s
    · exact evolves_clear s
  | complete start =>
    cases hStep
    exact ⟨rfl, .inr ⟨start, rfl, hKnows⟩, fun _ => id, fun _ => .inl, .inl ⟨rfl, rfl⟩⟩

theorem faithful_of_step (hFaithful : Faithful number s) (hKnows : Knows s call)
    (hStep : step o s call = some (s', call')) : Faithful number s' := by
  have hEvolves := evolves_of_step hKnows hStep
  cases call with
  | done => cases hStep
  | wrap _ | cacheDelete | cacheInvalidatePattern | scan _ | scanning _ _ | complete _ =>
    cases hStep
    exact hFaithful.evolves hEvolves (fun _ => .inl) (fun _ _ => .inl) fun _ => .inl
  | expire =>
    cases hStep
    exact hFaithful.evolves hEvolves (fun e hNew => by cases hNew) (fun _ _ => .inl) fun _ => .inl
  | get process start =>
    simp only [step] at hStep
    split at hStep <;> cases hStep <;>
      exact hFaithful.evolves hEvolves (fun _ => .inl) (fun _ _ => .inl) fun _ => .inl
  | look process start =>
    simp only [step] at hStep
    split at hStep <;> cases hStep <;>
      exact hFaithful.evolves hEvolves (fun _ => .inl) (fun _ _ => .inl) fun _ => .inl
  | fetch process start flight =>
    simp only [step] at hStep
    split at hStep <;> cases hStep <;>
      exact hFaithful.evolves hEvolves (fun _ => .inl) (fun _ _ => .inl) fun _ => .inl
  | set process start flight value =>
    cases hStep
    refine hFaithful.evolves hEvolves (fun e hNew => ?_) ?_ ?_
    · obtain ⟨-, hRead, hFetched⟩ := hKnows
      revert hNew
      split
      · exact fun hOld => .inl hOld
      · intro hNew
        cases hNew
        exact .inr ⟨value, hRead, rfl, hFetched⟩
    · intro flight' value' hMem
      exact .inl (by revert hMem; split <;> exact id)
    · intro r hMem
      exact .inl (by revert hMem; split <;> exact id)
  | settle process start flight result =>
    cases hStep
    refine hFaithful.evolves hEvolves (fun _ => .inl) (fun flight' value' hMem => ?_) fun _ => .inl
    rcases List.mem_cons.mp hMem with hNew | hOld
    · cases hNew
      exact .inr (hKnows.2 _ rfl)
    · exact .inl hOld
  | await start flight =>
    simp only [step] at hStep
    split at hStep <;> cases hStep <;>
      exact hFaithful.evolves hEvolves (fun _ => .inl) (fun _ _ => .inl) fun _ => .inl
  | answer start fetchedAt value =>
    cases hStep
    refine hFaithful.evolves hEvolves (fun _ => .inl) (fun _ _ => .inl) fun r hMem => ?_
    rcases List.mem_cons.mp hMem with rfl | hOld
    · exact .inr hKnows
    · exact .inl hOld
  | delete start =>
    cases hStep
    refine hFaithful.evolves hEvolves (fun e hNew => ?_) ?_ ?_
    · revert hNew
      split
      · exact .inl
      · exact fun hNew => by cases hNew
    · intro flight' value' hMem
      exact .inl (by revert hMem; split <;> exact id)
    · intro r hMem
      exact .inl (by revert hMem; split <;> exact id)

theorem fetched_of_read {value : Json} {fetchedAt : ℕ} (hFaithful : Faithful number s)
    (h : s.read number = some (value, fetchedAt)) :
    ⟨fetchedAt, value⟩ ∈ s.fetches ∧ ∃ e, s.cell = some e ∧ e.fetchedAt = fetchedAt := by
  obtain ⟨e, hCell, hRead⟩ := Option.bind_eq_some_iff.mp h
  obtain ⟨read, hCached, hSame⟩ := Option.map_eq_some_iff.mp hRead
  cases hSame
  obtain ⟨written, hReads, hRaw, hFetched⟩ := hFaithful.cell e hCell
  refine ⟨?_, e, hCell, rfl⟩
  rw [hRaw] at hCached
  rcases parse_rawOf written hReads with hNull | hSame
  · rw [hNull] at hCached
    cases hCached
  · rw [hSame] at hCached
    cases hCached
    exact hFetched

/-- A `SCAN` lists what was present throughout. -/
theorem knows_scanned {begun : ℕ} {since : Option ℕ} (hBegun : begun < s.now)
    (hFails : o.fails = false) (hLanded : Landed s begun)
    (hCell : ∀ e, s.cell = some e → begun ≤ e.fetchedAt ∨ since = some s.absences) :
    Knows s.tick (scanned o s begun since) := by
  have hLater : begun < s.tick.now := Nat.lt_succ_of_lt hBegun
  rw [scanned, hFails, if_neg Bool.false_ne_true]
  split_ifs with hMore hFound
  · exact ⟨hLater, hLanded, hCell⟩
  · exact hLater
  · refine ⟨hLater, hLanded, fun e hSome => ?_⟩
    exact (hCell e hSome).elim id fun hPresent => absurd (.inl hPresent) hFound

theorem knows_of_step (hTimely : Timely s) (hFaithful : Faithful number s) (hKnows : Knows s call)
    (hHeeds : Heeds o s call) (hStep : step o s call = some (s', call')) : Knows s' call' := by
  have hNow : s.now < s.tick.now := Nat.lt_succ_self _
  have hLater : ∀ {begun : ℕ}, begun < s.now → begun < s.tick.now := Nat.lt_succ_of_lt
  cases call with
  | done => cases hStep
  | wrap _ | cacheDelete | cacheInvalidatePattern =>
    cases hStep
    exact hNow
  | expire | answer _ _ _ | complete _ =>
    cases hStep
    trivial
  | get process begun =>
    simp only [step] at hStep
    split at hStep <;> cases hStep
    · rename_i value fetchedAt hRead
      have hHit : s.read number = some (value, fetchedAt) := by
        revert hRead
        split
        · exact fun hNone => by cases hNone
        · exact id
      obtain ⟨hFetched, e, hCell, rfl⟩ := fetched_of_read hFaithful hHit
      exact ⟨hLater hKnows, (hTimely.cell e hCell).freshFor begun, hFetched⟩
    · exact hLater hKnows
  | look process begun =>
    simp only [step] at hStep
    split at hStep <;> cases hStep
    · rename_i flight hFlight
      have hMem := List.mem_of_find?_eq_some hFlight
      exact ⟨hLater hKnows, (hTimely.inFlight flight hMem).1.freshFor begun⟩
    · refine ⟨hLater hKnows, fun i hMem _ => (hTimely.completed i hMem).1.le, ?_⟩
      exact List.mem_cons_self
  | fetch process begun flight =>
    obtain ⟨hBegun, hFresh, hMem⟩ := hKnows
    simp only [step] at hStep
    split at hStep <;> cases hStep
    · exact ⟨⟨hLater hBegun, hFresh, hMem⟩, fun _ hNone => by cases hNone⟩
    · rename_i value hFetched
      have hReads : misread number value.json = false := by
        simpa [Heeds, hFetched] using hHeeds
      exact ⟨⟨hLater hBegun, hFresh, hMem⟩, hReads, List.mem_cons_self⟩
  | set process begun flight value =>
    obtain ⟨⟨hBegun, hFresh, hMem⟩, -, hFetched⟩ := hKnows
    cases hStep
    split
    · exact ⟨⟨hLater hBegun, hFresh, hMem⟩, fun _ hSame => by cases hSame; exact hFetched⟩
    · exact ⟨⟨hLater hBegun, hFresh, hMem⟩, fun _ hSame => by cases hSame; exact hFetched⟩
  | settle process begun flight result =>
    obtain ⟨⟨hBegun, hFresh, -⟩, hFetched⟩ := hKnows
    cases hStep
    cases result with
    | none => trivial
    | some value => exact ⟨hLater hBegun, hFresh, hFetched value rfl⟩
  | await begun flight =>
    obtain ⟨hBegun, hFresh⟩ := hKnows
    simp only [step] at hStep
    split at hStep <;> cases hStep
    · trivial
    · rename_i flight' value hSettled
      have hMem := List.mem_of_find?_eq_some hSettled
      have hSame := List.find?_some hSettled
      obtain rfl : flight' = flight := beq_iff_eq.mp hSame
      exact ⟨hLater hBegun, hFresh, hFaithful.settled _ _ hMem⟩
  | scan begun =>
    obtain ⟨hFails, hLanded⟩ := hHeeds
    cases hStep
    refine knows_scanned hKnows hFails hLanded fun e hSome => .inr ?_
    rw [hSome, Option.isSome_some, if_pos rfl]
  | scanning begun since =>
    obtain ⟨hBegun, hLanded, hCell⟩ := hKnows
    cases hStep
    exact knows_scanned hBegun hHeeds hLanded hCell
  | delete begun =>
    obtain ⟨hFails, hLanded⟩ := hHeeds
    cases hStep
    rw [hFails, if_neg Bool.false_ne_true]
    exact ⟨hLater hKnows, hLanded, fun e hSome => by cases hSome⟩

end Steps

/-! ### One fetch for a flight -/

/-- Nobody takes a time that has passed. -/
def flightTicket (number : List Char → Option Numeral) (startedAt : ℕ) :
    Ticket Store (Call number) where
  isOpen s := s.now ≤ startedAt
  fired _ := 0
  holds call := if call.flight.any (·.startedAt == startedAt) then 1 else 0

section Flights
variable {o : Outcome number} {s s' : Store} {call call' : Call number}

/-- A fetch is kept by its call, or has just begun. -/
theorem flight_of_step (hStep : step o s call = some (s', call')) :
    call'.flight = none ∨ call'.flight = call.flight ∨
      call.flight = none ∧ ∃ process, call'.flight = some ⟨process, s.now⟩ := by
  cases call with
  | done => cases hStep
  | wrap _ | cacheDelete | cacheInvalidatePattern | expire | answer _ _ _ | complete _ | delete _ =>
    cases hStep
    exact .inl rfl
  | set _ _ _ _ =>
    cases hStep
    exact .inr (.inl rfl)
  | settle _ _ _ result =>
    cases hStep
    cases result <;> exact .inl rfl
  | scan _ | scanning _ _ =>
    cases hStep
    refine .inl ?_
    unfold scanned
    split_ifs <;> rfl
  | get _ _ | await _ _ =>
    simp only [step] at hStep
    split at hStep <;> cases hStep <;> exact .inl rfl
  | look process begun =>
    simp only [step] at hStep
    split at hStep <;> cases hStep
    · exact .inl rfl
    · exact .inr (.inr ⟨rfl, process, rfl⟩)
  | fetch _ _ _ =>
    simp only [step] at hStep
    split at hStep <;> cases hStep <;> exact .inr (.inl rfl)

theorem now_of_step (hStep : step o s call = some (s', call')) : s'.now = s.now + 1 := by
  cases call <;> simp only [step] at hStep <;> (try split at hStep) <;> cases hStep <;> rfl

/-- A flight is taken off by its own call. -/
theorem inFlight_of_step {flight : Flight} (hStep : step o s call = some (s', call'))
    (hMem : flight ∈ s.inFlight) : flight ∈ s'.inFlight ∨ call.flight = some flight := by
  cases call with
  | settle process begun taken result =>
    cases hStep
    by_cases hOwn : flight = ⟨process, taken⟩
    · exact .inr (by rw [hOwn]; rfl)
    · exact .inl (List.mem_filter.mpr ⟨hMem, by simpa using hOwn⟩)
  | look process begun =>
    simp only [step] at hStep
    split at hStep <;> cases hStep
    · exact .inl hMem
    · exact .inl (List.mem_cons_of_mem _ hMem)
  | _ =>
    left
    simp only [step] at hStep
    (try split at hStep) <;> cases hStep <;> exact hMem

theorem keeps_or_takes (startedAt : ℕ) (hStep : step o s call = some (s', call')) :
    (flightTicket number startedAt).Keeps s call s' call' ∨
      (flightTicket number startedAt).Takes s call s' call' := by
  have hNow := now_of_step hStep
  have hClosed : ∀ {n : ℕ}, s'.now ≤ n → s.now ≤ n := fun h => by omega
  rcases flight_of_step hStep with hNone | hSame | ⟨hNone, process, hNew⟩
  · exact .inl ⟨by simp [flightTicket, hNone], fun hOpen => .inl (hClosed hOpen)⟩
  · exact .inl ⟨by simp [flightTicket, hSame], fun hOpen => .inl (hClosed hOpen)⟩
  · by_cases hTime : s.now = startedAt
    · subst hTime
      exact .inr ⟨le_rfl, by simp [flightTicket, hNow], by simp [flightTicket, hNone, hNew]⟩
    · exact .inl ⟨by simp [flightTicket, hNone, hNew, hTime], fun hOpen => .inl (hClosed hOpen)⟩

end Flights

/-! ### The runs -/

section Runs
variable {c : Config Store (Call number)}

theorem flightTicket_sound (startedAt : ℕ) {ok : Guard Store (Call number) (Outcome number)}
    (h : (program number).Reaches ok (Program.idle start) c) :
    (flightTicket number startedAt).Sound c := by
  refine Ticket.Sound.reaches h ⟨Nat.zero_le _, fun _ => rfl⟩ (fun request => ?_) ?_
  · cases request <;> rfl
  · intro o s s' call call' before after _ _ hStep
    exact keeps_or_takes startedAt hStep

theorem sound_of_reaches (h : (program number).Reaches Heeds (Program.idle start) c) :
    (Timely c.store ∧ Faithful number c.store) ∧ ∀ call ∈ c.calls, Knows c.store call := by
  refine h.assertions_among (fun s => Timely s ∧ Faithful number s) Knows ?_ ?_ ?_ ?_
  · refine ⟨⟨⟨?_, ?_, ?_⟩, ?_, ?_, ?_⟩, ?_⟩ <;> simp [Program.idle, start]
  · intro request s _
    cases request <;> trivial
  · intro o s s' call call' before after _ hGood hKnows hHeeds hStep
    have hEvolves := evolves_of_step hKnows hStep
    exact ⟨⟨hGood.1.evolves hEvolves, faithful_of_step hGood.2 hKnows hStep⟩,
      knows_of_step hGood.1 hGood.2 hKnows hHeeds hStep⟩
  · intro o s s' call call' before after other hReach hMem _ hKnows hOther _ hStep
    refine hOther.evolves (evolves_of_step hKnows hStep) fun flight hFlight hFlying => ?_
    refine (inFlight_of_step hStep hFlying).resolve_right fun hOwn => ?_
    -- Two calls that ran one fetch would hold one ticket.
    have hApart := (flightTicket_sound flight.startedAt hReach).apart hMem
    simp [flightTicket, hOwn, hFlight] at hApart

end Runs

/-- A cache whose invalidations find no older fetch in flight, and whose strings are no texts of other
values, returns what was fetched and nothing that an invalidation has outdated. -/
theorem transparent_of_reaches {c : Config Store (Call number)}
    (h : (program number).Reaches Heeds (Program.idle start) c) : Transparent c.store := by
  intro r hMem
  obtain ⟨-, hFresh, hFetched⟩ := (sound_of_reaches h).1.2.returns r hMem
  exact ⟨hFetched, hFresh⟩

/-! A string that reads as a number, and fetches that an invalidation overtakes. -/

/-- Every number is read as it is written. -/
def verbatim (text : List Char) : Option Numeral :=
  if h : isNumber text = true then some ⟨text, h⟩ else none

def returning (value : Value verbatim) : Outcome verbatim := ⟨false, some value, false, false⟩

def quiet : Outcome verbatim := ⟨false, none, false, false⟩

def digits : Value verbatim := ⟨.str "123", trivial⟩

def flag (b : Bool) : Value verbatim := ⟨.bool b, trivial⟩

def moves (index count : ℕ) (o : Outcome verbatim) : List (Move Request (Outcome verbatim)) :=
  List.replicate count (.run index o)

/-- The first call fetches, the second one hits. -/
def hits (value : Value verbatim) : List (Move Request (Outcome verbatim)) :=
  [.enter (.wrap 0)] ++ moves 0 7 (returning value) ++ [.enter (.wrap 1)] ++ moves 1 3 quiet

/-- The key is deleted between the start of the fetch and its end. The second call is of the process
that fetches, the last one is of another. -/
def overtaken : List (Move Request (Outcome verbatim)) :=
  [.enter (.wrap 0)] ++ moves 0 3 quiet ++ [.enter .cacheDelete] ++ moves 1 3 quiet ++
    [.enter (.wrap 0)] ++ moves 2 3 quiet ++ moves 0 3 (returning (flag true)) ++
      moves 2 2 quiet ++ [.enter (.wrap 1)] ++ moves 3 3 quiet

def Return.outdated (r : Return) (s : Store) : Bool :=
  s.completed.any fun i => decide (i.endedAt < r.startedAt) && decide (r.fetchedAt < i.startedAt)

theorem not_transparent_of_outdated {s : Store} (h : s.returns.any (·.outdated s) = true) :
    ¬Transparent s := by
  intro hClaim
  obtain ⟨r, hMem, hOutdated⟩ := List.any_eq_true.mp h
  obtain ⟨i, hCompleted, hTimes⟩ := List.any_eq_true.mp hOutdated
  rw [Bool.and_eq_true, decide_eq_true_eq, decide_eq_true_eq] at hTimes
  exact absurd ((hClaim r hMem).2 i hCompleted hTimes.1) (Nat.not_le.mpr hTimes.2)

def isNumeral : Json → Bool
  | .num _ => true
  | _ => false

theorem not_transparent_of_numeral {s : Store} (h : s.returns.any (fun r => isNumeral r.value) = true)
    (hFetches : s.fetches.all (fun fetched => !isNumeral fetched.value) = true) :
    ¬Transparent s := by
  intro hClaim
  obtain ⟨r, hMem, hNumeral⟩ := List.any_eq_true.mp h
  have hOther := List.all_eq_true.mp hFetches _ (hClaim r hMem).1
  rw [hNumeral] at hOther
  cases hOther

theorem cache_not_transparent :
    (∃ c, (program verbatim).Reaches anyStep (Program.idle start) c ∧
      c.store.completed.length = 0 ∧ ¬Transparent c.store) ∧
    ∃ c, (program verbatim).Reaches anyStep (Program.idle start) c ∧
      (c.store.returns.map fun r => r.outdated c.store) = [true, true] ∧ ¬Transparent c.store := by
  constructor
  · have hRun : ((program verbatim).schedule (hits digits) (Program.idle start)).any (fun c =>
        c.store.completed.length == 0 && c.store.returns.any (fun r => isNumeral r.value) &&
          c.store.fetches.all (fun fetched => !isNumeral fetched.value)) = true := by
      decide +kernel
    obtain ⟨c, hReach, hEnd⟩ := Program.reaches_of_any hRun
    rw [Bool.and_eq_true, Bool.and_eq_true, beq_iff_eq] at hEnd
    exact ⟨c, hReach, hEnd.1.1, not_transparent_of_numeral hEnd.1.2 hEnd.2⟩
  · have hRun : ((program verbatim).schedule overtaken (Program.idle start)).any (fun c =>
        (c.store.returns.map fun r => r.outdated c.store) == [true, true]) = true := by
      decide +kernel
    obtain ⟨c, hReach, hEnd⟩ := Program.reaches_of_any hRun
    rw [beq_iff_eq] at hEnd
    refine ⟨c, hReach, hEnd, not_transparent_of_outdated ?_⟩
    have hAny : (c.store.returns.map fun r => r.outdated c.store).any id = true := by
      rw [hEnd]
      rfl
    rwa [List.any_map] at hAny

/-- A value is fetched and hit, the key is deleted, and another value is fetched and hit. -/
theorem deleted_between_fetches : ∃ c,
    (program verbatim).Reaches Heeds (Program.idle start) c ∧
      (c.store.returns.map fun r => r.value.text) =
        ["false".toList, "false".toList, "true".toList, "true".toList] ∧
      c.store.completed.length = 1 ∧ Transparent c.store := by
  have hRun : (((program verbatim).guarded Heeds).schedule
      (hits (flag true) ++ [.enter .cacheDelete] ++ moves 2 3 quiet ++ [.enter (.wrap 1)] ++
        moves 3 7 (returning (flag false)) ++ [.enter (.wrap 0)] ++ moves 4 3 quiet)
      (Program.idle start)).any (fun c =>
      (c.store.returns.map fun r => r.value.text) ==
          ["false".toList, "false".toList, "true".toList, "true".toList] &&
        c.store.completed.length == 1) = true := by
    decide +kernel
  obtain ⟨c, hReach, hEnd⟩ := Program.reaches_of_guarded_any hRun
  rw [Bool.and_eq_true, beq_iff_eq, beq_iff_eq] at hEnd
  exact ⟨c, hReach, hEnd.1, hEnd.2, transparent_of_reaches hReach⟩

end FarmBackend.Cache
