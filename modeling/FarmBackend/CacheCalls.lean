import FarmBackend.JsonRoundtrip
import FarmBackend.Ticket

/-!
# The cache of one key (`common/cache/cache.service.ts`)

The key in Redis and the `inFlight` maps of any number of processes. A Redis command, a fetch and what
a process does between two awaits are one step each. Times are counted in steps. The TTL may run out
at any time.
-/

namespace FarmBackend.Cache
open Interleaving JsonText

set_option autoImplicit false

abbrev ProcessId := ℕ

section Text
variable (number : List Char → Option Numeral)

/-- What a fetcher may return. -/
structure Value where
  json : Json
  exact : json.Exact number

/-- What `set` stores. -/
def rawOf : Json → String
  | .str s => s
  | value => stringify value

/-- What `get` makes of what is stored, `none` for `null`. -/
def cached (raw : String) : Option Json :=
  match (parse number raw).getD (.str raw) with
  | .null => none
  | value => some value

/-- A string that is the text of a JSON value other than `null`. -/
def misread : Json → Bool
  | .str s =>
    match parse number s with
    | none | some .null => false
    | some _ => true
  | _ => false

end Text

/-- `fetchedAt` is history here and below: when the fetch of the value began. -/
structure Entry where
  raw : String
  fetchedAt : ℕ

/-- An entry of the `inFlight` map of a process, known by when its fetch began. -/
structure Flight where
  process : ProcessId
  startedAt : ℕ
  deriving DecidableEq

structure Fetched where
  startedAt : ℕ
  value : Json

structure Invalidation where
  startedAt : ℕ
  endedAt : ℕ

/-- What a call of `wrap` has returned. -/
structure Return where
  startedAt : ℕ
  fetchedAt : ℕ
  value : Json

/-- `absences` counts how often the key was removed, `settled` says what the flights have resolved to.
The last three are history. -/
structure Store where
  now : ℕ
  cell : Option Entry
  absences : ℕ
  inFlight : List Flight
  settled : List (ℕ × Option Json)
  fetches : List Fetched
  completed : List Invalidation
  returns : List Return

/-- `fetched` is none where the fetch fails; `more` says that the cursor is not at its end, `found`
that a key which was not present throughout is listed. -/
structure Outcome (number : List Char → Option Numeral) where
  fails : Bool
  fetched : Option (Value number)
  more : Bool
  found : Bool

inductive Request where
  | wrap (process : ProcessId)
  | cacheDelete
  | cacheInvalidatePattern
  | expire

/-- A running call, named after its next step, with the time at which it began. `since` is the count
of absences at the first `SCAN`, if the key was present. -/
inductive Call (number : List Char → Option Numeral) where
  | wrap (process : ProcessId)
  | get (process : ProcessId) (start : ℕ)
  | look (process : ProcessId) (start : ℕ)
  | fetch (process : ProcessId) (start flight : ℕ)
  | set (process : ProcessId) (start flight : ℕ) (value : Value number)
  | settle (process : ProcessId) (start flight : ℕ) (result : Option Json)
  | await (start flight : ℕ)
  | answer (start fetchedAt : ℕ) (value : Json)
  | cacheDelete
  | cacheInvalidatePattern
  | scan (start : ℕ)
  | scanning (start : ℕ) (since : Option ℕ)
  | delete (start : ℕ)
  | complete (start : ℕ)
  | expire
  | done

namespace Store

def tick (s : Store) : Store := { s with now := s.now + 1 }

def clear (s : Store) : Store := { s with cell := none, absences := s.absences + 1 }

def flightOf (s : Store) (process : ProcessId) : Option Flight :=
  s.inFlight.find? (·.process == process)

/-- What a `GET` finds, and when it was fetched. -/
def read (number : List Char → Option Numeral) (s : Store) : Option (Json × ℕ) :=
  s.cell.bind fun e => (cached number e.raw).map fun value => (value, e.fetchedAt)

end Store

variable {number : List Char → Option Numeral}

/-- After a `SCAN`. -/
def scanned (o : Outcome number) (s : Store) (start : ℕ) (since : Option ℕ) : Call number :=
  if o.fails then .complete start
  else if o.more then .scanning start since
  else if since = some s.absences ∨ o.found = true then .delete start
  else .complete start

def step (o : Outcome number) (s : Store) : Call number → Option (Store × Call number)
  | .wrap process => some (s.tick, .get process s.now)
  | .get process start =>
    match if o.fails then none else s.read number with
    | some (value, fetchedAt) => some (s.tick, .answer start fetchedAt value)
    | none => some (s.tick, .look process start)
  | .look process start =>
    match s.flightOf process with
    | some flight => some (s.tick, .await start flight.startedAt)
    | none => some ({ s with inFlight := ⟨process, s.now⟩ :: s.inFlight }.tick,
        .fetch process start s.now)
  | .fetch process start flight =>
    match o.fetched with
    | none => some (s.tick, .settle process start flight none)
    | some value => some ({ s with fetches := ⟨flight, value.json⟩ :: s.fetches }.tick,
        .set process start flight value)
  | .set process start flight value =>
    some (if o.fails then s.tick else { s with cell := some ⟨rawOf value.json, flight⟩ }.tick,
      .settle process start flight (some value.json))
  | .settle process start flight result =>
    some ({ s with
        inFlight := s.inFlight.filter (· ≠ (⟨process, flight⟩ : Flight))
        settled := (flight, result) :: s.settled }.tick,
      match result with
      | none => .done
      | some value => .answer start flight value)
  | .await start flight =>
    match s.settled.find? (·.1 == flight) with
    | none => none
    | some (_, none) => some (s.tick, .done)
    | some (_, some value) => some (s.tick, .answer start flight value)
  | .answer start fetchedAt value =>
    some ({ s with returns := ⟨start, fetchedAt, value⟩ :: s.returns }.tick, .done)
  | .cacheDelete => some (s.tick, .delete s.now)
  | .cacheInvalidatePattern => some (s.tick, .scan s.now)
  | .scan start =>
    some (s.tick, scanned o s start (if s.cell.isSome then some s.absences else none))
  | .scanning start since => some (s.tick, scanned o s start since)
  | .delete start => some (if o.fails then s.tick else s.clear.tick, .complete start)
  | .complete start =>
    some ({ s with completed := ⟨start, s.now⟩ :: s.completed }.tick, .done)
  | .expire => some (s.clear.tick, .done)
  | .done => none

def program (number : List Char → Option Numeral) :
    Program Store (Call number) Request (Outcome number) where
  enter
    | .wrap process => .wrap process
    | .cacheDelete => .cacheDelete
    | .cacheInvalidatePattern => .cacheInvalidatePattern
    | .expire => .expire
  step := step

def start : Store := ⟨0, none, 0, [], [], [], [], []⟩

/-- What was returned has been fetched, and not before an invalidation that had ended by then. -/
def Transparent (s : Store) : Prop :=
  ∀ r ∈ s.returns, ⟨r.fetchedAt, r.value⟩ ∈ s.fetches ∧
    ∀ i ∈ s.completed, i.endedAt < r.startedAt → i.startedAt ≤ r.fetchedAt

/-- No string is fetched that reads as another JSON value, and no fetch that began before an
invalidation is in flight at its `DEL` or its first `SCAN`, which reach Redis. -/
def Heeds (o : Outcome number) (s : Store) : Call number → Prop
  | .fetch _ _ _ => (o.fetched.all fun value => !misread number value.json) = true
  | .scan start | .delete start =>
    o.fails = false ∧ ∀ flight ∈ s.inFlight, start ≤ flight.startedAt
  | .scanning _ _ => o.fails = false
  | _ => True

instance : ∀ (o : Outcome number) (s : Store) (call : Call number), Decidable (Heeds o s call)
  | _, _, .fetch _ _ _ => inferInstanceAs (Decidable (_ = _))
  | _, _, .scan _ | _, _, .delete _ => inferInstanceAs (Decidable (_ ∧ ∀ flight ∈ _, _))
  | _, _, .scanning _ _ => inferInstanceAs (Decidable (_ = _))
  | _, _, .wrap _ | _, _, .get _ _ | _, _, .look _ _ | _, _, .set _ _ _ _
  | _, _, .settle _ _ _ _ | _, _, .await _ _ | _, _, .answer _ _ _ | _, _, .cacheDelete
  | _, _, .cacheInvalidatePattern | _, _, .complete _ | _, _, .expire | _, _, .done =>
    .isTrue trivial

/-! ## What is read back -/

theorem parse_rawOf (value : Value number) (h : misread number value.json = false) :
    cached number (rawOf value.json) = none ∨ cached number (rawOf value.json) = some value.json := by
  obtain ⟨json, hExact⟩ := value
  have hPrinted : (∀ s, json ≠ .str s) → cached number (rawOf json) = none ∨
      cached number (rawOf json) = some json := by
    intro hOther
    have hRaw : rawOf json = stringify json := by
      cases json with
      | str s => exact absurd rfl (hOther s)
      | null | bool _ | num _ | infinite _ | arr _ | obj _ => rfl
    rw [cached, hRaw, Json.parse_stringify hExact, Option.getD_some]
    cases json with
    | null => exact .inl rfl
    | bool _ | num _ | infinite _ | str _ | arr _ | obj _ => exact .inr rfl
  cases json with
  | str s =>
    simp only [misread] at h
    simp only [cached, rawOf]
    cases hParse : parse number s with
    | none => exact .inr rfl
    | some other =>
      rw [hParse] at h
      cases other with
      | null => exact .inl rfl
      | bool _ | num _ | infinite _ | str _ | arr _ | obj _ => cases h
  | null | bool _ | num _ | infinite _ | arr _ | obj _ => exact hPrinted (by simp)

end FarmBackend.Cache
