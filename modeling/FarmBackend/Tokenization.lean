import FarmBackend.Ticket
import FarmBackend.Wallets

/-!
# `TokenizationService`

The token request of one project, of which there is at most one row, and the assets that have been
created on chain for it. What an await reads of the project and its investments is given by the
outcome; an await that throws outside of the `try` block is a call that goes no further.
-/

namespace FarmBackend.Tokenization
open Interleaving Wallets

set_option autoImplicit false

inductive TokenStatus where
  | requested
  | rejected
  | creating
  | created
  | failed
  deriving DecidableEq, Repr

inductive ProjectStatus where
  | funded
  | closed
  | other
  deriving DecidableEq, Repr

/-- 1 token unit represents 1 FARM of principal invested. -/
def UNIT_PRICE : ℚ := 1

def tokenizable (status : ProjectStatus) : Bool := status == .funded || status == .closed

/-- An asset as it is created on chain. -/
structure Asset where
  assetName : String
  unitName : String
  total : ℕ
  deriving DecidableEq

structure Token where
  status : TokenStatus
  assetName : String
  unitName : String
  totalUnits : ℕ
  assetId : Option ℕ
  deriving DecidableEq

structure Store where
  token : Option Token
  assets : List Asset
  deriving DecidableEq

structure Project where
  status : ProjectStatus
  raisedAmount : ℚ
  deriving DecidableEq

/-- An investment that is committed or active. -/
structure Investment where
  userId : Option ℕ
  amount : ℚ
  deriving DecidableEq

/-- Names as the method has trimmed and upper-cased them. -/
structure RequestDto where
  assetName : String
  unitName : String
  deriving DecidableEq

structure Allocation where
  userId : ℕ
  units : ℕ
  deriving DecidableEq

inductive Answer where
  | ok
  | badRequest (message : String)
  | notFound (message : String)
  | unavailable (message : String)
  deriving DecidableEq

/-- The calls after `record` know the asset they have created. -/
inductive Call where
  | request (dto : RequestDto)
  | requestWrite (dto : RequestDto) (found : Bool)
  | reject (notes : String)
  | approve
  | readToken
  | investments (token : Token) (project : ProjectStatus)
  | createAsset (token : Token) (allocs : List Allocation)
  | record (asset : ℕ) (allocs : List Allocation)
  | readBack
  | recordFailure (badRequest : Option String)
  | done (answer : Answer)
  deriving DecidableEq

inductive Request where
  | request (dto : RequestDto)
  | reject (notes : String)
  | approve

/-- What an await answers where it does not throw; `asset` is the new asset's id. -/
structure Outcome where
  throws : Bool
  project : Option Project
  investments : List Investment
  asset : ℕ

def isUnitName (unit : String) : Bool :=
  !unit.toList.isEmpty && decide (unit.toList.length ≤ 8) &&
    unit.toList.all fun ch => ('A' ≤ ch && ch ≤ 'Z') || ('0' ≤ ch && ch ≤ '9')

/-- The first check of `request` that fails. -/
def requestRefused (dto : RequestDto) (project : Project) (token : Option Token) : Option String :=
  if tokenizable project.status = false then some "Only funded or closed projects can be tokenized"
  else if project.raisedAmount < UNIT_PRICE then some "Nothing was raised for this project"
  else if token.any fun t => t.status != .rejected then some "Tokenization was already requested"
  else if dto.assetName = "" ∨ 32 < dto.assetName.utf8ByteSize then
    some "asset_name must be 1-32 bytes"
  else if isUnitName dto.unitName = false then some "unit_name must be 1-8 letters or digits"
  else none

def allocations (investments : List Investment) : List Allocation :=
  investments.filterMap fun i =>
    let units := ⌊i.amount / UNIT_PRICE⌋.toNat
    i.userId.bind fun userId => if 0 < units then some ⟨userId, units⟩ else none

def totalOf (allocs : List Allocation) : ℕ := (allocs.map Allocation.units).sum

def isPending (token : Option Token) : Bool :=
  token.any fun t => t.status == .requested || t.status == .failed

def Store.setStatus (s : Store) (status : TokenStatus) : Store :=
  { s with token := s.token.map fun t => { t with status := status } }

def step (o : Outcome) (s : Store) : Call → Option (Store × Call)
  | .request dto =>
    if o.throws then none
    else match o.project with
      | none => some (s, .done (.notFound "Project not found"))
      | some project =>
        match requestRefused dto project s.token with
        | some message => some (s, .done (.badRequest message))
        | none => some (s, .requestWrite dto s.token.isSome)
  | .requestWrite dto found =>
    if o.throws then none
    else if found then
      -- `update` by the id of the row that was read, whatever its status is by now
      some ({ s with token := s.token.map fun t => { t with
        status := .requested, assetName := dto.assetName, unitName := dto.unitName,
        totalUnits := 0 } }, .done .ok)
    else if s.token = none then
      some ({ s with token := some ⟨.requested, dto.assetName, dto.unitName, 0, none⟩ }, .done .ok)
    else none
  | .reject notes =>
    if notes = "" then some (s, .done (.badRequest "Notes are required"))
    else if o.throws then none
    else if isPending s.token then some (s.setStatus .rejected, .done .ok)
    else some (s, .done (.badRequest "Request is not pending"))
  | .approve =>
    if o.throws then none
    else if isPending s.token then some (s.setStatus .creating, .readToken)
    else some (s, .done (.badRequest "Request is not pending"))
  | .readToken =>
    if o.throws then none
    else match s.token, o.project with
      | some token, some project => some (s, .investments token project.status)
      | _, _ => some (s, .done (.notFound "Token request not found"))
  | .investments token project =>
    if tokenizable project = false then
      some (s, .recordFailure (some "Project is no longer funded/closed"))
    else if o.throws then some (s, .recordFailure none)
    else if totalOf (allocations o.investments) ≤ 0 then
      some (s, .recordFailure (some "No investments to tokenize"))
    else some (s, .createAsset token (allocations o.investments))
  | .createAsset token allocs =>
    -- the call creates an asset exactly when it returns
    if o.throws then some (s, .recordFailure none)
    else some ({ s with assets := s.assets ++ [⟨token.assetName, token.unitName, totalOf allocs⟩] },
      .record o.asset allocs)
  | .record asset allocs =>
    if o.throws then some (s, .recordFailure none)
    else some ({ s with token := s.token.map fun t => { t with
      status := .created, totalUnits := totalOf allocs, assetId := some asset } }, .readBack)
  | .readBack =>
    if o.throws then some (s, .recordFailure none) else some (s, .done .ok)
  | .recordFailure badRequest =>
    if o.throws then none
    else some (s.setStatus .failed, .done (match badRequest with
      | some message => .badRequest message
      | none => .unavailable "Asset creation failed; you can retry"))
  | .done _ => none

def program : Program Store Call Request Outcome where
  enter
    | .request dto => .request dto
    | .reject notes => .reject notes
    | .approve => .approve
  step := step

/-! ## When one asset is created at most -/

/-- Whether the step keeps the asset on record: nothing fails after the asset was created, and a
request that read a rejected row does not overwrite one that is being created or was. -/
def keepsRecord (o : Outcome) (s : Store) : Call → Bool
  | .record _ _ | .readBack => !o.throws
  | .requestWrite _ true =>
    s.token.all fun t => t.status != .creating && t.status != .created
  | _ => true

abbrev KeepsRecord : Guard Store Call Outcome := fun o s call => keepsRecord o s call = true

/-- No asset was created and nobody is about to create one. -/
def Store.Open (s : Store) : Prop :=
  ∀ t, s.token = some t → t.status ≠ .creating ∧ t.status ≠ .created

/-- An approval between its claim and the asset, or its failure. -/
def Call.minting : Call → ℕ
  | .readToken | .investments _ _ | .createAsset _ _ | .recordFailure _ => 1
  | _ => 0

def assetTicket : Ticket Store Call where
  isOpen := Store.Open
  fired s := s.assets.length
  holds := Call.minting

section Steps
variable {o : Outcome} {s s' : Store} {call call' : Call} {status : TokenStatus}

theorem open_of_isPending (h : isPending s.token = true) : s.Open := by
  intro t hToken
  rw [hToken, isPending, Option.any_some, Bool.or_eq_true] at h
  rcases h with h | h
  · simp [beq_iff_eq.mp h]
  · simp [beq_iff_eq.mp h]

theorem not_open_setStatus {t : Token} (hToken : s.token = some t) :
    ¬(s.setStatus .creating).Open := by
  intro hOpen
  have hStatus := hOpen { t with status := .creating } (by simp [Store.setStatus, hToken])
  exact hStatus.1 rfl

theorem keeps_of_quiet (hAssets : s'.assets = s.assets) (hMinting : call'.minting ≤ call.minting)
    (hOpen : s'.Open → s.Open) : assetTicket.Keeps s call s' call' := by
  refine ⟨?_, fun h => .inl (hOpen h)⟩
  simp only [assetTicket, hAssets]
  omega

theorem ticket_of_step (hOk : KeepsRecord o s call) (hStep : step o s call = some (s', call')) :
    assetTicket.Keeps s call s' call' ∨ assetTicket.Takes s call s' call' := by
  cases call with
  | request dto =>
    left
    simp only [step] at hStep
    split at hStep
    · cases hStep
    · split at hStep
      · cases hStep
        exact keeps_of_quiet rfl (le_refl 0) id
      · split at hStep
        all_goals
          cases hStep
          exact keeps_of_quiet rfl (le_refl 0) id
  | requestWrite dto found =>
    left
    simp only [step] at hStep
    split at hStep
    · cases hStep
    · cases found with
      | true =>
        rw [if_pos rfl] at hStep
        cases hStep
        refine keeps_of_quiet rfl (le_refl 0) ?_
        intro _ t hToken
        simpa [KeepsRecord, keepsRecord, hToken] using hOk
      | false =>
        rw [if_neg Bool.false_ne_true, Option.ite_none_right_eq_some] at hStep
        obtain ⟨hNone, hStep⟩ := hStep
        cases hStep
        refine keeps_of_quiet rfl (le_refl 0) ?_
        intro _ t hToken
        rw [hNone] at hToken
        cases hToken
  | reject notes =>
    left
    simp only [step] at hStep
    split at hStep
    · cases hStep
      exact keeps_of_quiet rfl (le_refl 0) id
    · split at hStep
      · cases hStep
      · split at hStep
        · rename_i hPending
          cases hStep
          exact keeps_of_quiet rfl (le_refl 0) fun _ => open_of_isPending hPending
        · cases hStep
          exact keeps_of_quiet rfl (le_refl 0) id
  | approve =>
    simp only [step] at hStep
    split at hStep
    · cases hStep
    · split at hStep
      · rename_i hPending
        cases hStep
        right
        obtain ⟨t, hToken⟩ : ∃ t, s.token = some t := by
          rw [← Option.isSome_iff_exists]
          cases hToken : s.token with
          | none => simp [isPending, hToken] at hPending
          | some t => rfl
        exact ⟨open_of_isPending hPending, not_open_setStatus hToken, le_refl _⟩
      · cases hStep
        left
        exact keeps_of_quiet rfl (le_refl 0) id
  | readToken =>
    left
    simp only [step] at hStep
    split at hStep
    · cases hStep
    · split at hStep
      all_goals
        cases hStep
        exact keeps_of_quiet rfl (by simp [Call.minting]) id
  | investments token project =>
    left
    simp only [step] at hStep
    split at hStep
    · cases hStep
      exact keeps_of_quiet rfl (le_refl 1) id
    · split at hStep
      · cases hStep
        exact keeps_of_quiet rfl (le_refl 1) id
      · split at hStep
        all_goals
          cases hStep
          exact keeps_of_quiet rfl (le_refl 1) id
  | createAsset token allocs =>
    left
    simp only [step] at hStep
    split at hStep
    · cases hStep
      exact keeps_of_quiet rfl (le_refl 1) id
    · cases hStep
      refine ⟨?_, fun hOpen => .inl hOpen⟩
      simp [assetTicket, Call.minting]
  | record asset allocs =>
    left
    have hNot : o.throws = false := by simpa [KeepsRecord, keepsRecord] using hOk
    simp only [step, hNot, Bool.false_eq_true, if_false, Option.some.injEq, Prod.mk.injEq] at hStep
    obtain ⟨rfl, rfl⟩ := hStep
    refine keeps_of_quiet rfl (le_refl 0) ?_
    intro hOpen t hToken
    have hCreated := hOpen { t with
      status := .created, totalUnits := totalOf allocs, assetId := some asset } (by simp [hToken])
    exact absurd rfl hCreated.2
  | readBack =>
    left
    have hNot : o.throws = false := by simpa [KeepsRecord, keepsRecord] using hOk
    simp only [step, hNot, Bool.false_eq_true, if_false, Option.some.injEq, Prod.mk.injEq] at hStep
    obtain ⟨rfl, rfl⟩ := hStep
    exact keeps_of_quiet rfl (le_refl 0) id
  | recordFailure badRequest =>
    left
    simp only [step] at hStep
    split at hStep
    · cases hStep
    · cases hStep
      refine ⟨?_, fun _ => .inr ?_⟩
      all_goals simp [assetTicket, Call.minting, Store.setStatus]
  | done answer => cases hStep

end Steps

/-- Where every step keeps the asset on record, at most one is ever created. -/
theorem asset_created_once {start : Store} {c : Config Store Call}
    (hStart : start.assets = [])
    (h : program.Reaches KeepsRecord (Program.idle start) c) : c.store.assets.length ≤ 1 := by
  have hInit : assetTicket.Sound (Program.idle start) := by
    refine ⟨?_, fun _ => ?_⟩
    all_goals simp [Ticket.spent, Program.idle, assetTicket, hStart]
  refine (Ticket.Sound.reaches h hInit ?_ ?_).fired_le
  · intro request
    cases request <;> rfl
  · intro o s s' call call' _ _ _ hOk hStep
    exact ticket_of_step hOk hStep

/-! A project that raised 100 FARM of one investor. -/

namespace Sample

def start : Store := ⟨none, []⟩

def outcome : Outcome := ⟨false, some ⟨.funded, 100⟩, [⟨some 1, 100⟩], 7⟩

def throwing : Outcome := { outcome with throws := true }

/-- The request, then an approval up to the asset. -/
def toRecord : List (Move Request Outcome) :=
  [.enter (.request ⟨"Farm One", "FARM1"⟩), .run 0 outcome, .run 0 outcome, .enter .approve,
    .run 1 outcome, .run 1 outcome, .run 1 outcome, .run 1 outcome]

end Sample

/-- The transaction that records the asset fails, the approval is retried, and there are two. -/
theorem asset_created_twice : ∃ c, program.Reaches anyStep (Program.idle Sample.start) c ∧
    c.store.assets.length = 2 := by
  have hRun : (program.schedule (Sample.toRecord ++ [.run 1 Sample.throwing, .run 1 Sample.outcome,
      .enter .approve, .run 2 Sample.outcome, .run 2 Sample.outcome, .run 2 Sample.outcome,
      .run 2 Sample.outcome]) (Program.idle Sample.start)).any
        (fun c => decide (c.store.assets.length = 2)) = true := by
    decide +kernel
  obtain ⟨c, hReach, hTwo⟩ := Program.reaches_of_any hRun
  exact ⟨c, hReach, of_decide_eq_true hTwo⟩

theorem asset_created_and_recorded : ∃ c : Config Store Call,
    (c.store.token.map Token.status) = some .created ∧ c.store.assets ≠ [] ∧
      c.store.assets.length ≤ 1 := by
  have hRun : ((program.guarded KeepsRecord).schedule
      (Sample.toRecord ++ [.run 1 Sample.outcome, .run 1 Sample.outcome])
      (Program.idle Sample.start)).any (fun c => decide (
        (c.store.token.map Token.status) = some .created ∧ c.store.assets ≠ [])) = true := by
    decide +kernel
  obtain ⟨c, hSchedule, hCreated, hSome⟩ := by
    simpa only [Option.any_eq_true, decide_eq_true_eq] using hRun
  exact ⟨c, hCreated, hSome, asset_created_once rfl
    (Program.reaches_of_guarded (Program.reaches_of_schedule hSchedule))⟩

end FarmBackend.Tokenization
