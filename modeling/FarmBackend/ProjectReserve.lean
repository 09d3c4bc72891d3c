import FarmBackend.ProjectRounds

/-!
# The reserve of every project, never pooled

All projects share the platform's ledger. A step of a call belongs to one project; it writes that
project's row and appends to the ledger.
-/

namespace FarmBackend.Projects
open Decimal Wallets Fees Interleaving Rows

set_option autoImplicit false

structure Market where
  projects : List Project
  ledger : List FundEntry

namespace Market

def custody (id : ProjectId) (m : Market) : Option Custody :=
  m.projects[id]?.map fun p => ⟨p, m.ledger⟩

def put (id : ProjectId) (s : Custody) (m : Market) : Market where
  projects := m.projects.modify id fun _ => s.project
  ledger := s.ledger

def step (o : Outcome) (m : Market) (c : ProjectId × Call) : Option (Market × ProjectId × Call) := do
  let s ← m.custody c.1
  let next ← Projects.step o s c.2
  return (m.put c.1 next.1, c.1, next.2)

def program : Program Market (ProjectId × Call) (ProjectId × Request) Outcome where
  enter r := (r.1, Projects.enter r.2)
  step := step

theorem step_spec {o : Outcome} {m m' : Market} {c c' : ProjectId × Call}
    (h : step o m c = some (m', c')) :
    ∃ p next, m.projects[c.1]? = some p ∧
      Projects.step o ⟨p, m.ledger⟩ c.2 = some (next, c'.2) ∧ m' = m.put c.1 next ∧ c'.1 = c.1 := by
  simp only [step, custody, Option.bind_eq_bind, Option.bind_eq_some_iff, Option.map_eq_some_iff,
    Option.pure_def, Option.some.injEq, Prod.mk.injEq] at h
  obtain ⟨_, ⟨p, hRow, rfl⟩, ⟨next, call'⟩, hStep, rfl, rfl⟩ := h
  exact ⟨p, next, hRow, hStep, rfl, rfl⟩

/-- What the ledger has in the category is what is left of the fees, project by project. -/
structure Books (m : Market) : Prop where
  coherent : ∀ p ∈ m.projects, p.Coherent
  fund : categoryBalance .consolidationFund m.ledger = (m.projects.map Project.remaining).sum

def Relies (m : Market) (c : ProjectId × Call) : Prop :=
  ∀ p, m.projects[c.1]? = some p → Pending ⟨p, m.ledger⟩ c.2

variable {m : Market} {id : ProjectId} {p : Project} {s : Custody}

theorem put_books (h : m.Books) (hRow : m.projects[id]? = some p) (hKept : Kept ⟨p, m.ledger⟩ s) :
    (m.put id s).Books := by
  constructor
  · intro q hMem
    obtain ⟨i, hAt⟩ := List.mem_iff_getElem?.mp hMem
    rcases getElem?_modify_cases hAt with ⟨_, _, _, rfl⟩ | ⟨_, hOld⟩
    · exact hKept.coherent
    · exact h.coherent q (List.mem_of_getElem? hOld)
  · have hSum := sum_map_modify Project.remaining (fun _ => s.project) hRow
    have hFund := hKept.fund_eq
    have hBooks := h.fund
    simp only [Custody.fund] at hFund
    simp only [put, hSum]
    omega

theorem put_later (hRow : m.projects[id]? = some p) (hKept : Kept ⟨p, m.ledger⟩ s) :
    Related Project.Later m.projects (m.put id s).projects := by
  refine related_modify Project.Later.refl ?_
  intro row hAt
  obtain rfl : p = row := by simpa [hRow] using hAt
  exact hKept.later

theorem Relies.later {m' : Market} {c : ProjectId × Call} (h : Relies m c)
    (hLater : Related Project.Later m.projects m'.projects) : Relies m' c := by
  intro p' hRow'
  obtain ⟨p, hRow, hMoved⟩ := hLater.backward hRow'
  exact (h p hRow).later hMoved

/-- One step keeps the books, and every project is later than it was. -/
theorem step_books {o : Outcome} {m' : Market} {c c' : ProjectId × Call} (h : m.Books)
    (hRelies : Relies m c) (hStep : step o m c = some (m', c')) :
    m'.Books ∧ Related Project.Later m.projects m'.projects ∧ Relies m' c' := by
  obtain ⟨p, next, hRow, hNext, rfl, hId⟩ := step_spec hStep
  have hPending := hRelies p hRow
  have hKept := kept_of_wrote (h.coherent p (List.mem_of_getElem? hRow)) hPending
    (wrote_of_step hNext)
  refine ⟨put_books h hRow hKept, put_later hRow hKept, ?_⟩
  intro p' hRow'
  rw [hId] at hRow'
  have hPut := getElem?_modify_self (fun _ => next.project) hRow
  obtain rfl : next.project = p' := by simpa [put, hPut] using hRow'
  exact (pending_of_step hPending hNext hKept).later (.refl _)

theorem books_reaches {ok : Guard Market (ProjectId × Call) Outcome}
    {c c' : Config Market (ProjectId × Call)} (h : program.Reaches ok c c')
    (hInit : c.store.Books ∧ ∀ call ∈ c.calls, Relies c.store call) :
    (c'.store.Books ∧ Related Project.Later c.store.projects c'.store.projects) ∧
      ∀ call ∈ c'.calls, Relies c'.store call := by
  refine h.assertions (fun m => m.Books ∧ Related Project.Later c.store.projects m.projects) Relies
    ⟨⟨hInit.1, .refl Project.Later.refl _⟩, hInit.2⟩ ?_ ?_ ?_
  · intro request store _ p _
    exact enter_pending request.2 _
  · intro outcome store store' call call' hBooks hRelies _ hStep
    obtain ⟨hBooks', hLater, hRelies'⟩ := step_books hBooks.1 hRelies hStep
    exact ⟨⟨hBooks', hBooks.2.trans (fun _ _ _ => Project.Later.trans) hLater⟩, hRelies'⟩
  · intro outcome store store' call call' other hBooks hRelies hOther _ hStep
    exact hOther.later (step_books hBooks.1 hRelies hStep).2.1

end Market

/-- No fee has been taken and no milestone paid. -/
structure Project.Fresh (p : Project) : Prop where
  feeAt : p.consolidationFeeAt = none
  fee : p.consolidationFee = 0
  refunded : p.consolidationRefunded = 0
  released : p.consolidationReleased = 0
  releasedAmount : p.releasedAmount = 0
  raised : 0 ≤ p.raisedAmount

theorem Project.Fresh.coherent {p : Project} (h : p.Fresh) : p.Coherent where
  unset _ := ⟨h.fee, h.releasedAmount⟩
  reserve := ⟨h.refunded.ge, h.released.ge, by rw [h.fee, h.refunded, h.released]; decide⟩
  raised := h.raised
  releasedAmount := h.releasedAmount.ge
  within := by rw [h.releasedAmount]; exact le_max_left _ _
  ended hAt := absurd h.feeAt hAt

theorem Project.Fresh.remaining {p : Project} (h : p.Fresh) : p.remaining = 0 := by
  simp [Project.remaining, h.fee, h.refunded, h.released]

/-- No fee of any project has been taken, and nothing is booked in the fund. -/
structure Market.Fresh (m : Market) : Prop where
  projects : ∀ p ∈ m.projects, p.Fresh
  fund : categoryBalance .consolidationFund m.ledger = 0

theorem Market.Fresh.books {m : Market} (h : m.Fresh) : m.Books := by
  refine ⟨fun p hMem => (h.projects p hMem).coherent, ?_⟩
  rw [h.fund]
  refine (List.sum_eq_zero ?_).symm
  intro n hMem
  obtain ⟨p, hIn, rfl⟩ := List.mem_map.mp hMem
  exact (h.projects p hIn).remaining

/-- The reserve of each project: within its fee, and together what the ledger has in the category.
The fee of a project is set once, and the amount raised is then fixed. -/
theorem reserve_consistent {start : Market} (hStart : start.Fresh)
    {c c' : Config Market (ProjectId × Call)}
    (h : Market.program.Reaches anyStep (Program.idle start) c)
    (h' : Market.program.Reaches anyStep c c') :
    (∀ p ∈ c'.store.projects, 0 ≤ p.consolidationRefunded + p.consolidationReleased ∧
      p.consolidationRefunded + p.consolidationReleased ≤ p.consolidationFee) ∧
    categoryBalance .consolidationFund c'.store.ledger = (c'.store.projects.map fun p =>
      p.consolidationFee - p.consolidationRefunded - p.consolidationReleased).sum ∧
    ∀ (id : ProjectId) (p p' : Project), c.store.projects[id]? = some p →
      c'.store.projects[id]? = some p' → p.consolidationFeeAt ≠ none →
      p'.consolidationFeeAt = p.consolidationFeeAt ∧ p'.consolidationFee = p.consolidationFee ∧
        p'.raisedAmount = p.raisedAmount := by
  obtain ⟨⟨hBooks, _⟩, hRelies⟩ := Market.books_reaches h ⟨hStart.books, by simp [Program.idle]⟩
  obtain ⟨⟨hBooks', hLater⟩, _⟩ := Market.books_reaches h' ⟨hBooks, hRelies⟩
  refine ⟨?_, hBooks'.fund, ?_⟩
  · intro p hMem
    obtain ⟨hRefunded, hReleased, hLeft⟩ := (hBooks'.coherent p hMem).reserve
    exact ⟨add_nonneg hRefunded hReleased, hLeft⟩
  · intro id p p' hRow hRow' hAt
    obtain ⟨q, hFound, hMoved⟩ := hLater.forward hRow
    rw [hRow'] at hFound
    cases hFound
    obtain ⟨hSame, hFee⟩ := hMoved.fee hAt
    exact ⟨hSame, hFee, hMoved.raised ((hBooks.coherent p (List.mem_of_getElem? hRow)).ended hAt)⟩

def farm : ℤ := 100000000

def listedProject (ownerUserId : UserId) (targetAmount : ℤ) : Project where
  ownerUserId := ownerUserId
  status := .listed
  targetAmount := targetAmount
  raisedAmount := 0
  minimumInvestment := none
  maximumInvestment := none
  endsAt := none
  releasedAmount := 0
  consolidationFee := 0
  consolidationFeeAt := none
  consolidationRefunded := 0
  consolidationReleased := 0
  milestones := [⟨targetAmount, .planned, none⟩]
  investments := []
  refunds := []

theorem listedProject_fresh (ownerUserId : UserId) (targetAmount : ℤ) :
    (listedProject ownerUserId targetAmount).Fresh := ⟨rfl, rfl, rfl, rfl, rfl, le_refl 0⟩

def sixtyForty : Custody where
  project := { listedProject 1 (100 * farm) with
    milestones := [⟨60 * farm, .planned, none⟩, ⟨40 * farm, .planned, none⟩] }
  ledger := []

/-- Every wallet exists and has funds; the fees are three and fifteen percent. -/
def granted (now : Time) : Outcome where
  now := now
  kyb := true
  activeWallet _ := true
  funds := true
  platform := true
  investment := ⟨3, 0, 0, 0⟩
  listing := ⟨15, 0, 0, 0⟩

def twoListed : Market := ⟨[listedProject 1 (100 * farm), listedProject 2 (80 * farm)], []⟩

/-- The first project is funded, and its fee is taken with the investment. -/
def fundFirst : List (Move (ProjectId × Request) Outcome) :=
  [.enter (0, .invest ⟨5, 100⟩), .run 0 (granted 1), .run 0 (granted 2), .run 0 (granted 3)]

/-- The second one is closed at 50 FARM and completed while the first one makes a loss. -/
def completeSecond : List (Move (ProjectId × Request) Outcome) :=
  [.enter (1, .invest ⟨6, 50⟩), .enter (1, .transition ⟨.close, false⟩),
    .enter (1, .request 0 true), .enter (1, .release 0), .enter (1, .releaseReserveToFarm true),
    .enter (0, .refundReserveForLoss true),
    .run 1 (granted 4), .run 1 (granted 4), .run 1 (granted 4),
    .run 2 (granted 5), .run 2 (granted 5), .run 2 (granted 5), .run 2 (granted 5),
    .run 3 (granted 6), .run 3 (granted 6), .run 6 (granted 7), .run 4 (granted 7),
    .run 6 (granted 7), .run 4 (granted 7), .run 6 (granted 7),
    .run 5 (granted 8), .run 5 (granted 8)]

/-- Both fees are gone from the fund, the one to the investor and the other to revenue. -/
theorem two_reserves_spent : ∃ c c', Market.program.Reaches anyStep (Program.idle twoListed) c ∧
    Market.program.Reaches anyStep c c' ∧
    c.store.projects.map (·.consolidationFee) = [15 * farm, 0] ∧
    c'.store.projects.map (·.consolidationFee) = [15 * farm, 750000000] ∧
    c'.store.projects.map (·.consolidationRefunded) = [15 * farm, 0] ∧
    c'.store.projects.map (·.consolidationReleased) = [0, 750000000] ∧
    categoryBalance .consolidationFund c'.store.ledger = (c'.store.projects.map fun p =>
      p.consolidationFee - p.consolidationRefunded - p.consolidationReleased).sum := by
  have hStart : twoListed.Fresh := by
    refine ⟨?_, rfl⟩
    intro p hMem
    simp only [twoListed, List.mem_cons, List.not_mem_nil, or_false] at hMem
    rcases hMem with rfl | rfl <;> exact listedProject_fresh _ _
  have hRuns : (Market.program.schedule fundFirst (Program.idle twoListed)).any (fun c =>
      decide (c.store.projects.map (·.consolidationFee) = [15 * farm, 0]) &&
      (Market.program.schedule completeSecond c).any (fun c' => decide (
        c'.store.projects.map (·.consolidationFee) = [15 * farm, 750000000] ∧
        c'.store.projects.map (·.consolidationRefunded) = [15 * farm, 0] ∧
        c'.store.projects.map (·.consolidationReleased) = [0, 750000000]))) = true := by
    decide +kernel
  obtain ⟨c, hReach, hRest⟩ := Program.reaches_of_any hRuns
  rw [Bool.and_eq_true] at hRest
  obtain ⟨c', hReach', hEnd⟩ := Program.reaches_of_any hRest.2
  obtain ⟨hFees, hRefunded, hReleased⟩ := of_decide_eq_true hEnd
  exact ⟨c, c', hReach, hReach', of_decide_eq_true hRest.1, hFees, hRefunded, hReleased,
    (reserve_consistent hStart hReach hReach').2.1⟩

end FarmBackend.Projects
