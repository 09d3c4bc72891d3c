import Mathlib.Logic.Relation
import Mathlib.Algebra.BigOperators.Group.List.Basic

/-!
# Calls interleaved over one shared store

A service method is a call: a local state that owns what it has read so far. `step` runs its
next atomic step on the store (one database statement, one committed transaction, one answer
of an outside service); `none` says that this await throws, so the call goes no further and
the store keeps what it had. Any number of calls run at once and any of them may move next.

The guard `ok` restricts the runs that are looked at: `fun _ _ _ => True` keeps every run,
another guard keeps the runs in which every step a call takes meets it.
-/

namespace FarmBackend.Interleaving

set_option autoImplicit false

universe u v w x
variable {Store : Type u} {Call : Type v} {Request : Type w} {Outcome : Type x}

/-- What a request starts, and what a running call does next under a given outcome. -/
structure Program (Store : Type u) (Call : Type v) (Request : Type w) (Outcome : Type x) where
  enter : Request → Call
  step : Outcome → Store → Call → Option (Store × Call)

structure Config (Store : Type u) (Call : Type v) where
  store : Store
  calls : List Call

/-- One move of the scheduler. -/
inductive Move (Request : Type w) (Outcome : Type x) where
  | enter (request : Request)
  | run (index : Nat) (outcome : Outcome)

/-- A condition on a step, read before the step is taken. -/
abbrev Guard (Store : Type u) (Call : Type v) (Outcome : Type x) :=
  Outcome → Store → Call → Prop

/-- The guard that every step meets. -/
def anyStep : Guard Store Call Outcome := fun _ _ _ => True

theorem anyStep_holds (outcome : Outcome) (store : Store) (call : Call) :
    anyStep outcome store call := trivial

namespace Program

variable (P : Program Store Call Request Outcome) (ok : Guard Store Call Outcome)

/-- A new call arrives, or one of the running calls takes its next step. -/
inductive Step : Config Store Call → Config Store Call → Prop where
  | enter (request : Request) (store : Store) (calls : List Call) :
      Step ⟨store, calls⟩ ⟨store, calls ++ [P.enter request]⟩
  | call {outcome : Outcome} {store store' : Store} {call call' : Call}
      (before after : List Call) (hOk : ok outcome store call)
      (hStep : P.step outcome store call = some (store', call')) :
      Step ⟨store, before ++ call :: after⟩ ⟨store', before ++ call' :: after⟩

/-- Some run leads from one configuration to another. -/
def Reaches : Config Store Call → Config Store Call → Prop :=
  Relation.ReflTransGen (P.Step ok)

/-- The configuration in which nobody has called yet. -/
def idle (store : Store) : Config Store Call := ⟨store, []⟩

variable {P ok}

theorem Reaches.refl (c : Config Store Call) : P.Reaches ok c c :=
  Relation.ReflTransGen.refl

theorem Reaches.trans {a b c : Config Store Call}
    (hab : P.Reaches ok a b) (hbc : P.Reaches ok b c) : P.Reaches ok a c :=
  Relation.ReflTransGen.trans hab hbc

/-- What one step preserves holds in every configuration a run reaches. -/
theorem Reaches.invariant {c c' : Config Store Call} (h : P.Reaches ok c c')
    (I : Config Store Call → Prop) (hInit : I c)
    (hEnter : ∀ request store calls, I ⟨store, calls⟩ →
      I ⟨store, calls ++ [P.enter request]⟩)
    (hCall : ∀ outcome store store' call call' before after,
      I ⟨store, before ++ call :: after⟩ → ok outcome store call →
      P.step outcome store call = some (store', call') →
      I ⟨store', before ++ call' :: after⟩) : I c' := by
  induction h with
  | refl => exact hInit
  | tail _ hStep ih =>
    cases hStep with
    | enter request store calls => exact hEnter request store calls ih
    | call before after hOk hStep => exact hCall _ _ _ _ _ before after ih hOk hStep

/-- A property of the store alone, kept by every step of every call. -/
theorem Reaches.store_invariant {c c' : Config Store Call} (h : P.Reaches ok c c')
    (I : Store → Prop) (hInit : I c.store)
    (hStep : ∀ outcome store store' call call', I store → ok outcome store call →
      P.step outcome store call = some (store', call') → I store') : I c'.store := by
  refine h.invariant (fun c => I c.store) hInit ?_ ?_
  · intro _ _ _ hI
    exact hI
  · intro outcome store store' call call' _ _ hI hOk hCall
    exact hStep outcome store store' call call' hI hOk hCall

/-- Every call carries an assertion about the store and its own local state. The assertions
hold along every run when each is established on entry, kept by the call's own steps, and
not disturbed by a step of another call. What is known of the reachable configurations, such as
that two calls exclude each other, may be used at each step. -/
theorem Reaches.assertions_among {c c' : Config Store Call} (h : P.Reaches ok c c')
    (G : Store → Prop) (A : Store → Call → Prop)
    (hInit : G c.store ∧ ∀ call ∈ c.calls, A c.store call)
    (hEnter : ∀ request store, G store → A store (P.enter request))
    (hOwn : ∀ outcome store store' call call' before after,
      P.Reaches ok c ⟨store, before ++ call :: after⟩ → G store → A store call →
      ok outcome store call → P.step outcome store call = some (store', call') →
      G store' ∧ A store' call')
    (hOther : ∀ outcome store store' call call' before after other,
      P.Reaches ok c ⟨store, before ++ call :: after⟩ → other ∈ before ++ after →
      G store → A store call → A store other → ok outcome store call →
      P.step outcome store call = some (store', call') → A store' other) :
    G c'.store ∧ ∀ call ∈ c'.calls, A c'.store call := by
  induction h with
  | refl => exact hInit
  | tail hRun hLast ih =>
    obtain ⟨hG, hA⟩ := ih
    cases hLast with
    | enter request store calls =>
      refine ⟨hG, ?_⟩
      intro call hMem
      rcases List.mem_append.mp hMem with hOld | hNew
      · exact hA call hOld
      · rw [List.mem_singleton.mp hNew]
        exact hEnter request store hG
    | @call outcome store store' call call' before after hOk hStep =>
      have hCall : A store call := hA call (by simp)
      obtain ⟨hG', hCall'⟩ := hOwn _ _ _ _ _ before after hRun hG hCall hOk hStep
      refine ⟨hG', ?_⟩
      intro other hMem
      rcases List.mem_append.mp hMem with hBefore | hAfter
      · exact hOther _ _ _ _ _ before after other hRun (by simp [hBefore]) hG hCall
          (hA other (by simp [hBefore])) hOk hStep
      · rcases List.mem_cons.mp hAfter with rfl | hAfter
        · exact hCall'
        · exact hOther _ _ _ _ _ before after other hRun (by simp [hAfter]) hG hCall
            (hA other (by simp [hAfter])) hOk hStep

/-- The same, where the assertions alone are enough. -/
theorem Reaches.assertions {c c' : Config Store Call} (h : P.Reaches ok c c')
    (G : Store → Prop) (A : Store → Call → Prop)
    (hInit : G c.store ∧ ∀ call ∈ c.calls, A c.store call)
    (hEnter : ∀ request store, G store → A store (P.enter request))
    (hOwn : ∀ outcome store store' call call', G store → A store call →
      ok outcome store call → P.step outcome store call = some (store', call') →
      G store' ∧ A store' call')
    (hOther : ∀ outcome store store' call call' other, G store → A store call →
      A store other → ok outcome store call →
      P.step outcome store call = some (store', call') → A store' other) :
    G c'.store ∧ ∀ call ∈ c'.calls, A c'.store call := by
  refine h.assertions_among G A hInit hEnter ?_ ?_
  · intro outcome store store' call call' _ _ _ hG hA hOk hStep
    exact hOwn outcome store store' call call' hG hA hOk hStep
  · intro outcome store store' call call' _ _ other _ _ hG hA hOther' hOk hStep
    exact hOther outcome store store' call call' other hG hA hOther' hOk hStep

/-! The same steps, computed: a schedule is a list of moves. -/

variable (P)

/-- One move; `none` when the call named does not exist or its await throws. -/
def move (m : Move Request Outcome) (c : Config Store Call) : Option (Config Store Call) :=
  match m with
  | .enter request => some ⟨c.store, c.calls ++ [P.enter request]⟩
  | .run index outcome =>
    match c.calls[index]? with
    | none => none
    | some call =>
      match P.step outcome c.store call with
      | none => none
      | some (store', call') => some ⟨store', c.calls.set index call'⟩

def schedule : List (Move Request Outcome) → Config Store Call → Option (Config Store Call)
  | [], c => some c
  | m :: moves, c =>
    match P.move m c with
    | none => none
    | some c' => schedule moves c'

variable {P}

theorem step_of_move {m : Move Request Outcome} {c c' : Config Store Call}
    (h : P.move m c = some c') : P.Step anyStep c c' := by
  obtain ⟨store, calls⟩ := c
  cases m with
  | enter request =>
    simp only [move, Option.some.injEq] at h
    subst h
    exact .enter request store calls
  | run index outcome =>
    simp only [move] at h
    split at h
    · cases h
    · rename_i call hCall
      split at h
      · cases h
      · rename_i store' call' hStep
        simp only [Option.some.injEq] at h
        subst h
        obtain ⟨hIndex, hGet⟩ := List.getElem?_eq_some_iff.mp hCall
        have hSplit : calls.take index ++ call :: calls.drop (index + 1) = calls := by
          rw [← hGet, List.getElem_cons_drop, List.take_append_drop]
        have hSet : calls.set index call' =
            calls.take index ++ call' :: calls.drop (index + 1) := by
          rw [List.set_eq_take_append_cons_drop, if_pos hIndex]
        have hMove : P.Step anyStep ⟨store, calls.take index ++ call :: calls.drop (index + 1)⟩
            ⟨store', calls.take index ++ call' :: calls.drop (index + 1)⟩ :=
          .call _ _ (anyStep_holds _ _ _) hStep
        rwa [hSplit, ← hSet] at hMove

theorem reaches_of_schedule {moves : List (Move Request Outcome)} {c c' : Config Store Call}
    (h : P.schedule moves c = some c') : P.Reaches anyStep c c' := by
  induction moves generalizing c with
  | nil =>
    simp only [schedule, Option.some.injEq] at h
    subst h
    exact .refl c
  | cons m moves ih =>
    simp only [schedule] at h
    split at h
    · cases h
    · rename_i c₁ hMove
      exact Relation.ReflTransGen.head (step_of_move hMove) (ih h)

/-- Every configuration along a computed schedule satisfies what the steps preserve. -/
theorem reaches_of_move {m : Move Request Outcome} {c c' : Config Store Call}
    (h : P.move m c = some c') : P.Reaches anyStep c c' :=
  Relation.ReflTransGen.single (step_of_move h)

/-- The program whose calls stop where the guard fails; it computes the runs under a guard. -/
def guarded (P : Program Store Call Request Outcome) (ok : Guard Store Call Outcome)
    [∀ o s c, Decidable (ok o s c)] : Program Store Call Request Outcome where
  enter := P.enter
  step outcome store call := if ok outcome store call then P.step outcome store call else none

theorem reaches_of_guarded [∀ o s c, Decidable (ok o s c)] {c c' : Config Store Call}
    (h : (P.guarded ok).Reaches anyStep c c') : P.Reaches ok c c' := by
  refine Relation.ReflTransGen.mono ?_ _ _ h
  intro a b hab
  cases hab with
  | enter request store calls => exact .enter request store calls
  | call before after _ hStep =>
    simp only [guarded, Option.ite_none_right_eq_some] at hStep
    exact .call before after hStep.1 hStep.2

/-! A schedule whose end has a property, such as one that `decide` has checked. -/

theorem reaches_of_any {moves : List (Move Request Outcome)} {c : Config Store Call}
    {p : Config Store Call → Bool} (h : (P.schedule moves c).any p = true) :
    ∃ c', P.Reaches anyStep c c' ∧ p c' = true := by
  obtain ⟨c', hRun, hEnd⟩ := (Option.any_eq_true _ _).mp h
  exact ⟨c', reaches_of_schedule hRun, hEnd⟩

theorem reaches_of_guarded_any [∀ o s c, Decidable (ok o s c)]
    {moves : List (Move Request Outcome)} {c : Config Store Call} {p : Config Store Call → Bool}
    (h : ((P.guarded ok).schedule moves c).any p = true) :
    ∃ c', P.Reaches ok c c' ∧ p c' = true := by
  obtain ⟨c', hReach, hEnd⟩ := reaches_of_any h
  exact ⟨c', reaches_of_guarded hReach, hEnd⟩

/-! How often a property of the store is lost along a schedule. -/

variable (P) (p q : Store → Bool)

def losses : List (Move Request Outcome) → Config Store Call → ℕ
  | [], _ => 0
  | m :: moves, c =>
    match P.move m c with
    | none => 0
    | some c' => (if p c.store && !p c'.store then 1 else 0) + losses moves c'

variable {P p q}

/-- Let `q` never be lost, `p` be part of `q`, and a step that brings `q` bring `p` with it. If no
step brings `p` back, then `p` is lost exactly once by the time it is gone while `q` holds. -/
theorem losses_add {c₀ : Config Store Call}
    (hPart : ∀ c, P.Reaches anyStep c₀ c → p c.store = true → q c.store = true)
    (hStep : ∀ c c', P.Reaches anyStep c₀ c → P.Step anyStep c c' →
      (q c.store = true → q c'.store = true ∧ (p c.store = false → p c'.store = false)) ∧
      (q c.store = false → q c'.store = true → p c'.store = true))
    {moves : List (Move Request Outcome)} {c c' : Config Store Call}
    (hReach : P.Reaches anyStep c₀ c) (h : P.schedule moves c = some c') :
    P.losses p moves c + (p c'.store).toNat + (q c.store).toNat =
      (q c'.store).toNat + (p c.store).toNat := by
  induction moves generalizing c with
  | nil =>
    simp only [schedule, Option.some.injEq] at h
    subst h
    simp only [losses]
    omega
  | cons m moves ih =>
    simp only [schedule] at h
    split at h
    · cases h
    · rename_i c₁ hMove
      have hReach₁ : P.Reaches anyStep c₀ c₁ := hReach.trans (reaches_of_move hMove)
      have hRest := ih hReach₁ h
      have hPart₀ := hPart c hReach
      have hPart₁ := hPart c₁ hReach₁
      obtain ⟨hKeep, hBring⟩ := hStep c c₁ hReach (step_of_move hMove)
      simp only [losses, hMove]
      cases hp : p c.store <;> cases hq : q c.store <;> cases hp₁ : p c₁.store <;>
        cases hq₁ : q c₁.store <;> simp_all
      all_goals omega

end Program

end FarmBackend.Interleaving
