import FarmBackend.Interleaving

/-!
# Calls one after the other

A call that runs alone takes its steps until one of them throws or nothing is left. In a serial run
every call has ended before the next one starts. The guard is the one of interleaved runs: it
restricts the steps that a call takes, and the step that ends it.
-/

namespace FarmBackend.Interleaving.Program

set_option autoImplicit false

universe u v w x
variable {Store : Type u} {Call : Type v} {Request : Type w} {Outcome : Type x}
variable (P : Program Store Call Request Outcome) (ok : Guard Store Call Outcome)

inductive Alone : Store → Call → Store → Prop where
  | ends {outcome : Outcome} {store : Store} {call : Call} (hOk : ok outcome store call)
      (hStep : P.step outcome store call = none) : Alone store call store
  | next {outcome : Outcome} {store store' final : Store} {call call' : Call}
      (hOk : ok outcome store call) (hStep : P.step outcome store call = some (store', call'))
      (hRest : Alone store' call' final) : Alone store call final

/-- Some list of requests, run one after the other, leads from one store to another. -/
def Serial : Store → Store → Prop :=
  Relation.ReflTransGen fun store store' => ∃ request, P.Alone ok store (P.enter request) store'

/-- The same calls, where an await may also fail of itself. -/
def lossy : Program Store Call Request (Option Outcome) where
  enter := P.enter
  step answer store call := answer.bind fun outcome => P.step outcome store call

variable {P ok}

theorem Serial.refl (store : Store) : P.Serial ok store store := Relation.ReflTransGen.refl

theorem Serial.trans {a b c : Store} (hab : P.Serial ok a b) (hbc : P.Serial ok b c) :
    P.Serial ok a c := Relation.ReflTransGen.trans hab hbc

theorem Serial.single {store store' : Store} (request : Request)
    (h : P.Alone ok store (P.enter request) store') : P.Serial ok store store' :=
  Relation.ReflTransGen.single ⟨request, h⟩

/-- An assertion about a store and the call that runs on it, kept by the steps, gives the invariant
back when the call ends. -/
theorem Alone.invariant {I : Store → Prop} {A : Store → Call → Prop}
    (hStep : ∀ outcome store store' call call', A store call → ok outcome store call →
      P.step outcome store call = some (store', call') → A store' call')
    (hEnd : ∀ outcome store call, A store call → ok outcome store call →
      P.step outcome store call = none → I store)
    {store final : Store} {call : Call} (h : P.Alone ok store call final) (hA : A store call) :
    I final := by
  induction h with
  | ends hOk hNone => exact hEnd _ _ _ hA hOk hNone
  | next hOk hSome _ ih => exact ih (hStep _ _ _ _ _ hA hOk hSome)

/-- Where the guard leaves a step one outcome, a call that runs alone leaves one store. -/
theorem Alone.unique (hOne : ∀ o o' store call, ok o store call → ok o' store call → o = o')
    {store final final' : Store} {call : Call} (h : P.Alone ok store call final)
    (h' : P.Alone ok store call final') : final' = final := by
  induction h with
  | ends hOk hNone =>
    cases h' with
    | ends _ _ => rfl
    | next hOk' hSome _ =>
      rw [hOne _ _ _ _ hOk' hOk, hNone] at hSome
      cases hSome
  | next hOk hSome _ ih =>
    cases h' with
    | ends hOk' hNone =>
      rw [hOne _ _ _ _ hOk' hOk, hSome] at hNone
      cases hNone
    | next hOk' hSome' hRest =>
      rw [hOne _ _ _ _ hOk' hOk, hSome] at hSome'
      cases hSome'
      exact ih hRest

/-- What holds at the start and is given back by every call holds after any serial run. -/
theorem Serial.invariant {I : Store → Prop} {A : Store → Call → Prop}
    (hEnter : ∀ request store, I store → A store (P.enter request))
    (hStep : ∀ outcome store store' call call', A store call → ok outcome store call →
      P.step outcome store call = some (store', call') → A store' call')
    (hEnd : ∀ outcome store call, A store call → ok outcome store call →
      P.step outcome store call = none → I store)
    {store store' : Store} (h : P.Serial ok store store') (hI : I store) : I store' := by
  induction h with
  | refl => exact hI
  | tail _ hCall ih =>
    obtain ⟨request, hAlone⟩ := hCall
    exact hAlone.invariant hStep hEnd (hEnter request _ ih)

instance (outcome : Outcome) (store : Store) (call : Call) :
    Decidable (anyStep outcome store call) := isTrue (anyStep_holds _ _ _)

/-! The same runs, computed under one outcome for each call. -/

variable (P ok) [∀ o s c, Decidable (ok o s c)]

def advance (outcome : Outcome) : ℕ → Store → Call → Store × Call
  | 0, store, call => (store, call)
  | fuel + 1, store, call =>
    match P.step outcome store call with
    | none => (store, call)
    | some (store', call') => advance outcome fuel store' call'

/-- `none` when the fuel is out or the guard fails. -/
def perform (outcome : Outcome) : ℕ → Store → Call → Option Store
  | 0, _, _ => none
  | fuel + 1, store, call =>
    if ok outcome store call then
      match P.step outcome store call with
      | none => some store
      | some (store', call') => perform outcome fuel store' call'
    else none

def performAll (fuel : ℕ) : List (Request × Outcome) → Store → Option Store
  | [], store => some store
  | (request, outcome) :: rest, store =>
    (P.perform ok outcome fuel store (P.enter request)).bind (performAll fuel rest)

variable {P ok}

theorem alone_of_advance {outcome : Outcome} {fuel : ℕ} {store final : Store} {call last : Call}
    (h : P.advance outcome fuel store call = (final, last))
    (hEnd : P.step outcome final last = none) : P.Alone anyStep store call final := by
  induction fuel generalizing store call with
  | zero =>
    simp only [advance, Prod.mk.injEq] at h
    obtain ⟨rfl, rfl⟩ := h
    exact .ends (anyStep_holds _ _ _) hEnd
  | succ fuel ih =>
    simp only [advance] at h
    split at h
    · rename_i hNone
      simp only [Prod.mk.injEq] at h
      obtain ⟨rfl, rfl⟩ := h
      exact .ends (anyStep_holds _ _ _) hNone
    · rename_i hSome
      exact .next (anyStep_holds _ _ _) hSome (ih h)

/-- Where every step lowers a rank, fuel of that rank is enough. -/
theorem step_advance {rank : Call → ℕ}
    (hRank : ∀ outcome store store' call call',
      P.step outcome store call = some (store', call') → rank call' < rank call)
    {outcome : Outcome} {fuel : ℕ} {store : Store} {call : Call} (h : rank call ≤ fuel) :
    P.step outcome (P.advance outcome fuel store call).1
      (P.advance outcome fuel store call).2 = none := by
  induction fuel generalizing store call with
  | zero =>
    cases hStep : P.step outcome store call with
    | none => exact hStep
    | some next =>
      have hLess := hRank _ _ _ _ _ hStep
      omega
  | succ fuel ih =>
    unfold advance
    split
    · rename_i hNone
      exact hNone
    · rename_i hSome
      have hLess := hRank _ _ _ _ _ hSome
      apply ih
      omega

theorem alone_of_perform {outcome : Outcome} {fuel : ℕ} {store final : Store} {call : Call}
    (h : P.perform ok outcome fuel store call = some final) : P.Alone ok store call final := by
  induction fuel generalizing store call with
  | zero => cases h
  | succ fuel ih =>
    simp only [perform, Option.ite_none_right_eq_some] at h
    obtain ⟨hOk, h⟩ := h
    split at h
    · rename_i hNone
      simp only [Option.some.injEq] at h
      subst h
      exact .ends hOk hNone
    · rename_i hSome
      exact .next hOk hSome (ih h)

theorem serial_of_performAll {fuel : ℕ} {requests : List (Request × Outcome)} {store final : Store}
    (h : P.performAll ok fuel requests store = some final) : P.Serial ok store final := by
  induction requests generalizing store with
  | nil =>
    simp only [performAll, Option.some.injEq] at h
    subst h
    exact .refl store
  | cons head rest ih =>
    obtain ⟨request, outcome⟩ := head
    simp only [performAll, Option.bind_eq_some_iff] at h
    obtain ⟨store', hCall, hRest⟩ := h
    exact (Serial.single request (alone_of_perform hCall)).trans (ih hRest)

end FarmBackend.Interleaving.Program
