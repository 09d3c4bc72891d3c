import FarmBackend.Interleaving
import Mathlib.Algebra.GroupWithZero.Nat
import Mathlib.Algebra.Order.BigOperators.Group.List

/-!
# Doing a thing at most once

While the store says the thing is open, nobody has done it and nobody is about to. A call that
takes it closes it, and holds a ticket until it does the thing or gives it up; giving it up may
open it again. Then the thing is done at most once along every run, whoever interleaves.
-/

namespace FarmBackend.Interleaving

set_option autoImplicit false

universe u v w x
variable {Store : Type u} {Call : Type v} {Request : Type w} {Outcome : Type x}

/-- `fired` counts how often the thing was done, `holds` the tickets of a running call. -/
structure Ticket (Store : Type u) (Call : Type v) where
  isOpen : Store → Prop
  fired : Store → ℕ
  holds : Call → ℕ

namespace Ticket
variable (T : Ticket Store Call)

/-- The thing done and about to be done, over all running calls. -/
def spent (c : Config Store Call) : ℕ := T.fired c.store + (c.calls.map T.holds).sum

structure Sound (c : Config Store Call) : Prop where
  spent_le : T.spent c ≤ 1
  open_spent : T.isOpen c.store → T.spent c = 0

/-- A step keeps what the call holds and does, and reopens only against a ticket given back. -/
def Keeps (store : Store) (call : Call) (store' : Store) (call' : Call) : Prop :=
  T.fired store' + T.holds call' ≤ T.fired store + T.holds call ∧
    (T.isOpen store' →
      T.isOpen store ∨ T.fired store' + T.holds call' < T.fired store + T.holds call)

/-- A step takes what was open. -/
def Takes (store : Store) (call : Call) (store' : Store) (call' : Call) : Prop :=
  T.isOpen store ∧ ¬T.isOpen store' ∧
    T.fired store' + T.holds call' ≤ T.fired store + T.holds call + 1

variable {T}

theorem spent_split (store : Store) (call : Call) (before after : List Call) :
    T.spent ⟨store, before ++ call :: after⟩ =
      T.fired store + T.holds call + ((before.map T.holds).sum + (after.map T.holds).sum) := by
  simp only [spent, List.map_append, List.map_cons, List.sum_append, List.sum_cons]
  omega

theorem Sound.step {store store' : Store} {call call' : Call} {before after : List Call}
    (h : T.Sound ⟨store, before ++ call :: after⟩)
    (hStep : T.Keeps store call store' call' ∨ T.Takes store call store' call') :
    T.Sound ⟨store', before ++ call' :: after⟩ := by
  obtain ⟨hLe, hOpen⟩ := h
  rw [spent_split] at hLe
  rw [spent_split] at hOpen
  rcases hStep with ⟨hKeep, hReopen⟩ | ⟨hWas, hClosed, hGain⟩
  · refine ⟨by rw [spent_split]; omega, ?_⟩
    intro hOpen'
    rw [spent_split]
    rcases hReopen hOpen' with hWas | hLess
    · have hZero := hOpen hWas
      omega
    · omega
  · have hZero := hOpen hWas
    refine ⟨by rw [spent_split]; omega, ?_⟩
    intro hOpen'
    exact absurd hOpen' hClosed

theorem Sound.enter {store : Store} {calls : List Call} {call : Call}
    (h : T.Sound ⟨store, calls⟩) (hHolds : T.holds call = 0) :
    T.Sound ⟨store, calls ++ [call]⟩ := by
  have hSpent : T.spent ⟨store, calls ++ [call]⟩ = T.spent ⟨store, calls⟩ := by
    simp [spent, hHolds]
  exact ⟨hSpent.le.trans h.spent_le, fun hOpen => hSpent.trans (h.open_spent hOpen)⟩

theorem Sound.fired_le {c : Config Store Call} (h : T.Sound c) : T.fired c.store ≤ 1 :=
  (Nat.le_add_right _ _).trans h.spent_le

/-- Two calls never hold the same ticket. -/
theorem Sound.apart {store : Store} {call other : Call} {before after : List Call}
    (h : T.Sound ⟨store, before ++ call :: after⟩) (hOther : other ∈ before ++ after) :
    T.fired store + T.holds call + T.holds other ≤ 1 := by
  have hLe := h.spent_le
  obtain ⟨left, right, hSplit⟩ := List.append_of_mem hOther
  rw [spent_split, ← List.sum_append, ← List.map_append, hSplit, List.map_append, List.map_cons,
    List.sum_append, List.sum_cons] at hLe
  omega

theorem Sound.fired_add_le {store : Store} {call : Call} {before after : List Call}
    (h : T.Sound ⟨store, before ++ call :: after⟩) : T.fired store + T.holds call ≤ 1 := by
  have hLe := h.spent_le
  rw [spent_split] at hLe
  omega

theorem Sound.fired_of_open {c : Config Store Call} (h : T.Sound c) (hOpen : T.isOpen c.store) :
    T.fired c.store = 0 :=
  (Nat.add_eq_zero_iff.mp (h.open_spent hOpen)).1

/-- The tickets stay sound along every run whose steps keep or take. What is known of the
reachable configurations may be used at each step. -/
theorem Sound.reaches {P : Program Store Call Request Outcome} {ok : Guard Store Call Outcome}
    {c c' : Config Store Call} (h : P.Reaches ok c c') (hInit : T.Sound c)
    (hEnter : ∀ request, T.holds (P.enter request) = 0)
    (hStep : ∀ outcome store store' call call' before after,
      P.Reaches ok c ⟨store, before ++ call :: after⟩ → ok outcome store call →
      P.step outcome store call = some (store', call') →
      T.Keeps store call store' call' ∨ T.Takes store call store' call') : T.Sound c' := by
  induction h with
  | refl => exact hInit
  | tail hRun hLast ih =>
    cases hLast with
    | enter request store calls => exact ih.enter (hEnter request)
    | call before after hOk hCall =>
      exact ih.step (hStep _ _ _ _ _ before after hRun hOk hCall)

end Ticket

end FarmBackend.Interleaving
