import FarmBackend.Interleaving
import Mathlib.Algebra.GroupWithZero.Nat
import Mathlib.Algebra.Order.BigOperators.Group.List

/-!
# A counter that covers what is owed

A counter in the store is raised before something is taken and lowered when it is given back. What
the store owes and what the running calls hold stay covered by the counter along every run whose
steps each raise it by what they add to the two.
-/

namespace FarmBackend.Interleaving

set_option autoImplicit false

universe u v w x
variable {Store : Type u} {Call : Type v} {Request : Type w} {Outcome : Type x}

structure Quota (Store : Type u) (Call : Type v) where
  counter : Store → ℤ
  owed : Store → ℤ
  holds : Call → ℕ

namespace Quota
variable (Q : Quota Store Call)

def Covered (c : Config Store Call) : Prop :=
  Q.owed c.store + (c.calls.map Q.holds).sum ≤ Q.counter c.store

/-- A step pays for what it adds. -/
def Pays (store : Store) (call : Call) (store' : Store) (call' : Call) : Prop :=
  Q.owed store' + Q.holds call' + Q.counter store ≤
    Q.owed store + Q.holds call + Q.counter store'

variable {Q}

theorem Covered.step {store store' : Store} {call call' : Call} {before after : List Call}
    (h : Q.Covered ⟨store, before ++ call :: after⟩) (hPays : Q.Pays store call store' call') :
    Q.Covered ⟨store', before ++ call' :: after⟩ := by
  unfold Covered at h ⊢
  unfold Pays at hPays
  simp only [List.map_append, List.map_cons, List.sum_append, List.sum_cons] at h ⊢
  push_cast at h ⊢
  omega

theorem Covered.enter {store : Store} {calls : List Call} {call : Call}
    (h : Q.Covered ⟨store, calls⟩) (hHolds : Q.holds call = 0) :
    Q.Covered ⟨store, calls ++ [call]⟩ := by
  unfold Covered at h ⊢
  simpa [hHolds] using h

theorem Covered.owed_le {c : Config Store Call} (h : Q.Covered c) :
    Q.owed c.store ≤ Q.counter c.store := by
  unfold Covered at h
  omega

/-- What is known of the reachable configurations may be used at each step. -/
theorem Covered.reaches {P : Program Store Call Request Outcome} {ok : Guard Store Call Outcome}
    {c c' : Config Store Call} (h : P.Reaches ok c c') (hInit : Q.Covered c)
    (hEnter : ∀ request, Q.holds (P.enter request) = 0)
    (hStep : ∀ outcome store store' call call' before after,
      P.Reaches ok c ⟨store, before ++ call :: after⟩ → ok outcome store call →
      P.step outcome store call = some (store', call') → Q.Pays store call store' call') :
    Q.Covered c' := by
  induction h with
  | refl => exact hInit
  | tail hRun hLast ih =>
    cases hLast with
    | enter request store calls => exact ih.enter (hEnter request)
    | call before after hOk hCall =>
      exact ih.step (hStep _ _ _ _ _ before after hRun hOk hCall)

end Quota

end FarmBackend.Interleaving
