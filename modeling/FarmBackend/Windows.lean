import Mathlib.Data.List.Nodup
import Mathlib.Order.WellFounded

/-!
# Passes over the head of a queue

A pass looks at the first `n` items of a queue and removes those that are ready; the others keep their
place. Which items are ready may change from pass to pass.
-/

namespace FarmBackend.Windows

set_option autoImplicit false

universe u
variable {α : Type u}

def pass (n : ℕ) (ready : α → Bool) (queue : List α) : List α :=
  (queue.take n).filter (fun x => !ready x) ++ queue.drop n

def passes (n : ℕ) (ready : ℕ → α → Bool) (queue : List α) : ℕ → List α
  | 0 => queue
  | k + 1 => pass n (ready k) (passes n ready queue k)

/-- There are `n` items before `x` that are not ready now and never will be. -/
def Blocked (n : ℕ) (ready : ℕ → α → Bool) (queue : List α) (x : α) (k : ℕ) : Prop :=
  ∃ block : List α, block.length = n ∧ (block ++ [x]).Sublist (passes n ready queue k) ∧
    ∀ y ∈ block, ∀ j, k ≤ j → ready j y = false

section Pass
variable {n : ℕ} {ready : α → Bool} {queue block : List α} {x : α}

theorem pass_sublist (n : ℕ) (ready : α → Bool) (queue : List α) :
    (pass n ready queue).Sublist queue := by
  have hTake : ((queue.take n).filter fun x => !ready x).Sublist (queue.take n) :=
    List.filter_sublist
  have hBoth := hTake.append (List.Sublist.refl (queue.drop n))
  rwa [List.take_append_drop] at hBoth

theorem mem_pass_of_not_ready (hMem : x ∈ queue) (hNot : ready x = false) :
    x ∈ pass n ready queue := by
  rw [← List.take_append_drop n queue, List.mem_append] at hMem
  rcases hMem with hHead | hTail
  · exact List.mem_append_left _ (List.mem_filter.mpr ⟨hHead, by rw [hNot]; rfl⟩)
  · exact List.mem_append_right _ hTail

theorem pass_eq_filter [DecidableEq α] (hNodup : queue.Nodup) :
    pass n ready queue = queue.filter fun x => !(decide (x ∈ queue.take n) && ready x) := by
  have hSplit := List.take_append_drop n queue
  have hApart : ∀ x ∈ queue.drop n, x ∉ queue.take n := by
    rw [← hSplit] at hNodup
    intro x hTail hHead
    exact List.disjoint_of_nodup_append hNodup hHead hTail
  conv_rhs => rw [← hSplit, List.filter_append]
  rw [pass, hSplit]
  congr 1
  · apply List.filter_congr
    intro x hHead
    rw [decide_eq_true hHead, Bool.true_and]
  · symm
    apply List.filter_eq_self.mpr
    intro x hTail
    rw [decide_eq_false (hApart x hTail), Bool.false_and, Bool.not_false]

/-- What is behind `n` items that are not ready stays there. -/
theorem blocked_pass (hLength : block.length = n) (hBlock : (block ++ [x]).Sublist queue)
    (hNot : ∀ y ∈ block, ready y = false) : (block ++ [x]).Sublist (pass n ready queue) := by
  rw [← List.take_append_drop n queue] at hBlock
  obtain ⟨head, tail, hSplit, hHead, hTail⟩ := List.sublist_append_iff.mp hBlock
  have hShort : head.length ≤ n := hHead.length_le.trans (List.length_take_le n queue)
  have hPrefix : head <+: block := by
    have hBefore : head <+: block ++ [x] := ⟨tail, hSplit.symm⟩
    exact List.prefix_of_prefix_length_le hBefore (List.prefix_append block [x]) (by omega)
  have hKept : head.filter (fun y => !ready y) = head := by
    apply List.filter_eq_self.mpr
    intro y hMem
    rw [hNot y (hPrefix.subset hMem)]
    rfl
  rw [hSplit, pass]
  exact (hKept ▸ hHead.filter _).append hTail

/-- A pass that removes nothing has found nothing ready. -/
theorem not_ready_of_pass_eq (h : pass n ready queue = queue) :
    ∀ y ∈ queue.take n, ready y = false := by
  have hSame : (queue.take n).filter (fun y => !ready y) = queue.take n := by
    apply (List.append_left_inj (queue.drop n)).mp
    rw [List.take_append_drop]
    exact h
  intro y hMem
  exact Bool.not_eq_true' _ ▸ List.filter_eq_self.mp hSame y hMem

end Pass

section Passes
variable {n : ℕ} {ready : ℕ → α → Bool} {queue : List α} {x : α}

theorem passes_sublist {j k : ℕ} (hLe : j ≤ k) :
    (passes n ready queue k).Sublist (passes n ready queue j) := by
  induction hLe with
  | refl => exact List.Sublist.refl _
  | step _ ih => exact (pass_sublist n _ _).trans ih

theorem mem_passes_of_never_ready (hMem : x ∈ queue) (hNever : ∀ k, ready k x = false) (k : ℕ) :
    x ∈ passes n ready queue k := by
  induction k with
  | zero => exact hMem
  | succ k ih => exact mem_pass_of_not_ready ih (hNever k)

theorem mem_passes_of_blocked {k : ℕ} (h : Blocked n ready queue x k) (j : ℕ) :
    x ∈ passes n ready queue j := by
  obtain ⟨block, hLength, hBlock, hNever⟩ := h
  have hLater : ∀ j, k ≤ j → (block ++ [x]).Sublist (passes n ready queue j) := by
    intro j hLe
    induction hLe with
    | refl => exact hBlock
    | step hLe ih => exact blocked_pass hLength ih fun y hMem => hNever y hMem _ hLe
  rcases Nat.le_total k j with hAfter | hBefore
  · exact (hLater j hAfter).subset (by simp)
  · exact (passes_sublist hBefore).subset (hBlock.subset (by simp))

/-- From some pass on nothing is removed any more. -/
theorem exists_passes_eq (n : ℕ) (ready : ℕ → α → Bool) (queue : List α) :
    ∃ k, ∀ j, k ≤ j → passes n ready queue j = passes n ready queue k := by
  let lengths : Set ℕ := Set.range fun k => (passes n ready queue k).length
  obtain ⟨least, ⟨k, hLeast⟩, hMin⟩ :=
    (wellFounded_lt (α := ℕ)).has_min lengths (Set.range_nonempty _)
  refine ⟨k, ?_⟩
  intro j hLe
  apply (passes_sublist hLe).eq_of_length_le
  have hNotLess := hMin _ ⟨j, rfl⟩
  simp only at hLeast hNotLess
  omega

/-- An item that is always ready leaves the queue unless it is blocked for good. -/
theorem leaves_iff_not_blocked (hReady : ∀ k, ready k x = true) :
    (∃ k, x ∉ passes n ready queue k) ↔ ¬∃ k, Blocked n ready queue x k := by
  constructor
  · rintro ⟨j, hLeft⟩ ⟨k, hBlocked⟩
    exact hLeft (mem_passes_of_blocked hBlocked j)
  · intro hFree
    by_contra hStays
    push Not at hStays
    obtain ⟨k, hSame⟩ := exists_passes_eq n ready queue
    have hNever : ∀ y ∈ (passes n ready queue k).take n, ∀ j, k ≤ j → ready j y = false := by
      intro y hIn j hLe
      have hPass : pass n (ready j) (passes n ready queue k) = passes n ready queue k := by
        have hNext := hSame (j + 1) (by omega)
        rwa [passes, hSame j hLe] at hNext
      exact not_ready_of_pass_eq hPass y hIn
    have hHere : x ∈ (passes n ready queue k).take n ++ (passes n ready queue k).drop n := by
      rw [List.take_append_drop]
      exact hStays k
    rcases List.mem_append.mp hHere with hHead | hTail
    · exact Bool.false_ne_true ((hNever x hHead k (Nat.le_refl k)).symm.trans (hReady k))
    · have hLong : n < (passes n ready queue k).length := by
        have hPos := List.length_pos_of_mem hTail
        rw [List.length_drop] at hPos
        omega
      refine hFree ⟨k, (passes n ready queue k).take n, List.length_take_of_le hLong.le, ?_, hNever⟩
      have hBoth := (List.Sublist.refl ((passes n ready queue k).take n)).append
        (List.singleton_sublist.mpr hTail)
      rwa [List.take_append_drop] at hBoth

end Passes

end FarmBackend.Windows
