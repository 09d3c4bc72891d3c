import Mathlib.Algebra.BigOperators.Group.Finset.Basic
import Mathlib.Algebra.Order.Interval.Finset.SuccPred

/-!
# Tables with a unique key

A batch of rows is inserted one row after the other, and a row whose key is taken is skipped. The
table then adds up to the values of the keys it holds, whatever was inserted and how often.
-/

namespace FarmBackend.KeyedTable

set_option autoImplicit false

universe u v w
variable {Row : Type u} {Key : Type v} [DecidableEq Key] (key : Row → Key)

def keys (table : List Row) : List Key := table.map key

def insertNew (table : List Row) (row : Row) : List Row :=
  if key row ∈ keys key table then table else table ++ [row]

def insertMany (table batch : List Row) : List Row := batch.foldl (insertNew key) table

variable {key} {table batch : List Row} {row : Row} {k : Key}

theorem mem_keys_insertNew :
    k ∈ keys key (insertNew key table row) ↔ k ∈ keys key table ∨ k = key row := by
  unfold insertNew
  split
  · rename_i hTaken
    constructor
    · exact Or.inl
    · rintro (hOld | rfl)
      · exact hOld
      · exact hTaken
  · simp [keys]

theorem mem_keys_insertMany :
    k ∈ keys key (insertMany key table batch) ↔ k ∈ keys key table ∨ k ∈ keys key batch := by
  induction batch generalizing table with
  | nil => simp [insertMany, keys]
  | cons row batch ih =>
    have hRest := @ih (insertNew key table row)
    rw [insertMany, List.foldl_cons, ← insertMany, hRest, mem_keys_insertNew, or_assoc]
    apply or_congr_right
    rw [keys, keys, List.map_cons, List.mem_cons]

theorem mem_insertMany (h : row ∈ insertMany key table batch) : row ∈ table ∨ row ∈ batch := by
  induction batch generalizing table with
  | nil => exact .inl h
  | cons first batch ih =>
    rcases @ih (insertNew key table first) h with hTable | hBatch
    · unfold insertNew at hTable
      split at hTable
      · exact .inl hTable
      · rcases List.mem_append.mp hTable with hOld | hNew
        · exact .inl hOld
        · rw [List.mem_singleton.mp hNew]
          exact .inr List.mem_cons_self
    · exact .inr (List.mem_cons_of_mem first hBatch)

theorem mem_insertMany_of_mem (h : row ∈ table) : row ∈ insertMany key table batch := by
  induction batch generalizing table with
  | nil => exact h
  | cons first batch ih =>
    apply @ih (insertNew key table first)
    unfold insertNew
    split
    · exact h
    · exact List.mem_append_left _ h

theorem nodup_insertMany (h : (keys key table).Nodup) :
    (keys key (insertMany key table batch)).Nodup := by
  induction batch generalizing table with
  | nil => exact h
  | cons first batch ih =>
    apply @ih (insertNew key table first)
    unfold insertNew
    split
    · exact h
    · rename_i hNew
      rw [keys, List.map_append, List.nodup_append]
      refine ⟨h, List.nodup_singleton _, ?_⟩
      intro a hOld b hLast hEq
      rw [List.map_singleton, List.mem_singleton] at hLast
      rw [hEq, hLast] at hOld
      exact hNew hOld

/-- A condition that only rows with keys of the table meet does not see what is inserted. -/
theorem filter_insertMany {p : Row → Bool}
    (h : ∀ row ∈ batch, p row = true → key row ∈ keys key table) :
    (insertMany key table batch).filter p = table.filter p := by
  induction batch generalizing table with
  | nil => rfl
  | cons first batch ih =>
    have hFirst : (insertNew key table first).filter p = table.filter p := by
      unfold insertNew
      split
      · rfl
      · rename_i hNew
        have hNot : p first = false := by
          by_contra hTrue
          exact hNew (h first List.mem_cons_self (Bool.eq_true_of_not_eq_false hTrue))
        rw [List.filter_append, List.filter_singleton, hNot, cond_false, List.append_nil]
    rw [← hFirst]
    refine ih fun row hMem hRow => mem_keys_insertNew.mpr (.inl ?_)
    exact h row (List.mem_cons_of_mem first hMem) hRow

omit [DecidableEq Key] in
/-- One more key brings what its row weighs. -/
theorem sum_filter_add {M : Type w} [AddCommMonoid M] {weight : Row → M} {p q : Row → Bool}
    (hNodup : (keys key table).Nodup) (hMem : row ∈ table) (hNew : p row = false)
    (hGain : ∀ r ∈ table, q r = true ↔ key r = key row ∨ p r = true) :
    ((table.filter q).map weight).sum = ((table.filter p).map weight).sum + weight row := by
  obtain ⟨before, after, rfl⟩ := List.append_of_mem hMem
  rw [keys, List.map_append, List.map_cons, List.nodup_middle, List.nodup_cons,
    ← List.map_append] at hNodup
  have hRow : q row = true := (hGain row hMem).mpr (.inl rfl)
  have hOther : ∀ r ∈ before ++ after, q r = p r := by
    intro r hR
    have hNe : key r ≠ key row := fun hKey => hNodup.1 (hKey ▸ List.mem_map_of_mem hR)
    have hGainR := hGain r (List.mem_append.mpr
      ((List.mem_append.mp hR).imp_right (List.mem_cons_of_mem row)))
    rw [or_iff_right hNe] at hGainR
    exact Bool.eq_iff_iff.mpr hGainR
  have hBefore := List.filter_congr fun r hR => hOther r (List.mem_append_left _ hR)
  have hAfter := List.filter_congr fun r hR => hOther r (List.mem_append_right _ hR)
  simp only [List.filter_append, List.filter_cons, hRow, hNew, if_true, hBefore, hAfter,
    Bool.false_eq_true, if_false, List.map_append, List.map_cons, List.sum_append, List.sum_cons]
  rw [add_assoc, add_comm (weight row)]

/-- The rows of a table weigh what their keys are worth, and no key is missing that is worth
anything. -/
theorem sum_eq_of_keys {M : Type w} [AddCommMonoid M] {weight : Row → M} {worth : Key → M}
    {S : Finset Key} (hNodup : (keys key table).Nodup) (hIn : ∀ r ∈ table, key r ∈ S)
    (hWeight : ∀ r ∈ table, weight r = worth (key r))
    (hRest : ∀ k ∈ S, k ∉ keys key table → worth k = 0) :
    (table.map weight).sum = ∑ k ∈ S, worth k := by
  have hKeys : table.map weight = (keys key table).map worth := by
    rw [keys, List.map_map]
    apply List.map_congr_left
    intro r hr
    exact hWeight r hr
  rw [hKeys, ← List.sum_toFinset worth hNodup]
  apply Finset.sum_subset
  · intro k hk
    obtain ⟨r, hr, rfl⟩ := List.mem_map.mp (List.mem_toFinset.mp hk)
    exact hIn r hr
  · intro k hk hMissing
    apply hRest k hk
    intro hKey
    exact hMissing (List.mem_toFinset.mpr hKey)

end FarmBackend.KeyedTable
