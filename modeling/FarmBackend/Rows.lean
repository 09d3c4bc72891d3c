import Mathlib.Algebra.BigOperators.Group.List.Basic
import Mathlib.Tactic.Abel

/-!
# Rows of a table, addressed by position

A table is a list of rows. The id of a row is its position: an insert appends, so a fresh id is
never one that is in use, and an update by id is `List.modify`. Rows are not deleted.
-/

namespace FarmBackend.Rows

set_option autoImplicit false

universe u v
variable {Row : Type u}

theorem getElem?_modify_self {rows : List Row} {id : ℕ} {row : Row} (f : Row → Row)
    (h : rows[id]? = some row) : (rows.modify id f)[id]? = some (f row) := by
  simp [h]

theorem getElem?_modify_ne {rows : List Row} {id other : ℕ} (f : Row → Row) (h : id ≠ other) :
    (rows.modify id f)[other]? = rows[other]? := by
  simp [h]

/-- A row of the updated table is the updated row or a row that was there before. -/
theorem getElem?_modify_cases {rows : List Row} {id other : ℕ} {row : Row} {f : Row → Row}
    (h : (rows.modify id f)[other]? = some row) :
    (id = other ∧ ∃ old, rows[id]? = some old ∧ row = f old) ∨
      (id ≠ other ∧ rows[other]? = some row) := by
  by_cases hId : id = other
  · subst hId
    rw [List.getElem?_modify_eq] at h
    cases hOld : rows[id]? with
    | none => simp [hOld] at h
    | some old =>
      simp only [hOld, Option.map_eq_map, Option.map_some, Option.some.injEq] at h
      exact .inl ⟨rfl, old, rfl, h.symm⟩
  · rw [getElem?_modify_ne f hId] at h
    exact .inr ⟨hId, h⟩

theorem getElem?_append_of_some {rows new : List Row} {id : ℕ} {row : Row}
    (h : rows[id]? = some row) : (rows ++ new)[id]? = some row := by
  obtain ⟨hLt, _⟩ := List.getElem?_eq_some_iff.mp h
  rw [List.getElem?_append_left hLt, h]

/-- A row of the table after an insert is a row from before or the new row. -/
theorem getElem?_insert_cases {rows : List Row} {id : ℕ} {new row : Row}
    (h : (rows ++ [new])[id]? = some row) :
    rows[id]? = some row ∨ (id = rows.length ∧ row = new) := by
  rw [List.getElem?_append] at h
  split at h
  · exact .inl h
  · rename_i hLt
    rw [List.getElem?_singleton] at h
    split at h
    · exact .inr ⟨by omega, by simpa using h.symm⟩
    · cases h

/-- Two tables with the same ids, whose rows are related one by one. -/
def Related (R : Row → Row → Prop) (rows rows' : List Row) : Prop :=
  ∀ id : ℕ, Option.Rel R rows[id]? rows'[id]?

section Related
variable {R : Row → Row → Prop} {rows rows' : List Row} {id : ℕ} {row : Row}

theorem Related.refl (hRefl : ∀ r, R r r) (rows : List Row) : Related R rows rows := by
  intro id
  cases rows[id]? with
  | none => exact .none
  | some row => exact .some (hRefl row)

theorem Related.forward (h : Related R rows rows') (hRow : rows[id]? = some row) :
    ∃ row', rows'[id]? = some row' ∧ R row row' := by
  have hAt := h id
  rw [hRow] at hAt
  cases hRow' : rows'[id]? with
  | none => rw [hRow'] at hAt; cases hAt
  | some row' =>
    rw [hRow'] at hAt
    cases hAt with
    | some hR => exact ⟨row', rfl, hR⟩

theorem Related.backward (h : Related R rows rows') (hRow : rows'[id]? = some row) :
    ∃ old, rows[id]? = some old ∧ R old row := by
  have hAt := h id
  rw [hRow] at hAt
  cases hOld : rows[id]? with
  | none => rw [hOld] at hAt; cases hAt
  | some old =>
    rw [hOld] at hAt
    cases hAt with
    | some hR => exact ⟨old, rfl, hR⟩

theorem Related.length_eq (h : Related R rows rows') : rows'.length = rows.length := by
  have hNone : ∀ i : ℕ, rows[i]? = none ↔ rows'[i]? = none := by
    intro i
    have hAt := h i
    generalize rows[i]? = a at hAt
    generalize rows'[i]? = b at hAt
    cases hAt <;> simp
  simp only [List.getElem?_eq_none_iff] at hNone
  have hFirst := (hNone rows.length).mp (Nat.le_refl _)
  have hSecond := (hNone rows'.length).mpr (Nat.le_refl _)
  omega

theorem Related.mono {R' : Row → Row → Prop} (hImp : ∀ r r', R r r' → R' r r')
    (h : Related R rows rows') : Related R' rows rows' := by
  intro id
  have hAt := h id
  generalize rows[id]? = a at hAt
  generalize rows'[id]? = b at hAt
  cases hAt with
  | none => exact .none
  | some hR => exact .some (hImp _ _ hR)

theorem Related.trans {rows'' : List Row} (hTrans : ∀ a b c, R a b → R b c → R a c)
    (h : Related R rows rows') (h' : Related R rows' rows'') : Related R rows rows'' := by
  intro id
  have hFirst := h id
  have hSecond := h' id
  generalize rows[id]? = a at hFirst
  generalize rows'[id]? = b at hFirst hSecond
  generalize rows''[id]? = d at hSecond
  cases hFirst with
  | none => exact hSecond
  | some hR =>
    cases hSecond with
    | some hR' => exact .some (hTrans _ _ _ hR hR')

theorem related_mapIdx {f : ℕ → Row → Row} (hf : ∀ id r, R r (f id r)) (rows : List Row) :
    Related R rows (rows.mapIdx f) := by
  intro id
  rw [List.getElem?_mapIdx]
  cases rows[id]? with
  | none => exact .none
  | some row => exact .some (hf id row)

theorem related_map {f : Row → Row} (hf : ∀ r, R r (f r)) (rows : List Row) :
    Related R rows (rows.map f) := by
  intro id
  rw [List.getElem?_map]
  cases rows[id]? with
  | none => exact .none
  | some row => exact .some (hf row)

/-- An update of one row, when the other rows are related to themselves. -/
theorem related_modify {f : Row → Row} (hRefl : ∀ r, R r r)
    (hf : ∀ row, rows[id]? = some row → R row (f row)) : Related R rows (rows.modify id f) := by
  intro other
  by_cases hId : id = other
  · subst hId
    cases hRow : rows[id]? with
    | none =>
      rw [List.getElem?_modify_eq, hRow]
      exact .none
    | some row =>
      rw [getElem?_modify_self f hRow]
      exact .some (hf row hRow)
  · rw [getElem?_modify_ne f hId]
    exact Related.refl hRefl rows other

end Related

section Sums
variable {M : Type v} [AddCommGroup M]

theorem sum_map_modify (g : Row → M) (f : Row → Row) {rows : List Row} {id : ℕ} {row : Row}
    (h : rows[id]? = some row) :
    ((rows.modify id f).map g).sum = (rows.map g).sum + (g (f row) - g row) := by
  induction rows generalizing id with
  | nil => simp at h
  | cons head tail ih =>
    cases id with
    | zero =>
      simp only [List.getElem?_cons_zero, Option.some.injEq] at h
      subst h
      simp only [List.modify_zero_cons, List.map_cons, List.sum_cons]
      abel
    | succ id =>
      simp only [List.getElem?_cons_succ] at h
      simp only [List.modify_succ_cons, List.map_cons, List.sum_cons, ih h]
      abel

theorem sum_map_insert (g : Row → M) (rows : List Row) (new : Row) :
    ((rows ++ [new]).map g).sum = (rows.map g).sum + g new := by
  simp

theorem sum_map_filter (g : Row → M) (p : Row → Bool) (rows : List Row) :
    ((rows.filter p).map g).sum = (rows.map fun row => if p row = true then g row else 0).sum := by
  induction rows with
  | nil => rfl
  | cons head tail ih =>
    cases hp : p head with
    | false => simp [hp, ih]
    | true => simp [hp, ih]

end Sums

end FarmBackend.Rows
