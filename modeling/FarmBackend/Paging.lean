import Mathlib.Data.List.Basic
import Mathlib.Data.Nat.Find
import Mathlib.Tactic.Push

/-!
# Reading a growing list page by page

Pages are counted from the front, by an offset, and the list grows at its front between two reads.
An element only moves away from the reader, and it is met as long as it does not move too fast.
-/

namespace FarmBackend.Paging

set_option autoImplicit false

variable {α : Type}

/-- Page `p` of a list, the pages counted from zero. -/
def page (limit p : ℕ) (l : List α) : List α := (l.drop (limit * p)).take limit

/-- What is held when page `p` is read: `created q` came before the read of page `q`. -/
def held (start : List α) (created : ℕ → List α) : ℕ → List α
  | 0 => created 0 ++ start
  | p + 1 => created (p + 1) ++ held start created p

/-- How many came since the start, before the read of page `p`. -/
def grown (created : ℕ → List α) : ℕ → ℕ
  | 0 => (created 0).length
  | p + 1 => (created (p + 1)).length + grown created p

/-- A reader that stops at a page that is not full reads page `p`. -/
def Reached (limit : ℕ) (lists : ℕ → List α) (p : ℕ) : Prop :=
  ∀ q < p, limit ≤ (page limit q (lists q)).length

theorem length_page (limit p : ℕ) (l : List α) :
    (page limit p l).length = min limit (l.length - limit * p) := by
  rw [page, List.length_take, List.length_drop]

theorem full_iff {limit p : ℕ} {l : List α} (hLimit : 0 < limit) :
    limit ≤ (page limit p l).length ↔ limit * (p + 1) ≤ l.length := by
  rw [length_page, Nat.mul_succ]
  omega

theorem mem_page_iff {limit p : ℕ} {l : List α} {x : α} :
    x ∈ page limit p l ↔ ∃ j, l[j]? = some x ∧ limit * p ≤ j ∧ j < limit * (p + 1) := by
  rw [page, List.mem_iff_getElem?]
  constructor
  · rintro ⟨j, hj⟩
    have hShort : j < limit := by
      have hTaken := (List.getElem?_eq_some_iff.mp hj).1
      rw [List.length_take] at hTaken
      omega
    rw [List.getElem?_take_of_lt hShort, List.getElem?_drop] at hj
    exact ⟨limit * p + j, hj, by omega, by rw [Nat.mul_succ]; omega⟩
  · rintro ⟨j, hj, hFrom, hTo⟩
    rw [Nat.mul_succ] at hTo
    refine ⟨j - limit * p, ?_⟩
    rw [List.getElem?_take_of_lt (by omega), List.getElem?_drop]
    rw [Nat.add_sub_cancel' hFrom]
    exact hj

theorem held_eq (start : List α) (created : ℕ → List α) (p : ℕ) :
    ∃ new, held start created p = new ++ start ∧ new.length = grown created p := by
  induction p with
  | zero => exact ⟨created 0, rfl, rfl⟩
  | succ p ih =>
    obtain ⟨new, hHeld, hLength⟩ := ih
    refine ⟨created (p + 1) ++ new, ?_, ?_⟩
    · rw [held, hHeld, List.append_assoc]
    · rw [List.length_append, hLength, grown]

theorem length_held (start : List α) (created : ℕ → List α) (p : ℕ) :
    (held start created p).length = grown created p + start.length := by
  obtain ⟨new, hHeld, hLength⟩ := held_eq start created p
  rw [hHeld, List.length_append, hLength]

/-- What was there at the start has only moved, by as many as came. -/
theorem getElem?_held {start : List α} {created : ℕ → List α} {i : ℕ} (p : ℕ) :
    (held start created p)[grown created p + i]? = start[i]? := by
  obtain ⟨new, hHeld, hLength⟩ := held_eq start created p
  rw [hHeld, List.getElem?_append_right (by omega), hLength, Nat.add_sub_cancel_left]

/-- The first page that the element has not moved past is read, and it stands there. -/
theorem exists_reached {limit i p : ℕ} {start : List α} {created : ℕ → List α} {x : α}
    (hLimit : 0 < limit) (hStart : start[i]? = some x)
    (hNear : grown created p + i < limit * (p + 1)) :
    ∃ q ≤ p, Reached limit (held start created) q ∧
      x ∈ page limit q (held start created q) := by
  classical
  have hSome : ∃ q, grown created q + i < limit * (q + 1) := ⟨p, hNear⟩
  have hInside : i < start.length := (List.getElem?_eq_some_iff.mp hStart).1
  have hBefore : ∀ q < Nat.find hSome, limit * (q + 1) ≤ grown created q + i := by
    intro q hq
    exact Nat.le_of_not_lt (Nat.find_min hSome hq)
  refine ⟨Nat.find hSome, Nat.find_min' hSome hNear, ?_, ?_⟩
  · intro q hq
    rw [full_iff hLimit, length_held]
    have hPast := hBefore q hq
    omega
  · rw [mem_page_iff]
    refine ⟨grown created (Nat.find hSome) + i, ?_, ?_, Nat.find_spec hSome⟩
    · rw [getElem?_held, hStart]
    · cases hFind : Nat.find hSome with
      | zero => omega
      | succ q =>
        have hPast := hBefore q (by omega)
        rw [grown]
        omega

/-- An element of a page was there at the start, or it came during the reading. -/
theorem index_of_mem_page {limit p : ℕ} {start : List α} {created : ℕ → List α} {x : α}
    (hPage : x ∈ page limit p (held start created p)) :
    (∃ i, start[i]? = some x ∧ grown created p + i < limit * (p + 1)) ∨
      ∃ j < grown created p, (held start created p)[j]? = some x ∧
        limit * p ≤ j ∧ j < limit * (p + 1) := by
  obtain ⟨j, hj, hFrom, hTo⟩ := mem_page_iff.mp hPage
  rcases Nat.lt_or_ge j (grown created p) with hNew | hOld
  · exact .inr ⟨j, hNew, hj, hFrom, hTo⟩
  · obtain ⟨i, rfl⟩ := Nat.exists_eq_add_of_le hOld
    rw [getElem?_held] at hj
    exact .inl ⟨i, hj, hTo⟩

end FarmBackend.Paging
