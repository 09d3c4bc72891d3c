import Mathlib.Data.List.Basic
import Mathlib.Data.List.Nodup

/-!
# Maps that keep the order of insertion

A list of keys and values. A key that is put again takes the new value in its old place.
-/

namespace FarmBackend.InsertionMap

set_option autoImplicit false

variable {κ ν : Type} [DecidableEq κ]

def put : List (κ × ν) → κ → ν → List (κ × ν)
  | [], k, v => [(k, v)]
  | (key, old) :: rest, k, v => if key = k then (key, v) :: rest else (key, old) :: put rest k v

/-- All the entries, put one after the other. -/
def putAll (map entries : List (κ × ν)) : List (κ × ν) :=
  entries.foldl (fun map entry => put map entry.1 entry.2) map

theorem lookup_cons_eq (key k : κ) (v : ν) (rest : List (κ × ν)) :
    ((key, v) :: rest).lookup k = if k = key then some v else rest.lookup k := by
  rw [List.lookup_cons]
  by_cases hKey : k = key
  · rw [if_pos hKey, hKey, beq_self_eq_true]
  · rw [if_neg hKey, beq_false_of_ne hKey]

theorem lookup_put (map : List (κ × ν)) (k k' : κ) (v : ν) :
    (put map k v).lookup k' = if k' = k then some v else map.lookup k' := by
  induction map with
  | nil => exact lookup_cons_eq k k' v []
  | cons entry rest ih =>
    obtain ⟨key, old⟩ := entry
    rw [put]
    split
    · rename_i hSame
      subst hSame
      rw [lookup_cons_eq, lookup_cons_eq]
      split
      · rfl
      · rfl
    · rename_i hOther
      rw [lookup_cons_eq, lookup_cons_eq, ih]
      by_cases hKey : k' = key
      · subst hKey
        rw [if_pos rfl, if_neg hOther, if_pos rfl]
      · rw [if_neg hKey, if_neg hKey]

/-- The last entry of a key counts. -/
theorem lookup_putAll (map entries : List (κ × ν)) (k : κ) :
    (putAll map entries).lookup k = (entries.reverse.lookup k).or (map.lookup k) := by
  induction entries generalizing map with
  | nil => rfl
  | cons entry rest ih =>
    obtain ⟨key, v⟩ := entry
    have hStep : putAll map ((key, v) :: rest) = putAll (put map key v) rest := rfl
    rw [hStep, ih, lookup_put, List.reverse_cons, List.lookup_append, lookup_cons_eq]
    by_cases hKey : k = key
    · rw [if_pos hKey, if_pos hKey, Option.or_assoc, Option.some_or]
    · rw [if_neg hKey, if_neg hKey, List.lookup_nil, Option.or_none]

theorem mem_put {map : List (κ × ν)} {k : κ} {v : ν} {entry : κ × ν} (h : entry ∈ put map k v) :
    entry = (k, v) ∨ entry ∈ map := by
  induction map with
  | nil => exact .inl (List.mem_singleton.mp h)
  | cons first rest ih =>
    obtain ⟨key, old⟩ := first
    rw [put] at h
    split at h
    · rename_i hSame
      rcases List.mem_cons.mp h with rfl | h
      · exact .inl (by rw [hSame])
      · exact .inr (List.mem_cons_of_mem _ h)
    · rcases List.mem_cons.mp h with rfl | h
      · exact .inr List.mem_cons_self
      · exact (ih h).imp id (List.mem_cons_of_mem _)

theorem mem_putAll {map entries : List (κ × ν)} {entry : κ × ν} (h : entry ∈ putAll map entries) :
    entry ∈ entries ∨ entry ∈ map := by
  induction entries generalizing map with
  | nil => exact .inr h
  | cons first rest ih =>
    rcases ih h with hRest | hPut
    · exact .inl (List.mem_cons_of_mem _ hRest)
    · rcases mem_put hPut with rfl | hMap
      · exact .inl List.mem_cons_self
      · exact .inr hMap

theorem mem_of_lookup {map : List (κ × ν)} {k : κ} {v : ν} (h : map.lookup k = some v) :
    (k, v) ∈ map := by
  induction map with
  | nil => cases h
  | cons first rest ih =>
    obtain ⟨key, old⟩ := first
    rw [lookup_cons_eq] at h
    split at h
    · rename_i hKey
      rw [hKey, Option.some.inj h]
      exact List.mem_cons_self
    · exact List.mem_cons_of_mem _ (ih h)

theorem lookup_of_mem {map : List (κ × ν)} {k : κ} {v : ν} (hNodup : (map.map Prod.fst).Nodup)
    (h : (k, v) ∈ map) : map.lookup k = some v := by
  induction map with
  | nil => cases h
  | cons first rest ih =>
    obtain ⟨key, old⟩ := first
    rw [List.map_cons, List.nodup_cons] at hNodup
    rcases List.mem_cons.mp h with hFirst | hRest
    · cases hFirst
      rw [lookup_cons_eq, if_pos rfl]
    · have hKey : k ≠ key := by
        rintro rfl
        exact hNodup.1 (List.mem_map.mpr ⟨(k, v), hRest, rfl⟩)
      rw [lookup_cons_eq, if_neg hKey]
      exact ih hNodup.2 hRest

theorem mem_keys_put {map : List (κ × ν)} {k k' : κ} {v : ν} :
    k' ∈ (put map k v).map Prod.fst ↔ k' = k ∨ k' ∈ map.map Prod.fst := by
  induction map with
  | nil => simp [put]
  | cons first rest ih =>
    obtain ⟨key, old⟩ := first
    rw [put]
    split
    · rename_i hSame
      subst hSame
      simp
    · rw [List.map_cons, List.mem_cons, ih, List.map_cons, List.mem_cons]
      exact or_left_comm

theorem nodup_put {map : List (κ × ν)} {k : κ} {v : ν} (hNodup : (map.map Prod.fst).Nodup) :
    ((put map k v).map Prod.fst).Nodup := by
  induction map with
  | nil => exact List.nodup_singleton _
  | cons first rest ih =>
    obtain ⟨key, old⟩ := first
    rw [put]
    split
    · exact hNodup
    · rename_i hOther
      rw [List.map_cons, List.nodup_cons] at hNodup ⊢
      refine ⟨?_, ih hNodup.2⟩
      intro hMem
      rcases mem_keys_put.mp hMem with hSame | hRest
      · exact hOther hSame
      · exact hNodup.1 hRest

theorem nodup_putAll {map entries : List (κ × ν)} (hNodup : (map.map Prod.fst).Nodup) :
    ((putAll map entries).map Prod.fst).Nodup := by
  induction entries generalizing map with
  | nil => exact hNodup
  | cons entry rest ih => exact ih (nodup_put hNodup)

end FarmBackend.InsertionMap
