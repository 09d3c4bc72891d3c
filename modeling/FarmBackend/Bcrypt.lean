import Mathlib.Data.List.Basic

/-!
# Password hashing

What the services use of the `bcrypt` package: a hash under a fresh salt, and the comparison of a
string with a hash. The package looks at the first bytes of a string only; where that does not
matter, the comparison is taken to be exact.
-/

namespace FarmBackend

set_option autoImplicit false

structure Bcrypt where
  Hash : Type
  hash : ℕ → String → Hash
  compare : String → Hash → Bool

namespace Bcrypt

/-- How many bytes of a string count. -/
def WIDTH : ℕ := 72

def bytes (s : String) : List UInt8 := s.toUTF8.data.toList

def prefixOf (s : String) : List UInt8 := (bytes s).take WIDTH

variable (bcrypt : Bcrypt)

/-- Two strings are told apart exactly by their first 72 bytes. -/
def Truncates : Prop :=
  ∀ salt s t, bcrypt.compare t (bcrypt.hash salt s) = true ↔ prefixOf t = prefixOf s

def Exact : Prop := ∀ salt s t, bcrypt.compare t (bcrypt.hash salt s) = true ↔ t = s

theorem bytes_append (s t : String) : bytes (s ++ t) = bytes s ++ bytes t := by
  simp [bytes]

theorem length_le_bytes (s : String) : s.length ≤ (bytes s).length := by
  obtain ⟨l, rfl⟩ : ∃ l, s = String.ofList l := ⟨s.toList, by simp⟩
  have hBytes : bytes (String.ofList l) = l.flatMap String.utf8EncodeChar := by
    simp [bytes, List.utf8Encode, List.data_toByteArray]
  rw [hBytes, String.length_ofList, List.length_flatMap]
  clear hBytes
  induction l with
  | nil => exact Nat.le_refl _
  | cons c l ih =>
    have hChar : 1 ≤ (String.utf8EncodeChar c).length := by
      rw [String.length_utf8EncodeChar]
      exact c.utf8Size_pos
    simp only [List.map_cons, List.sum_cons, List.length_cons]
    omega

/-- What comes after 72 bytes does not count. -/
theorem prefixOf_append {s : String} (h : WIDTH ≤ (bytes s).length) (t : String) :
    prefixOf (s ++ t) = prefixOf s := by
  rw [prefixOf, bytes_append, List.take_append_of_le_length h, prefixOf]

/-- A hash that is the string itself. -/
def plain : Bcrypt := ⟨String, fun _ s => s, fun t s => t == s⟩

theorem plain_exact : plain.Exact := by
  intro salt s t
  simp [plain]

end Bcrypt

end FarmBackend
