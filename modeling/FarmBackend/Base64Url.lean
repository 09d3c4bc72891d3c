import Mathlib.Data.List.Basic

/-!
# Base64 with the URL alphabet, without padding

Three bytes make four symbols; two or one that are left at the end make three or two. The decoder is
a lenient one: it skips what is not a symbol and drops a last symbol that completes no byte.
-/

namespace FarmBackend.Base64Url

set_option autoImplicit false

def ALPHABET : List Char :=
  "ABCDEFGHIJKLMNOPQRSTUVWXYZabcdefghijklmnopqrstuvwxyz0123456789-_".toList

def symbol (n : ℕ) : Char := ALPHABET.getD n 'A'

/-- The symbols of the other alphabet are read too. -/
def value (c : Char) : Option ℕ :=
  if c = '+' then some 62 else if c = '/' then some 63 else ALPHABET.findIdx? (· == c)

def sextets : List UInt8 → List ℕ
  | a :: b :: c :: rest =>
    a.toNat / 4 :: (a.toNat % 4 * 16 + b.toNat / 16) :: (b.toNat % 16 * 4 + c.toNat / 64) ::
      c.toNat % 64 :: sextets rest
  | [a, b] => [a.toNat / 4, a.toNat % 4 * 16 + b.toNat / 16, b.toNat % 16 * 4]
  | [a] => [a.toNat / 4, a.toNat % 4 * 16]
  | [] => []

def octets : List ℕ → List UInt8
  | p :: q :: r :: s :: rest =>
    UInt8.ofNat (p * 4 + q / 16) :: UInt8.ofNat (q % 16 * 16 + r / 4) ::
      UInt8.ofNat (r % 4 * 64 + s) :: octets rest
  | [p, q, r] => [UInt8.ofNat (p * 4 + q / 16), UInt8.ofNat (q % 16 * 16 + r / 4)]
  | [p, q] => [UInt8.ofNat (p * 4 + q / 16)]
  | _ => []

def encode (bytes : List UInt8) : List Char := (sextets bytes).map symbol

def decode (text : List Char) : List UInt8 := octets (text.filterMap value)

theorem alphabet_eq : ALPHABET =
    ['A', 'B', 'C', 'D', 'E', 'F', 'G', 'H', 'I', 'J', 'K', 'L', 'M', 'N', 'O', 'P', 'Q', 'R',
      'S', 'T', 'U', 'V', 'W', 'X', 'Y', 'Z', 'a', 'b', 'c', 'd', 'e', 'f', 'g', 'h', 'i', 'j',
      'k', 'l', 'm', 'n', 'o', 'p', 'q', 'r', 's', 't', 'u', 'v', 'w', 'x', 'y', 'z', '0', '1',
      '2', '3', '4', '5', '6', '7', '8', '9', '-', '_'] := by
  exact String.toList_ofList

theorem value_symbol {n : ℕ} (h : n < 64) : value (symbol n) = some n := by
  have hAll : ∀ m < 64, value (symbol m) = some m := by
    simp only [value, symbol, alphabet_eq]
    decide +kernel
  exact hAll n h

theorem symbol_mem (n : ℕ) : symbol n ∈ ALPHABET := by
  rw [symbol, List.getD_eq_getElem?_getD]
  cases hSymbol : ALPHABET[n]? with
  | none =>
    rw [alphabet_eq]
    exact List.mem_cons_self
  | some c => exact List.mem_of_getElem? hSymbol

theorem mem_alphabet {bytes : List UInt8} {c : Char} (h : c ∈ encode bytes) : c ∈ ALPHABET := by
  obtain ⟨n, -, rfl⟩ := List.mem_map.mp h
  exact symbol_mem n

theorem dot_notMem_encode (bytes : List UInt8) : '.' ∉ encode bytes := by
  intro hMem
  have hNot : '.' ∉ ALPHABET := by
    rw [alphabet_eq]
    decide
  exact hNot (mem_alphabet hMem)

theorem sextets_lt (bytes : List UInt8) : ∀ n ∈ sextets bytes, n < 64 := by
  induction bytes using sextets.induct with
  | case1 a b c rest ih =>
    have ha := a.toNat_lt
    have hb := b.toNat_lt
    have hc := c.toNat_lt
    simp only [sextets, List.forall_mem_cons]
    exact ⟨by omega, by omega, by omega, by omega, ih⟩
  | case2 a b =>
    have ha := a.toNat_lt
    have hb := b.toNat_lt
    simp only [sextets, List.forall_mem_cons]
    exact ⟨by omega, by omega, by omega, List.forall_mem_nil _⟩
  | case3 a =>
    have ha := a.toNat_lt
    simp only [sextets, List.forall_mem_cons]
    exact ⟨by omega, by omega, List.forall_mem_nil _⟩
  | case4 => exact List.forall_mem_nil _

theorem ofNat_eq_of_toNat {a : UInt8} {n : ℕ} (h : n = a.toNat) : UInt8.ofNat n = a := by
  rw [h, UInt8.ofNat_toNat]

theorem octets_sextets (bytes : List UInt8) : octets (sextets bytes) = bytes := by
  induction bytes using sextets.induct with
  | case1 a b c rest ih =>
    have hb := b.toNat_lt
    have hc := c.toNat_lt
    simp only [sextets, octets, ih]
    rw [ofNat_eq_of_toNat (a := a) (by omega), ofNat_eq_of_toNat (a := b) (by omega),
      ofNat_eq_of_toNat (a := c) (by omega)]
  | case2 a b =>
    have hb := b.toNat_lt
    simp only [sextets, octets]
    rw [ofNat_eq_of_toNat (a := a) (by omega), ofNat_eq_of_toNat (a := b) (by omega)]
  | case3 a =>
    simp only [sextets, octets]
    rw [ofNat_eq_of_toNat (a := a) (by omega)]
  | case4 => rfl

theorem filterMap_value_symbols {ns : List ℕ} (h : ∀ n ∈ ns, n < 64) :
    (ns.map symbol).filterMap value = ns := by
  induction ns with
  | nil => rfl
  | cons n ns ih =>
    rw [List.forall_mem_cons] at h
    rw [List.map_cons, List.filterMap_cons, value_symbol h.1, ih h.2]

@[simp] theorem decode_encode (bytes : List UInt8) : decode (encode bytes) = bytes := by
  rw [decode, encode, filterMap_value_symbols (sextets_lt bytes), octets_sextets]

example : decode (encode [77, 97]) = [77, 97] := by decide +kernel

/-- Whole groups of three bytes are encoded on their own. -/
theorem sextets_append {front : List UInt8} {k : ℕ} (h : front.length = 3 * k)
    (rest : List UInt8) : sextets (front ++ rest) = sextets front ++ sextets rest := by
  induction front using sextets.induct generalizing k with
  | case1 a b c front ih =>
    simp only [List.length_cons] at h
    simp only [List.cons_append, sextets, ih (k := k - 1) (by omega)]
  | case2 a b =>
    simp only [List.length_cons, List.length_nil] at h
    omega
  | case3 a =>
    simp only [List.length_cons, List.length_nil] at h
    omega
  | case4 => rfl

theorem encode_append {front : List UInt8} {k : ℕ} (h : front.length = 3 * k)
    (rest : List UInt8) : encode (front ++ rest) = encode front ++ encode rest := by
  rw [encode, sextets_append h, List.map_append, encode, encode]

theorem length_encode {front : List UInt8} {k : ℕ} (h : front.length = 3 * k) :
    (encode front).length = 4 * k := by
  rw [encode, List.length_map]
  induction front using sextets.induct generalizing k with
  | case1 a b c front ih =>
    simp only [List.length_cons] at h
    simp only [sextets, List.length_cons, ih (k := k - 1) (by omega)]
    omega
  | case2 a b =>
    simp only [List.length_cons, List.length_nil] at h
    omega
  | case3 a =>
    simp only [List.length_cons, List.length_nil] at h
    omega
  | case4 =>
    simp only [List.length_nil] at h
    simp only [sextets, List.length_nil]
    omega

end FarmBackend.Base64Url
