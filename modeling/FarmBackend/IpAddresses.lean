import Mathlib.Data.List.Basic
import Mathlib.Data.List.TakeWhile
import Mathlib.Tactic.IntervalCases

/-!
# IP addresses and their canonical texts

Dotted decimal for version 4. For version 6 the groups are in small hexadecimal digits without
leading zeros, and the first longest run of more than one zero group is `::`.
-/

namespace FarmBackend.IpAddresses

set_option autoImplicit false

/-- The eight groups of a version 6 address. -/
structure Groups where
  list : List ℕ
  length_eq : list.length = 8
  lt : ∀ g ∈ list, g < 65536

inductive Address where
  | v4 (a b c d : Fin 256)
  | v6 (groups : Groups)

def decimal (n : ℕ) : List Char := Nat.toDigits 10 n

def hex (g : ℕ) : List Char := Nat.toDigits 16 g

/-- The groups with a colon between them. -/
def joined : List ℕ → List Char
  | [] => []
  | [g] => hex g
  | g :: rest => hex g ++ ':' :: joined rest

def zeroRun (groups : List ℕ) : ℕ := (groups.takeWhile (· = 0)).length

/-- The better of the best run so far and the one that starts at `i`. -/
def better (groups : List ℕ) (best : ℕ × ℕ) (i : ℕ) : ℕ × ℕ :=
  if best.2 < zeroRun (groups.drop i) then (i, zeroRun (groups.drop i)) else best

/-- Where the first longest run of zeros starts, and its length. -/
def longestRun (groups : List ℕ) : ℕ × ℕ :=
  (List.range groups.length).foldl (better groups) (0, 0)

def hexText (groups : List ℕ) : List Char :=
  let run := longestRun groups
  if 1 < run.2 then
    joined (groups.take run.1) ++ ':' :: ':' :: joined (groups.drop (run.1 + run.2))
  else
    joined groups

def Address.text : Address → List Char
  | .v4 a b c d => decimal a ++ '.' :: (decimal b ++ '.' :: (decimal c ++ '.' :: decimal d))
  | .v6 groups => hexText groups.list

/-! ## Ranges -/

/-- Loopback, unspecified, private, link-local and 100.64/10, by the first two bytes. -/
def InternalV4 (a b : ℕ) : Prop :=
  a = 127 ∨ a = 0 ∨ a = 10 ∨ (a = 172 ∧ 16 ≤ b ∧ b ≤ 31) ∨ (a = 192 ∧ b = 168) ∨
    (a = 169 ∧ b = 254) ∨ (a = 100 ∧ 64 ≤ b ∧ b ≤ 127)

/-- An IPv4-mapped address has `x` and `y` as its last groups. -/
def Groups.Mapped (groups : Groups) (x y : ℕ) : Prop :=
  groups.list = [0, 0, 0, 0, 0, 65535, x, y]

/-- The addresses that a request from outside must not reach; a mapped one counts as the IPv4
address that it embeds. -/
inductive Internal : Address → Prop where
  | v4 {a b c d : Fin 256} : InternalV4 a b → Internal (.v4 a b c d)
  | loopback {groups : Groups} : groups.list = [0, 0, 0, 0, 0, 0, 0, 1] → Internal (.v6 groups)
  | unspecified {groups : Groups} : groups.list = [0, 0, 0, 0, 0, 0, 0, 0] → Internal (.v6 groups)
  | uniqueLocal {groups : Groups} {g : ℕ} {rest : List ℕ} : groups.list = g :: rest →
      0xfc00 ≤ g → g ≤ 0xfdff → Internal (.v6 groups)
  | linkLocal {groups : Groups} {g : ℕ} {rest : List ℕ} : groups.list = g :: rest →
      0xfe80 ≤ g → g ≤ 0xfebf → Internal (.v6 groups)
  | mapped {groups : Groups} {x y : ℕ} : groups.Mapped x y → InternalV4 (x / 256) (x % 256) →
      Internal (.v6 groups)

/-! ## Digits -/

theorem hex_of_lt {g : ℕ} (hShort : g < 16) : hex g = [g.digitChar] :=
  Nat.toDigits_of_lt_base hShort

theorem hex_of_le {g : ℕ} (hLong : 16 ≤ g) : hex g = hex (g / 16) ++ [(g % 16).digitChar] :=
  Nat.toDigits_of_base_le (by decide) hLong

theorem digitChar_hex : ∀ d < 16, d.digitChar ≠ ':' ∧ d.digitChar ≠ '.' ∧
    d.digitChar.toLower = d.digitChar := by decide

theorem mem_hex (g : ℕ) : ∀ c ∈ hex g, c ≠ ':' ∧ c ≠ '.' ∧ c.toLower = c := by
  induction g using Nat.strong_induction_on with
  | _ g ih =>
    intro c hc
    rcases Nat.lt_or_ge g 16 with hShort | hLong
    · rw [hex_of_lt hShort, List.mem_singleton] at hc
      subst hc
      exact digitChar_hex g hShort
    · rw [hex_of_le hLong] at hc
      rcases List.mem_append.mp hc with hc | hc
      · exact ih (g / 16) (by omega) c hc
      · rw [List.mem_singleton] at hc
        subst hc
        exact digitChar_hex (g % 16) (Nat.mod_lt _ (by decide))

theorem hex_ne_nil (g : ℕ) : hex g ≠ [] := Nat.toDigits_ne_nil

theorem isDigit_of_mem_decimal {n : ℕ} {c : Char} (hc : c ∈ decimal n) : c.isDigit :=
  Nat.isDigit_of_mem_toDigits (by decide) (by decide) hc

theorem decimal_ne_nil (n : ℕ) : decimal n ≠ [] := Nat.toDigits_ne_nil

/-! ## Texts of version 6 -/

theorem mem_joined (groups : List ℕ) : ∀ c ∈ joined groups, c ≠ '.' ∧ c.toLower = c := by
  induction groups using joined.induct with
  | case1 =>
    intro c hc
    cases hc
  | case2 g =>
    intro c hc
    exact (mem_hex g c hc).2
  | case3 g rest hRest ih =>
    intro c hc
    rw [joined] at hc
    · rcases List.mem_append.mp hc with hc | hc
      · exact (mem_hex g c hc).2
      · rcases List.mem_cons.mp hc with rfl | hc
        · decide
        · exact ih c hc
    · exact hRest

theorem mem_hexText (groups : List ℕ) : ∀ c ∈ hexText groups, c ≠ '.' ∧ c.toLower = c := by
  intro c hc
  rw [hexText] at hc
  split at hc
  · rcases List.mem_append.mp hc with hc | hc
    · exact mem_joined _ c hc
    · rcases List.mem_cons.mp hc with rfl | hc
      · decide
      · rcases List.mem_cons.mp hc with rfl | hc
        · decide
        · exact mem_joined _ c hc
  · exact mem_joined _ c hc

theorem joined_cons_cons (g h : ℕ) (rest : List ℕ) :
    joined (g :: h :: rest) = hex g ++ ':' :: joined (h :: rest) := by
  rw [joined]
  intro hNone
  cases hNone

/-- The length that is kept is that of the run at the place that is kept. -/
theorem better_run {groups : List ℕ} {best : ℕ × ℕ} (indices : List ℕ)
    (hBest : best.2 = 0 ∨ best.2 = zeroRun (groups.drop best.1)) :
    let run := indices.foldl (better groups) best
    run.2 = 0 ∨ run.2 = zeroRun (groups.drop run.1) := by
  induction indices generalizing best with
  | nil => exact hBest
  | cons i indices ih =>
    apply ih
    rw [better]
    split
    · exact .inr rfl
    · exact hBest

/-- A text whose first group is not zero begins with it. -/
theorem hexText_of_first {g h : ℕ} {rest : List ℕ} (hFirst : g ≠ 0) :
    ∃ tail, hexText (g :: h :: rest) = hex g ++ ':' :: tail := by
  rw [hexText]
  split
  · rename_i hRun
    have hKept : (longestRun (g :: h :: rest)).2 = 0 ∨ (longestRun (g :: h :: rest)).2 =
        zeroRun ((g :: h :: rest).drop (longestRun (g :: h :: rest)).1) :=
      better_run _ (.inl rfl)
    cases hAt : (longestRun (g :: h :: rest)).1 with
    | zero =>
      rw [hAt, List.drop_zero, zeroRun, List.takeWhile_cons_of_neg (by simpa using hFirst)] at hKept
      simp only [List.length_nil, or_self] at hKept
      omega
    | succ i =>
      cases i with
      | zero => exact ⟨_, rfl⟩
      | succ i =>
        rw [List.take_succ_cons, List.take_succ_cons, joined_cons_cons, List.append_assoc]
        exact ⟨_, rfl⟩
  · exact ⟨_, joined_cons_cons g h rest⟩

/-- The five zero groups of a mapped address are its longest run, whatever it embeds. -/
theorem hexText_mapped (x y : ℕ) :
    hexText [0, 0, 0, 0, 0, 65535, x, y] =
      [':', ':', 'f', 'f', 'f', 'f', ':'] ++ (hex x ++ ':' :: hex y) := by
  have hRun : longestRun [0, 0, 0, 0, 0, 65535, x, y] = (0, 5) := by
    by_cases hx : x = 0
    · by_cases hy : y = 0
      · subst hx hy
        decide
      · subst hx
        simp [longestRun, List.range_succ, better, zeroRun, hy]
    · by_cases hy : y = 0
      · subst hy
        simp [longestRun, List.range_succ, better, zeroRun, hx]
      · simp [longestRun, List.range_succ, better, zeroRun, hx, hy]
  have hLast : joined [65535, x, y] = hex 65535 ++ ':' :: (hex x ++ ':' :: hex y) := by
    rw [joined_cons_cons, joined_cons_cons, joined]
  rw [hexText, hRun]
  simp only [List.take_zero]
  have hDigits : hex 65535 = ['f', 'f', 'f', 'f'] := by decide
  rw [if_pos (by decide)]
  simp only [List.drop_succ_cons, List.drop_zero, hLast, hDigits, joined]
  rfl

theorem hexText_unspecified : hexText [0, 0, 0, 0, 0, 0, 0, 0] = [':', ':'] := by decide

theorem hexText_loopback : hexText [0, 0, 0, 0, 0, 0, 0, 1] = [':', ':', '1'] := by decide

end FarmBackend.IpAddresses
