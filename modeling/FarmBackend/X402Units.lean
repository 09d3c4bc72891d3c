import FarmBackend.WithdrawCalls
import FarmBackend.X402
import Mathlib.Tactic.FieldSimp

/-! `toUnits` and `fromUnits`: the amounts of an asset in digits and in its base units. What is
unbounded there is unbounded here: a string of digits and a `bigint`. -/

namespace FarmBackend.X402
open WithdrawCalls (trim isSpace trim_eq_self)

set_option autoImplicit false

/-- `ASSET_DECIMALS[asset]`, what `Object.prototype` has apart. -/
def assetDecimals (asset : String) : Option ℕ :=
  if asset = "FARM" then some 2 else if asset = "USDC" then some 6 else none

/-- `/^\d+(\.\d+)?$/.test(s)`. -/
def isPlainDecimal (s : List Char) : Bool :=
  !(s.takeWhile Char.isDigit).isEmpty &&
    match s.dropWhile Char.isDigit with
    | [] => true
    | c :: rest => c == '.' && !rest.isEmpty && rest.all Char.isDigit

/-- `a || '0'`. -/
def orZero (s : List Char) : List Char := if s.isEmpty then ['0'] else s

/-- The error is its message. -/
def toUnits (amount : String) (asset : String) : Except String ℕ :=
  let s := (trim amount).toList
  match assetDecimals asset with
  | none => .error "Invalid amount"
  | some d =>
    if !isPlainDecimal s then
      .error "Invalid amount"
    else
      let i := (s.splitOn '.').headD []
      let f := (s.splitOn '.').tail.headD []
      if d < f.length then
        .error ("At most " ++ toString d ++ " decimals for " ++ asset)
      else
        .ok (bigInt (String.ofList i) * 10 ^ d +
          bigInt (String.ofList (orZero ((f ++ List.replicate d '0').take d))))

def fromUnits (units : ℕ) (asset : String) : String :=
  let d := (assetDecimals asset).getD 0
  let s := (toString units).toList.leftpad (d + 1) '0'
  if d ≠ 0 then
    String.ofList (s.take (s.length - d) ++ '.' :: s.drop (s.length - d))
  else
    String.ofList s

/-! ## Decimals -/

/-- Digits, and after a point more of them. -/
structure Writes (text whole frac : List Char) : Prop where
  text_eq : text = whole ++ if frac = [] then [] else '.' :: frac
  whole_ne_nil : whole ≠ []
  whole_digits : ∀ c ∈ whole, c.isDigit
  frac_digits : ∀ c ∈ frac, c.isDigit

/-- The number that stands there. -/
def value (whole frac : List Char) : ℚ :=
  Nat.ofDigitChars 10 whole 0 + Nat.ofDigitChars 10 frac 0 / 10 ^ frac.length

/-- `text` is the plain decimal `x` with `places` digits after its point. -/
def Reads (text : String) (x : ℚ) (places : ℕ) : Prop :=
  ∃ whole frac, Writes text.toList whole frac ∧ x = value whole frac ∧ places = frac.length

theorem bigInt_ofList (digits : List Char) :
    bigInt (String.ofList digits) = Nat.ofDigitChars 10 digits 0 := by
  rw [bigInt, String.toList_ofList, Nat.ofDigitChars_eq_foldl]

theorem ofDigitChars_orZero (digits : List Char) :
    Nat.ofDigitChars 10 (orZero digits) 0 = Nat.ofDigitChars 10 digits 0 := by
  rw [orZero]
  split
  · rename_i hEmpty
    rw [List.isEmpty_iff.mp hEmpty]
    rfl
  · rfl

theorem not_isDigit_point : ('.').isDigit = false := rfl

theorem point_not_mem {digits : List Char} (hDigits : ∀ c ∈ digits, c.isDigit) :
    '.' ∉ digits := by
  intro hMem
  have hPoint := hDigits '.' hMem
  rw [not_isDigit_point] at hPoint
  cases hPoint

theorem takeWhile_append_of_digits {whole rest : List Char} (hWhole : ∀ c ∈ whole, c.isDigit)
    (hRest : ∀ c, rest.head? = some c → c.isDigit = false) :
    (whole ++ rest).takeWhile Char.isDigit = whole ∧
      (whole ++ rest).dropWhile Char.isDigit = rest := by
  induction whole with
  | nil =>
    cases rest with
    | nil => exact ⟨rfl, rfl⟩
    | cons c rest =>
      have hFirst := hRest c rfl
      exact ⟨by simp [hFirst], by simp [hFirst]⟩
  | cons c whole ih =>
    have hHead : c.isDigit = true := hWhole c (by simp)
    obtain ⟨hTake, hDrop⟩ := ih fun d hd => hWhole d (by simp [hd])
    constructor
    · simp [hHead, hTake]
    · simp [hHead, hDrop]

/-- What the expression accepts, and only that. -/
theorem isPlainDecimal_iff (s : List Char) :
    isPlainDecimal s = true ↔ ∃ whole frac, Writes s whole frac := by
  constructor
  · intro hPlain
    rw [isPlainDecimal, Bool.and_eq_true, Bool.not_eq_true', List.isEmpty_eq_false_iff] at hPlain
    obtain ⟨hWhole, hRest⟩ := hPlain
    have hSplit := List.takeWhile_append_dropWhile (p := Char.isDigit) (l := s)
    have hDigits : ∀ c ∈ s.takeWhile Char.isDigit, c.isDigit := by
      intro c hc
      exact (List.all_eq_true.mp List.all_takeWhile) c hc
    cases hDrop : s.dropWhile Char.isDigit with
    | nil =>
      rw [hDrop, List.append_nil] at hSplit
      exact ⟨s.takeWhile Char.isDigit, [], by simpa using hSplit.symm, hWhole, hDigits, by simp⟩
    | cons c rest =>
      rw [hDrop] at hSplit hRest
      simp only [Bool.and_eq_true, beq_iff_eq, Bool.not_eq_true', List.isEmpty_eq_false_iff,
        List.all_eq_true] at hRest
      obtain ⟨⟨rfl, hMore⟩, hFrac⟩ := hRest
      refine ⟨s.takeWhile Char.isDigit, rest, ?_, hWhole, hDigits, hFrac⟩
      rw [if_neg hMore]
      exact hSplit.symm
  · rintro ⟨whole, frac, hText, hWhole, hDigits, hFrac⟩
    subst hText
    by_cases hNone : frac = []
    · obtain ⟨hTake, hDrop⟩ := @takeWhile_append_of_digits _ [] hDigits (by simp)
      rw [if_pos hNone, isPlainDecimal, hTake, hDrop]
      simpa using hWhole
    · obtain ⟨hTake, hDrop⟩ := @takeWhile_append_of_digits _ ('.' :: frac) hDigits
        (by simp [not_isDigit_point])
      rw [if_neg hNone, isPlainDecimal, hTake, hDrop]
      simpa [hWhole, hNone] using hFrac

theorem Writes.splitOn {text whole frac : List Char} (h : Writes text whole frac) :
    (text.splitOn '.').headD [] = whole ∧ (text.splitOn '.').tail.headD [] = frac := by
  obtain ⟨rfl, -, hWhole, hFrac⟩ := h
  by_cases hNone : frac = []
  · rw [if_pos hNone, List.append_nil, List.splitOn_eq_singleton (point_not_mem hWhole)]
    exact ⟨rfl, hNone.symm⟩
  · rw [if_neg hNone, List.splitOn_append_cons_self_of_not_mem (point_not_mem hWhole),
      List.splitOn_eq_singleton (point_not_mem hFrac)]
    exact ⟨rfl, rfl⟩

/-- The fraction padded with zeros, and its digits as a number of base units. -/
theorem ofDigitChars_padded {frac : List Char} {d : ℕ} (hFits : frac.length ≤ d) :
    Nat.ofDigitChars 10 ((frac ++ List.replicate d '0').take d) 0 =
      Nat.ofDigitChars 10 frac 0 * 10 ^ (d - frac.length) := by
  have hTake : (frac ++ List.replicate d '0').take d =
      frac ++ List.replicate (d - frac.length) '0' := by
    rw [List.take_append, List.take_of_length_le hFits, List.take_replicate]
    congr 2
    omega
  rw [hTake, Nat.ofDigitChars_append, Nat.ofDigitChars_replicate_zero, Nat.mul_comm]

/-- What `toUnits` makes of the digits that a text writes. -/
theorem toUnits_of_writes {s asset : String} {d : ℕ} {whole frac : List Char}
    (hAsset : assetDecimals asset = some d) (hWrites : Writes (trim s).toList whole frac) :
    toUnits s asset =
      if d < frac.length then .error ("At most " ++ toString d ++ " decimals for " ++ asset)
      else .ok (Nat.ofDigitChars 10 whole 0 * 10 ^ d +
        Nat.ofDigitChars 10 frac 0 * 10 ^ (d - frac.length)) := by
  have hPlain := (isPlainDecimal_iff _).mpr ⟨whole, frac, hWrites⟩
  obtain ⟨hWhole, hFrac⟩ := hWrites.splitOn
  simp only [toUnits, hAsset, hPlain, Bool.not_true, Bool.false_eq_true, if_false, hWhole, hFrac]
  split
  · rfl
  · rename_i hFits
    rw [bigInt_ofList, bigInt_ofList, ofDigitChars_orZero, ofDigitChars_padded (by omega)]

theorem units_eq_value {whole frac : List Char} {d : ℕ} (hFits : frac.length ≤ d) :
    ((Nat.ofDigitChars 10 whole 0 * 10 ^ d +
      Nat.ofDigitChars 10 frac 0 * 10 ^ (d - frac.length) : ℕ) : ℚ) =
        value whole frac * 10 ^ d := by
  have hPow : (10 : ℚ) ^ d = 10 ^ (d - frac.length) * 10 ^ frac.length := by
    rw [← pow_add]
    congr 1
    omega
  rw [value, hPow]
  push_cast
  field_simp
  rw [hPow]
  ring

/-- It answers the plain decimals that the asset has room for, with their exact value. -/
theorem toUnits_eq_ok {s asset : String} {d units : ℕ} (hAsset : assetDecimals asset = some d) :
    toUnits s asset = .ok units ↔
      ∃ x places, Reads (trim s) x places ∧ places ≤ d ∧ (units : ℚ) = x * 10 ^ d := by
  constructor
  · intro hUnits
    by_cases hPlain : isPlainDecimal (trim s).toList = true
    · obtain ⟨whole, frac, hWrites⟩ := (isPlainDecimal_iff _).mp hPlain
      rw [toUnits_of_writes hAsset hWrites] at hUnits
      split at hUnits
      · cases hUnits
      · rename_i hFits
        have hFits' : frac.length ≤ d := by omega
        rw [Except.ok.injEq] at hUnits
        subst hUnits
        exact ⟨_, _, ⟨whole, frac, hWrites, rfl, rfl⟩, hFits', units_eq_value hFits'⟩
    · rw [Bool.not_eq_true] at hPlain
      simp [toUnits, hAsset, hPlain] at hUnits
  · rintro ⟨x, places, ⟨whole, frac, hWrites, rfl, rfl⟩, hFits, hUnits⟩
    rw [toUnits_of_writes hAsset hWrites, if_neg (by omega), Except.ok.injEq]
    rw [← units_eq_value hFits] at hUnits
    exact_mod_cast hUnits.symm

/-! ## The digits of `fromUnits` -/

/-- The white space of `trim` below `0` and above `9`. -/
theorem spaces_away : ∀ n ∈ [9, 10, 11, 12, 13, 32, 160, 5760, 8232, 8233, 8239, 8287, 12288, 65279],
    n ≤ 32 ∨ 160 ≤ n := by decide

theorem isSpace_of_isDigit {c : Char} (hDigit : c.isDigit) : isSpace c = false := by
  simp only [Char.isDigit, Bool.and_eq_true, decide_eq_true_eq, ge_iff_le,
    UInt32.le_iff_toNat_le] at hDigit
  have hLow : 48 ≤ c.toNat := hDigit.1
  have hHigh : c.toNat ≤ 57 := hDigit.2
  rw [isSpace, Bool.or_eq_false_iff, decide_eq_false_iff_not, Bool.and_eq_false_iff]
  constructor
  · intro hMem
    rcases spaces_away _ hMem with h | h
    · omega
    · omega
  · exact .inl (decide_eq_false (by omega))

/-- A decimal has no white space at its ends. -/
theorem Writes.trim_eq {s : String} {whole frac : List Char} (h : Writes s.toList whole frac) :
    trim s = s := by
  have hDigit : ∀ c ∈ s.toList, c = '.' ∨ c.isDigit := by
    intro c hc
    rw [h.text_eq] at hc
    rcases List.mem_append.mp hc with hc | hc
    · exact .inr (h.whole_digits c hc)
    · split at hc
      · cases hc
      · rcases List.mem_cons.mp hc with rfl | hc
        · exact .inl rfl
        · exact .inr (h.frac_digits c hc)
  have hKeep : ∀ c ∈ s.toList, isSpace c = false := by
    intro c hc
    rcases hDigit c hc with rfl | hc
    · rfl
    · exact isSpace_of_isDigit hc
  apply trim_eq_self
  · intro c hc
    exact hKeep c (List.mem_of_head? hc)
  · intro c hc
    exact hKeep c (List.mem_of_getLast? hc)

/-- `padStart` leaves more digits than the asset has decimals, and the value as it was. -/
theorem padded_digits (units d : ℕ) :
    let s := (toString units).toList.leftpad (d + 1) '0'
    d < s.length ∧ (∀ c ∈ s, c.isDigit) ∧ Nat.ofDigitChars 10 s 0 = units := by
  have hDigits : (toString units).toList = Nat.toDigits 10 units := by
    rw [Nat.toString_eq_ofList_toDigits, String.toList_ofList]
  rw [hDigits]
  refine ⟨?_, ?_, ?_⟩
  · rw [List.length_leftpad]
    omega
  · intro c hc
    rw [List.leftpad] at hc
    rcases List.mem_append.mp hc with hc | hc
    · rw [(List.mem_replicate.mp hc).2]
      rfl
    · exact Nat.isDigit_of_mem_toDigits (by omega) (by omega) hc
  · rw [List.leftpad, Nat.ofDigitChars_append, Nat.ofDigitChars_replicate_zero, Nat.mul_zero,
      Nat.ofDigitChars_ten_toDigits]

/-- `fromUnits` writes a decimal of `d` places whose digits are those of the units. -/
theorem fromUnits_writes {asset : String} {d : ℕ} (hAsset : assetDecimals asset = some d)
    (units : ℕ) : ∃ whole frac, Writes (fromUnits units asset).toList whole frac ∧
      frac.length = d ∧ Nat.ofDigitChars 10 (whole ++ frac) 0 = units := by
  obtain ⟨hLong, hDigits, hValue⟩ := padded_digits units d
  revert hLong hDigits hValue
  simp only [fromUnits, hAsset, Option.getD_some]
  generalize (toString units).toList.leftpad (d + 1) '0' = s
  intro hLong hDigits hValue
  refine ⟨s.take (s.length - d), s.drop (s.length - d), ⟨?_, ?_, ?_, ?_⟩, ?_, ?_⟩
  · by_cases hZero : d = 0
    · subst hZero
      simp
    · have hFrac : s.drop (s.length - d) ≠ [] := by
        rw [ne_eq, List.drop_eq_nil_iff]
        omega
      rw [if_pos hZero, if_neg hFrac, String.toList_ofList]
  · rw [ne_eq, List.take_eq_nil_iff]
    rintro (hZero | rfl)
    · omega
    · simp at hLong
  · exact fun c hc => hDigits c (List.mem_of_mem_take hc)
  · exact fun c hc => hDigits c (List.mem_of_mem_drop hc)
  · rw [List.length_drop]
    omega
  · rw [List.take_append_drop, hValue]

theorem toUnits_fromUnits {asset : String} {d : ℕ} (hAsset : assetDecimals asset = some d)
    (units : ℕ) : toUnits (fromUnits units asset) asset = .ok units := by
  obtain ⟨whole, frac, hWrites, hPlaces, hValue⟩ := fromUnits_writes hAsset units
  have hTrim := hWrites.trim_eq
  rw [toUnits_of_writes hAsset (by rwa [hTrim]), if_neg (by omega), Except.ok.injEq, hPlaces,
    Nat.sub_self, Nat.pow_zero, Nat.mul_one]
  rw [Nat.ofDigitChars_append, Nat.ofDigitChars_eq_ofDigitChars_zero, hPlaces] at hValue
  rw [Nat.mul_comm]
  exact hValue

/-- A text writes one decimal. -/
theorem Writes.unique {text whole frac whole' frac' : List Char} (h : Writes text whole frac)
    (h' : Writes text whole' frac') : whole = whole' ∧ frac = frac' := by
  obtain ⟨hWhole, hFrac⟩ := h.splitOn
  obtain ⟨hWhole', hFrac'⟩ := h'.splitOn
  exact ⟨hWhole.symm.trans hWhole', hFrac.symm.trans hFrac'⟩

theorem Reads.unique {text : String} {x x' : ℚ} {places places' : ℕ} (h : Reads text x places)
    (h' : Reads text x' places') : x = x' := by
  obtain ⟨whole, frac, hWrites, rfl, -⟩ := h
  obtain ⟨whole', frac', hWrites', rfl, -⟩ := h'
  obtain ⟨rfl, rfl⟩ := hWrites.unique hWrites'
  rfl

/-- What an asset has room for is a whole number of its base units. -/
theorem Reads.exists_units {text : String} {x : ℚ} {places d : ℕ} (h : Reads text x places)
    (hFits : places ≤ d) : ∃ units : ℕ, (units : ℚ) = x * 10 ^ d := by
  obtain ⟨whole, frac, -, rfl, rfl⟩ := h
  exact ⟨_, units_eq_value hFits⟩

theorem toUnits_exact (asset : String) (d : ℕ) (hAsset : assetDecimals asset = some d) :
    (∀ units : ℕ, toUnits (fromUnits units asset) asset = .ok units) ∧
      ∀ s : String,
        ((∃ units, toUnits s asset = .ok units) ↔
          ∃ x places, Reads (trim s) x places ∧ places ≤ d) ∧
        ∀ units x places, toUnits s asset = .ok units → Reads (trim s) x places →
          (units : ℚ) = x * 10 ^ d := by
  refine ⟨toUnits_fromUnits hAsset, ?_⟩
  intro s
  refine ⟨⟨?_, ?_⟩, ?_⟩
  · rintro ⟨units, hUnits⟩
    obtain ⟨x, places, hReads, hFits, -⟩ := (toUnits_eq_ok hAsset).mp hUnits
    exact ⟨x, places, hReads, hFits⟩
  · rintro ⟨x, places, hReads, hFits⟩
    obtain ⟨units, hUnits⟩ := hReads.exists_units hFits
    exact ⟨units, (toUnits_eq_ok hAsset).mpr ⟨x, places, hReads, hFits, hUnits⟩⟩
  · intro units x places hUnits hReads
    obtain ⟨x', places', hReads', -, hValue⟩ := (toUnits_eq_ok hAsset).mp hUnits
    rw [hReads.unique hReads']
    exact hValue

/-- "12.5" FARM are 1250 base units, and these are "12.50" FARM. -/
theorem twelve_and_a_half_farm :
    (toUnits (fromUnits 1250 "FARM") "FARM" = .ok 1250 ∧
      ∃ x places, Reads (trim " 12.5 ") x places ∧ places ≤ 2) ∧
      fromUnits 1250 "FARM" = "12.50" ∧ toUnits " 12.5 " "FARM" = .ok 1250 := by
  have hUnits : toUnits " 12.5 " "FARM" = .ok 1250 := by decide +kernel
  obtain ⟨hRound, hAll⟩ := toUnits_exact "FARM" 2 rfl
  exact ⟨⟨hRound 1250, (hAll " 12.5 ").1.mp ⟨1250, hUnits⟩⟩, by decide +kernel, hUnits⟩

end FarmBackend.X402
