import Mathlib.Data.List.Basic
import Mathlib.Data.List.TakeWhile
import Mathlib.Tactic.SplitIfs

/-!
# JSON texts

`JSON.parse` and `JSON.stringify`. A number is what it prints as, so what `Number` makes of a literal
is a parameter. A string is a sequence of characters: an escape of half of one is refused.
-/

namespace FarmBackend.JsonText

set_option autoImplicit false

/-! ## Values -/

def isDigit (c : Char) : Bool := '0' ≤ c && c ≤ '9'

def isNumberChar (c : Char) : Bool := isDigit c || ['-', '+', '.', 'e', 'E'].contains c

def isExponent (text : List Char) : Bool :=
  match text with
  | [] => true
  | e :: rest =>
    let digits := if rest.head? = some '-' ∨ rest.head? = some '+' then rest.tail else rest
    (e == 'e' || e == 'E') && !digits.isEmpty && digits.all isDigit

def isFraction (text : List Char) : Bool :=
  match text with
  | '.' :: rest => !(rest.takeWhile isDigit).isEmpty && isExponent (rest.dropWhile isDigit)
  | rest => isExponent rest

/-- `-?(0|[1-9]\d*)(\.\d+)?([eE][+-]?\d+)?`. -/
def isNumber (text : List Char) : Bool :=
  let unsigned := if text.head? = some '-' then text.tail else text
  let whole := unsigned.takeWhile isDigit
  text.all isNumberChar && (whole == ['0'] || whole.head?.any (· != '0')) &&
    isFraction (unsigned.dropWhile isDigit)

structure Numeral where
  text : List Char
  valid : isNumber text = true
  deriving DecidableEq

mutual

/-- `infinite` is a literal beyond all numbers, of either sign. -/
inductive Json where
  | null
  | bool (b : Bool)
  | num (n : Numeral)
  | infinite (negative : Bool)
  | str (s : String)
  | arr (items : Items)
  | obj (fields : Fields)

inductive Items where
  | nil
  | cons (head : Json) (tail : Items)

inductive Fields where
  | nil
  | cons (key : String) (value : Json) (rest : Fields)

end

namespace Fields

def get (key : String) : Fields → Option Json
  | .nil => none
  | .cons name value rest => if name = key then some value else get key rest

def remove (key : String) : Fields → Fields
  | .nil => .nil
  | .cons name value rest => if name = key then remove key rest else .cons name value (remove key rest)

theorem get_remove {key other : String} (h : other ≠ key) : ∀ fields : Fields,
    (fields.remove key).get other = fields.get other
  | .nil => rfl
  | .cons name value rest => by
    have hRest := get_remove h rest
    by_cases hName : name = key
    · rw [remove, if_pos hName, get, if_neg (by rw [hName]; exact h.symm), hRest]
    · rw [remove, if_neg hName, get, get, hRest]

/-- The value of a key, in its place when there is one. -/
def set (key : String) (value : Json) : Fields → Fields
  | .nil => .cons key value .nil
  | .cons name old rest =>
    if name = key then .cons name value rest else .cons name old (set key value rest)

def append : Fields → Fields → Fields
  | .nil, fields => fields
  | .cons key value rest, fields => .cons key value (append rest fields)

def keep (p : String → Bool) : Fields → Fields
  | .nil => .nil
  | .cons key value rest => if p key then .cons key value (keep p rest) else keep p rest

end Fields

/-! An object lists its array indices first, in their order. -/

def index (key : String) : Option ℕ :=
  let digits := key.toList
  if digits.all isDigit && (digits == ['0'] || digits.head?.any (· != '0')) then
    (key.toNat?).filter (· < 4294967295)
  else none

namespace Fields

def insertIndex (key : String) (value : Json) : Fields → Fields
  | .nil => .cons key value .nil
  | .cons name old rest =>
    if (index key).getD 0 < (index name).getD 0 then .cons key value (.cons name old rest)
    else .cons name old (insertIndex key value rest)

section
-- Their equations are derived once, before the proofs that unfold them.
attribute [local simp] set append keep insertIndex
end

def sortIndices : Fields → Fields
  | .nil => .nil
  | .cons key value rest => insertIndex key value (sortIndices rest)

/-- A key that is given again takes the later value. -/
def setAll : Fields → Fields → Fields
  | .nil, seen => seen
  | .cons key value rest, seen => setAll rest (seen.set key value)

/-- The object that a text with these fields stands for. -/
def normalize (fields : Fields) : Fields :=
  let distinct := fields.setAll .nil
  ((distinct.keep fun key => (index key).isSome).sortIndices).append
    (distinct.keep fun key => (index key).isNone)

end Fields

/-! ## `JSON.stringify` -/

def hexDigit (n : ℕ) : Char := "0123456789abcdef".toList.getD n '0'

/-- Below `' '`. -/
def escapeControl (n : ℕ) : List Char :=
  match n with
  | 8 => ['\\', 'b']
  | 9 => ['\\', 't']
  | 10 => ['\\', 'n']
  | 12 => ['\\', 'f']
  | 13 => ['\\', 'r']
  | n => ['\\', 'u', '0', '0', hexDigit (n / 16), hexDigit (n % 16)]

def escape (c : Char) : List Char :=
  if c = '"' then ['\\', '"']
  else if c = '\\' then ['\\', '\\']
  else if c.toNat < 32 then escapeControl c.toNat
  else [c]

def quote (s : String) : List Char := '"' :: (s.toList.flatMap escape ++ ['"'])

mutual

def Json.text : Json → List Char
  | .null | .infinite _ => ['n', 'u', 'l', 'l']
  | .bool true => ['t', 'r', 'u', 'e']
  | .bool false => ['f', 'a', 'l', 's', 'e']
  | .num n => n.text
  | .str s => quote s
  | .arr .nil => ['[', ']']
  | .arr (.cons head tail) => '[' :: (head.text ++ tail.more)
  | .obj .nil => ['{', '}']
  | .obj (.cons key value rest) => '{' :: (quote key ++ ':' :: (value.text ++ rest.more))

/-- What follows an item, to the end of the array. -/
def Items.more : Items → List Char
  | .nil => [']']
  | .cons head tail => ',' :: (head.text ++ tail.more)

def Fields.more : Fields → List Char
  | .nil => ['}']
  | .cons key value rest => ',' :: (quote key ++ ':' :: (value.text ++ rest.more))

end

section
-- Their equations are derived once, before the proofs that unfold them.
attribute [local simp] Json.text Items.more Fields.more
end

def stringify (value : Json) : String := String.ofList value.text

/-! ## `JSON.parse` -/

def isBlank (c : Char) : Bool := c == ' ' || c == '\t' || c == '\n' || c == '\r'

def skip (text : List Char) : List Char := text.dropWhile isBlank

def hexValue (c : Char) : Option ℕ :=
  if '0' ≤ c ∧ c ≤ '9' then some (c.toNat - '0'.toNat)
  else if 'a' ≤ c ∧ c ≤ 'f' then some (c.toNat - 'a'.toNat + 10)
  else if 'A' ≤ c ∧ c ≤ 'F' then some (c.toNat - 'A'.toNat + 10)
  else none

def hex4 (p q r s : Char) : Option ℕ := do
  let p ← hexValue p
  let q ← hexValue q
  let r ← hexValue r
  let s ← hexValue s
  return ((p * 16 + q) * 16 + r) * 16 + s

def unescape (c : Char) : Option ℕ :=
  if c = '"' ∨ c = '\\' ∨ c = '/' then some c.toNat
  else if c = 'b' then some 8
  else if c = 't' then some 9
  else if c = 'n' then some 10
  else if c = 'f' then some 12
  else if c = 'r' then some 13
  else none

/-- The code units of a character, one or two. -/
def units (c : Char) : List ℕ :=
  if c.toNat < 65536 then [c.toNat]
  else [55296 + (c.toNat - 65536) / 1024, 56320 + (c.toNat - 65536) % 1024]

def ofUnits : List ℕ → Option (List Char)
  | [] => some []
  | u :: rest =>
    if 55296 ≤ u ∧ u < 56320 then
      match rest with
      | [] => none
      | v :: rest =>
        if 56320 ≤ v ∧ v < 57344 then
          (ofUnits rest).map (Char.ofNat (65536 + (u - 55296) * 1024 + (v - 56320)) :: ·)
        else none
    else if 56320 ≤ u ∧ u < 57344 then none
    else (ofUnits rest).map (Char.ofNat u :: ·)

/-- The code units of a string up to its closing quote, and what follows. -/
def unquote : List Char → Option (List ℕ × List Char)
  | [] => none
  | c :: rest =>
    if c = '"' then some ([], rest)
    else if c = '\\' then
      match rest with
      | [] => none
      | e :: rest =>
        if e = 'u' then
          match rest with
          | p :: q :: r :: s :: rest =>
            (hex4 p q r s).bind fun u => (unquote rest).map fun x => (u :: x.1, x.2)
          | _ => none
        else (unescape e).bind fun u => (unquote rest).map fun x => (u :: x.1, x.2)
    else if c.toNat < 32 then none
    else (unquote rest).map fun x => (units c ++ x.1, x.2)

section
-- Its equations are derived once, before the proofs that unfold it.
attribute [local simp] unquote
end

/-- After the opening quote. -/
def parseString (text : List Char) : Option (String × List Char) :=
  (unquote text).bind fun x => (ofUnits x.1).map fun s => (String.ofList s, x.2)

def parseKey (text : List Char) : Option (String × List Char) :=
  match skip text with
  | [] => none
  | c :: rest =>
    if c = '"' then
      (parseString rest).bind fun x =>
        match skip x.2 with
        | [] => none
        | c :: rest => if c = ':' then some (x.1, rest) else none
    else none

section Parse
variable (number : List Char → Option Numeral)

def parseNumber (text : List Char) : Option (Json × List Char) :=
  let literal := text.takeWhile isNumberChar
  if isNumber literal then
    some (((number literal).map Json.num).getD (.infinite (literal.head? == some '-')),
      text.dropWhile isNumberChar)
  else none

def parseLiteral (literal : List Char) (value : Json) (text : List Char) : Option (Json × List Char) :=
  if literal.isPrefixOf text then some (value, text.drop literal.length) else none

mutual

def parseValue : ℕ → List Char → Option (Json × List Char)
  | 0, _ => none
  | fuel + 1, text =>
    match skip text with
    | [] => none
    | c :: rest =>
      if c = '"' then (parseString rest).map fun x => (.str x.1, x.2)
      else if c = '[' then
        match skip rest with
        | [] => none
        | d :: left =>
          if d = ']' then some (.arr .nil, left)
          else
            (parseValue fuel rest).bind fun x =>
              (parseItems fuel x.2).map fun y => (.arr (.cons x.1 y.1), y.2)
      else if c = '{' then
        match skip rest with
        | [] => none
        | d :: left =>
          if d = '}' then some (.obj .nil, left)
          else
            (parseKey rest).bind fun k =>
              (parseValue fuel k.2).bind fun x =>
                (parseFields fuel x.2).map fun y => (.obj (Fields.normalize (.cons k.1 x.1 y.1)), y.2)
      else if c = 'n' then parseLiteral ['n', 'u', 'l', 'l'] .null (c :: rest)
      else if c = 't' then parseLiteral ['t', 'r', 'u', 'e'] (.bool true) (c :: rest)
      else if c = 'f' then parseLiteral ['f', 'a', 'l', 's', 'e'] (.bool false) (c :: rest)
      else parseNumber number (c :: rest)

/-- After an item of an array. -/
def parseItems : ℕ → List Char → Option (Items × List Char)
  | 0, _ => none
  | fuel + 1, text =>
    match skip text with
    | [] => none
    | c :: rest =>
      if c = ']' then some (.nil, rest)
      else if c = ',' then
        (parseValue fuel rest).bind fun x =>
          (parseItems fuel x.2).map fun y => (.cons x.1 y.1, y.2)
      else none

/-- After a field of an object, in the order of the text. -/
def parseFields : ℕ → List Char → Option (Fields × List Char)
  | 0, _ => none
  | fuel + 1, text =>
    match skip text with
    | [] => none
    | c :: rest =>
      if c = '}' then some (.nil, rest)
      else if c = ',' then
        (parseKey rest).bind fun k =>
          (parseValue fuel k.2).bind fun x =>
            (parseFields fuel x.2).map fun y => (.cons k.1 x.1 y.1, y.2)
      else none

end

section
-- Their equations are derived once, before the proofs that unfold them.
attribute [local simp] parseValue parseItems parseFields
end

/-- Every value takes a character, so the fuel is never used up. -/
def parse (text : String) : Option Json :=
  (parseValue number (text.toList.length + 1) text.toList).bind fun x =>
    if (skip x.2).isEmpty then some x.1 else none

end Parse

/-! ## Strings are read back -/

theorem ofUnits_units (c : Char) (us : List ℕ) :
    ofUnits (units c ++ us) = (ofUnits us).map (c :: ·) := by
  have hValid : c.toNat < 55296 ∨ (57343 < c.toNat ∧ c.toNat < 1114112) := c.valid
  unfold units
  split_ifs with hShort
  · rw [List.singleton_append, ofUnits.eq_def]
    simp only
    rw [if_neg (by omega), if_neg (by omega), Char.ofNat_toNat]
  · have hChar : 65536 + (55296 + (c.toNat - 65536) / 1024 - 55296) * 1024 +
        (56320 + (c.toNat - 65536) % 1024 - 56320) = c.toNat := by omega
    rw [List.cons_append, List.singleton_append, ofUnits.eq_def]
    simp only
    rw [if_pos (by omega), if_pos (by omega), hChar, Char.ofNat_toNat]

theorem ofUnits_flatMap (text : List Char) : ofUnits (text.flatMap units) = some text := by
  induction text with
  | nil => rfl
  | cons c text ih => rw [List.flatMap_cons, ofUnits_units, ih, Option.map_some]

theorem unquote_end (text : List Char) : unquote ('"' :: text) = some ([], text) := by
  rw [unquote.eq_def]
  exact if_pos rfl

theorem unquote_plain {c : Char} (hQuote : c ≠ '"') (hEscape : c ≠ '\\') (hPrinted : ¬c.toNat < 32)
    (text : List Char) : unquote (c :: text) = (unquote text).map fun x => (units c ++ x.1, x.2) := by
  rw [unquote.eq_def]
  simp only [if_neg hQuote, if_neg hEscape, if_neg hPrinted]

theorem unquote_escaped {e : Char} {u : ℕ} (hUnicode : e ≠ 'u') (h : unescape e = some u)
    (text : List Char) : unquote ('\\' :: e :: text) = (unquote text).map fun x => (u :: x.1, x.2) := by
  rw [unquote.eq_def]
  simp only [if_neg (by decide : ¬ '\\' = '"'), if_pos, if_neg hUnicode, h, Option.bind_some]

theorem unquote_unicode {p q r s : Char} {u : ℕ} (h : hex4 p q r s = some u) (text : List Char) :
    unquote ('\\' :: 'u' :: p :: q :: r :: s :: text) =
      (unquote text).map fun x => (u :: x.1, x.2) := by
  rw [unquote.eq_def]
  simp only [if_neg (by decide : ¬ '\\' = '"'), if_pos, h, Option.bind_some]

/-- The forms of an escaped control character. -/
theorem escapeControl_form : ∀ n < 32,
    (∃ e ∈ ['b', 't', 'n', 'f', 'r'], escapeControl n = ['\\', e] ∧ unescape e = some n) ∨
      (escapeControl n = ['\\', 'u', '0', '0', hexDigit (n / 16), hexDigit (n % 16)] ∧
        hex4 '0' '0' (hexDigit (n / 16)) (hexDigit (n % 16)) = some n) := by
  have hAll : ∀ n < 32,
      (['b', 't', 'n', 'f', 'r'].any fun e => escapeControl n = ['\\', e] ∧ unescape e = some n) ∨
        (escapeControl n = ['\\', 'u', '0', '0', hexDigit (n / 16), hexDigit (n % 16)] ∧
          hex4 '0' '0' (hexDigit (n / 16)) (hexDigit (n % 16)) = some n) := by decide +kernel
  intro n hLt
  refine (hAll n hLt).imp_left fun hShort => ?_
  obtain ⟨e, hMem, hForm⟩ := List.any_eq_true.mp hShort
  exact ⟨e, hMem, of_decide_eq_true hForm⟩

theorem unquote_escape (c : Char) (text : List Char) :
    unquote (escape c ++ text) = (unquote text).map fun x => (units c ++ x.1, x.2) := by
  unfold escape
  split_ifs with hQuote hEscape hControl
  · rw [hQuote]
    exact unquote_escaped (by decide) rfl text
  · rw [hEscape]
    exact unquote_escaped (by decide) rfl text
  · have hUnits : units c = [c.toNat] := if_pos (by omega)
    rw [hUnits]
    rcases escapeControl_form c.toNat hControl with ⟨e, hMem, hForm, hValue⟩ | ⟨hForm, hValue⟩
    · rw [hForm]
      refine unquote_escaped ?_ hValue text
      rintro rfl
      exact absurd hMem (by decide)
    · rw [hForm]
      exact unquote_unicode hValue text
  · exact unquote_plain hQuote hEscape hControl text

theorem unquote_flatMap (s rest : List Char) :
    unquote (s.flatMap escape ++ '"' :: rest) = some (s.flatMap units, rest) := by
  induction s with
  | nil => exact unquote_end rest
  | cons c s ih =>
    rw [List.flatMap_cons, List.append_assoc, unquote_escape, ih]
    rfl

theorem parseString_quote (s : String) (rest : List Char) :
    parseString (s.toList.flatMap escape ++ '"' :: rest) = some (s, rest) := by
  rw [parseString, unquote_flatMap, Option.bind_some, ofUnits_flatMap, Option.map_some,
    String.ofList_toList]

theorem quote_append (s : String) (rest : List Char) :
    quote s ++ rest = '"' :: (s.toList.flatMap escape ++ '"' :: rest) := by
  simp [quote]

theorem quote_inj {s s' : String} {rest rest' : List Char} (h : quote s ++ rest = quote s' ++ rest') :
    s = s' ∧ rest = rest' := by
  rw [quote_append, quote_append, List.cons.injEq] at h
  have hRead := congrArg parseString h.2
  rw [parseString_quote, parseString_quote, Option.some.injEq, Prod.mk.injEq] at hRead
  exact hRead

/-! ## Flat objects

Their values are strings and numbers. -/

def Json.IsScalar : Json → Prop
  | .num _ | .str _ => True
  | .null | .bool _ | .infinite _ | .arr _ | .obj _ => False

def Fields.Flat : Fields → Prop
  | .nil => True
  | .cons _ value rest => value.IsScalar ∧ rest.Flat

/-- A number does not go on here. -/
def Stops (rest : List Char) : Prop := ∀ c, rest.head? = some c → isNumberChar c = false

theorem Numeral.all (n : Numeral) : ∀ c ∈ n.text, isNumberChar c = true := by
  have hValid := n.valid
  simp only [isNumber, Bool.and_eq_true, List.all_eq_true] at hValid
  exact hValid.1.1

theorem Numeral.ne_nil (n : Numeral) : n.text ≠ [] := by
  intro hNil
  have hValid := n.valid
  rw [hNil] at hValid
  exact absurd hValid (by decide)

section Literals
variable {n : Numeral} {rest : List Char}

theorem takeWhile_num (h : Stops rest) : (n.text ++ rest).takeWhile isNumberChar = n.text := by
  rw [List.takeWhile_append_of_pos n.all]
  cases rest with
  | nil => rw [List.takeWhile_nil, List.append_nil]
  | cons c rest =>
    have hStop : ¬isNumberChar c = true := by simp [h c rfl]
    rw [List.takeWhile_cons_of_neg hStop, List.append_nil]

theorem dropWhile_num (h : Stops rest) : (n.text ++ rest).dropWhile isNumberChar = rest := by
  rw [List.dropWhile_append_of_pos n.all]
  cases rest with
  | nil => rfl
  | cons c rest =>
    have hStop : ¬isNumberChar c = true := by simp [h c rfl]
    exact List.dropWhile_cons_of_neg hStop

end Literals

theorem stops_more (fields : Fields) (rest : List Char) : Stops (fields.more ++ rest) := by
  cases fields <;> exact fun c hHead => by cases hHead; rfl

/-- The first character tells numbers and strings from the other values. -/
theorem Json.text_head (value : Json) : ∃ c rest, value.text = c :: rest ∧
    (isNumberChar c = true → ∃ n, value = .num n) ∧ (c = '"' → ∃ s, value = .str s) := by
  cases value with
  | null => exact ⟨'n', _, rfl, fun h => absurd h (by decide), fun h => absurd h (by decide)⟩
  | infinite _ => exact ⟨'n', _, rfl, fun h => absurd h (by decide), fun h => absurd h (by decide)⟩
  | bool b =>
    cases b with
    | true => exact ⟨'t', _, rfl, fun h => absurd h (by decide), fun h => absurd h (by decide)⟩
    | false => exact ⟨'f', _, rfl, fun h => absurd h (by decide), fun h => absurd h (by decide)⟩
  | num n =>
    obtain ⟨c, rest, hText⟩ := List.exists_cons_of_ne_nil n.ne_nil
    refine ⟨c, rest, hText, fun _ => ⟨n, rfl⟩, ?_⟩
    rintro rfl
    exact absurd (n.all _ (hText ▸ List.mem_cons_self)) (by decide)
  | str s => exact ⟨'"', _, rfl, fun h => absurd h (by decide), fun _ => ⟨s, rfl⟩⟩
  | arr items =>
    cases items with
    | nil => exact ⟨'[', _, rfl, fun h => absurd h (by decide), fun h => absurd h (by decide)⟩
    | cons head tail =>
      exact ⟨'[', _, rfl, fun h => absurd h (by decide), fun h => absurd h (by decide)⟩
  | obj fields =>
    cases fields with
    | nil => exact ⟨'\x7b', _, rfl, fun h => absurd h (by decide), fun h => absurd h (by decide)⟩
    | cons key value rest =>
      exact ⟨'\x7b', _, rfl, fun h => absurd h (by decide), fun h => absurd h (by decide)⟩

/-! ### They are read in one way -/

theorem Json.scalar_inj {value scalar : Json} {rest rest' : List Char} (hScalar : scalar.IsScalar)
    (hRest : Stops rest) (hRest' : Stops rest') (h : value.text ++ rest = scalar.text ++ rest') :
    value = scalar ∧ rest = rest' := by
  obtain ⟨c, left, hText, hNumber, hString⟩ := value.text_head
  have hHead : (scalar.text ++ rest').head? = some c := by rw [← h, hText]; rfl
  cases scalar with
  | num n =>
    obtain ⟨m, rfl⟩ : ∃ m, value = .num m := by
      apply hNumber
      rw [Json.text, List.head?_append_of_ne_nil _ n.ne_nil] at hHead
      exact n.all c (List.mem_of_mem_head? hHead)
    simp only [Json.text] at h
    have hLiteral := congrArg (List.takeWhile isNumberChar) h
    rw [takeWhile_num hRest, takeWhile_num hRest'] at hLiteral
    rw [hLiteral, List.append_cancel_left_eq] at h
    cases m
    cases n
    cases hLiteral
    exact ⟨rfl, h⟩
  | str s =>
    obtain ⟨s', rfl⟩ : ∃ s', value = .str s' := hString (Option.some.inj hHead).symm
    obtain ⟨rfl, rfl⟩ := quote_inj h
    exact ⟨rfl, rfl⟩
  | null | bool _ | infinite _ | arr _ | obj _ => exact hScalar.elim

theorem Fields.more_inj : ∀ {fields flat : Fields} {rest rest' : List Char}, flat.Flat →
    fields.more ++ rest = flat.more ++ rest' → fields = flat ∧ rest = rest'
  | .nil, .nil, _, _, _, h => ⟨rfl, (List.cons.inj h).2⟩
  | .nil, .cons _ _ _, _, _, _, h => absurd (List.cons.inj h).1 (by decide)
  | .cons _ _ _, .nil, _, _, _, h => absurd (List.cons.inj h).1 (by decide)
  | .cons key value more, .cons key' value' more', rest, rest', hFlat, h => by
    simp only [Fields.more, List.cons_append, List.append_assoc, List.cons.injEq, true_and] at h
    obtain ⟨rfl, hAfter⟩ := quote_inj h
    obtain ⟨rfl, hMore⟩ := Json.scalar_inj hFlat.1 (stops_more _ _) (stops_more _ _)
      (List.cons.inj hAfter).2
    obtain ⟨rfl, hRest⟩ := Fields.more_inj hFlat.2 hMore
    exact ⟨rfl, hRest⟩

theorem Fields.eq_of_stringify_eq {fields flat : Fields} (hFlat : flat.Flat)
    (h : stringify (.obj fields) = stringify (.obj flat)) : fields = flat := by
  have hText : (Json.obj fields).text = (Json.obj flat).text := String.ofList_injective h
  cases fields with
  | nil =>
    cases flat with
    | nil => rfl
    | cons key value rest => exact absurd (List.cons.inj (List.cons.inj hText).2).1 (by decide)
  | cons key value rest =>
    cases flat with
    | nil => exact absurd (List.cons.inj (List.cons.inj hText).2).1 (by decide)
    | cons key' value' rest' =>
      have hMore : (Fields.cons key value rest).more ++ [] = (Fields.cons key' value' rest').more ++ [] := by
        simp only [Fields.more, List.append_nil, List.cons.injEq, true_and]
        exact (List.cons.inj hText).2
      exact (Fields.more_inj hFlat hMore).1

/-! ### They are read back -/

section Roundtrip
variable {number : List Char → Option Numeral}

def Json.Reads (number : List Char → Option Numeral) : Json → Prop
  | .num n => number n.text = some n
  | .null | .bool _ | .infinite _ | .str _ | .arr _ | .obj _ => True

def Fields.Read (number : List Char → Option Numeral) : Fields → Prop
  | .nil => True
  | .cons _ value rest => value.Reads number ∧ rest.Read number

def Fields.length : Fields → ℕ
  | .nil => 0
  | .cons _ _ rest => rest.length + 1

theorem Fields.length_lt_more : ∀ fields : Fields, fields.length < fields.more.length
  | .nil => Nat.zero_lt_one
  | .cons key value rest => by
    have hRest := rest.length_lt_more
    simp only [Fields.length, Fields.more, List.length_cons, List.length_append]
    omega

theorem skip_of_head {c : Char} (h : isBlank c = false) (rest : List Char) :
    skip (c :: rest) = c :: rest :=
  List.dropWhile_cons_of_neg (by simp [h])

theorem parseKey_quote (key : String) (rest : List Char) :
    parseKey (quote key ++ ':' :: rest) = some (key, rest) := by
  rw [quote_append, parseKey, skip_of_head (by decide)]
  simp only [if_pos, parseString_quote, Option.bind_some]
  rw [skip_of_head (by decide)]
  exact if_pos rfl

theorem isBlank_of_number {c : Char} (h : isNumberChar c = true) : isBlank c = false := by
  by_contra hBlank
  simp only [Bool.not_eq_false, isBlank, Bool.or_eq_true, beq_iff_eq] at hBlank
  rcases hBlank with ((rfl | rfl) | rfl) | rfl <;> exact absurd h (by decide)

theorem parseValue_scalar {value : Json} (fuel : ℕ) (rest : List Char) (hScalar : value.IsScalar)
    (hReads : value.Reads number) (hRest : Stops rest) :
    parseValue number (fuel + 1) (value.text ++ rest) = some (value, rest) := by
  cases value with
  | str s =>
    rw [Json.text, quote_append, parseValue, skip_of_head (by decide)]
    simp only [if_pos, parseString_quote, Option.map_some]
  | num n =>
    obtain ⟨c, left, hText⟩ := List.exists_cons_of_ne_nil n.ne_nil
    have hNumber : isNumberChar c = true := n.all c (hText ▸ List.mem_cons_self)
    have hOther : ∀ d, isNumberChar d = false → c ≠ d := by
      rintro d hNot rfl
      rw [hNumber] at hNot
      cases hNot
    have hParsed : parseNumber number (n.text ++ rest) = some (.num n, rest) := by
      rw [parseNumber, takeWhile_num hRest, dropWhile_num hRest, if_pos n.valid]
      have hBack : number n.text = some n := hReads
      rw [hBack]
      rfl
    rw [Json.text, hText, List.cons_append, parseValue, skip_of_head (isBlank_of_number hNumber)]
    simp only [if_neg (hOther '"' rfl), if_neg (hOther '[' rfl), if_neg (hOther '\x7b' rfl),
      if_neg (hOther 'n' rfl), if_neg (hOther 't' rfl), if_neg (hOther 'f' rfl)]
    rw [← List.cons_append, ← hText, hParsed]
  | null | bool _ | infinite _ | arr _ | obj _ => exact hScalar.elim

theorem parseFields_more : ∀ {fuel : ℕ} {fields : Fields} {rest : List Char}, fields.Flat →
    fields.Read number → fields.length < fuel →
      parseFields number fuel (fields.more ++ rest) = some (fields, rest)
  | 0, _, _, _, _, h => absurd h (Nat.not_lt_zero _)
  | fuel + 1, .nil, rest, _, _, _ => by
    rw [Fields.more, List.singleton_append, parseFields, skip_of_head (by decide)]
    exact if_pos rfl
  | fuel + 1, .cons key value more, rest, hFlat, hRead, h => by
    obtain ⟨k, rfl⟩ : ∃ k, fuel = k + 1 := Nat.exists_eq_add_one.mpr (by
      simp only [Fields.length] at h
      omega)
    have hValue := parseValue_scalar k (more.more ++ rest) hFlat.1 hRead.1 (stops_more _ _)
    have hMore : parseFields number (k + 1) (more.more ++ rest) = some (more, rest) := by
      apply parseFields_more hFlat.2 hRead.2
      simp only [Fields.length] at h
      omega
    rw [Fields.more, List.cons_append, parseFields, skip_of_head (by decide)]
    simp only [if_neg (by decide : ¬ ',' = '}'), if_pos, List.append_assoc, List.cons_append,
      parseKey_quote, Option.bind_some, hValue, hMore, Option.map_some]

theorem parse_stringify {fields : Fields} (hFlat : fields.Flat) (hRead : fields.Read number)
    (hNormal : fields.normalize = fields) :
    parse number (stringify (.obj fields)) = some (.obj fields) := by
  have hValue : parseValue number ((Json.obj fields).text.length + 1) (Json.obj fields).text =
      some (.obj fields, []) := by
    cases fields with
    | nil =>
      rw [Json.text, parseValue, skip_of_head (by decide)]
      simp only [if_neg (by decide : ¬ '\x7b' = '"'), if_neg (by decide : ¬ '\x7b' = '['), if_pos]
      rw [skip_of_head (by decide)]
      exact if_pos rfl
    | cons key value rest =>
      obtain ⟨k, hLength⟩ : ∃ k, (Json.obj (.cons key value rest)).text.length = k + 1 := ⟨_, rfl⟩
      have hLong : rest.length < k + 1 := by
        have hMore := rest.length_lt_more
        rw [← hLength]
        simp only [Json.text, List.length_cons, List.length_append]
        omega
      have hFirst := parseValue_scalar k rest.more hFlat.1 hRead.1
        (List.append_nil rest.more ▸ stops_more rest [])
      have hMore : parseFields number (k + 1) rest.more = some (rest, []) := by
        rw [← List.append_nil rest.more]
        exact parseFields_more hFlat.2 hRead.2 hLong
      have hQuote : skip (quote key ++ ':' :: (value.text ++ rest.more)) =
          '"' :: (key.toList.flatMap escape ++ '"' :: ':' :: (value.text ++ rest.more)) := by
        rw [quote_append, skip_of_head (by decide)]
      rw [hLength, Json.text, parseValue, skip_of_head (by decide)]
      simp only [if_neg (by decide : ¬ '\x7b' = '"'), if_neg (by decide : ¬ '\x7b' = '['), if_pos,
        hQuote, if_neg (by decide : ¬ '"' = '}'), parseKey_quote, Option.bind_some, hFirst, hMore,
        Option.map_some, hNormal]
  rw [parse, stringify, String.toList_ofList, hValue]
  rfl

end Roundtrip

/-! ## How a text begins and ends -/

theorem Fields.getLast?_more : ∀ fields : Fields, fields.more.getLast? = some '\x7d'
  | .nil => rfl
  | .cons key value rest => by
    have hSplit : (Fields.cons key value rest).more =
        (',' :: (quote key ++ ':' :: value.text)) ++ rest.more := by
      simp [Fields.more]
    rw [hSplit, List.getLast?_append, rest.getLast?_more]
    rfl

theorem Json.getLast?_obj (fields : Fields) : (Json.obj fields).text.getLast? = some '\x7d' := by
  cases fields with
  | nil => rfl
  | cons key value rest =>
    have hSplit : (Json.obj (.cons key value rest)).text =
        ('\x7b' :: (quote key ++ ':' :: value.text)) ++ rest.more := by
      simp [Json.text]
    rw [hSplit, List.getLast?_append, rest.getLast?_more]
    rfl

theorem Json.head?_obj (fields : Fields) : (Json.obj fields).text.head? = some '\x7b' := by
  cases fields <;> rfl

section Heads
variable {number : List Char → Option Numeral}

theorem parse_eq_none {text : String} {c : Char} {rest : List Char} (hText : text.toList = c :: rest)
    (hBlank : isBlank c = false) (hNumber : isNumberChar c = false)
    (hOther : c ∉ ['"', '[', '\x7b', 'n', 't', 'f']) : parse number text = none := by
  simp only [List.mem_cons, List.not_mem_nil, or_false, not_or] at hOther
  obtain ⟨hString, hArray, hObject, hNull, hTrue, hFalse⟩ := hOther
  have hEmpty : (c :: rest).takeWhile isNumberChar = [] :=
    List.takeWhile_cons_of_neg (by simp [hNumber])
  have hNone : parseNumber number (c :: rest) = none := by
    rw [parseNumber, hEmpty]
    exact if_neg (by decide)
  rw [parse, hText, parseValue, skip_of_head hBlank]
  simp only [if_neg hString, if_neg hArray, if_neg hObject, if_neg hNull, if_neg hTrue,
    if_neg hFalse, hNone, Option.bind_none]

theorem value_of_parseLiteral {literal text left : List Char} {value parsed : Json}
    (h : parseLiteral literal value text = some (parsed, left)) : parsed = value := by
  unfold parseLiteral at h
  split_ifs at h
  exact (congrArg Prod.fst (Option.some.inj h)).symm

theorem not_obj_of_parseNumber {text left : List Char} {fields : Fields} :
    parseNumber number text ≠ some (.obj fields, left) := by
  intro h
  unfold parseNumber at h
  simp only [Option.ite_none_right_eq_some, Option.some.injEq, Prod.mk.injEq] at h
  obtain ⟨-, h, -⟩ := h
  cases hNumber : number (text.takeWhile isNumberChar) <;> simp [hNumber] at h

theorem brace_of_parseValue {fuel : ℕ} {text left : List Char} {fields : Fields}
    (h : parseValue number fuel text = some (.obj fields, left)) :
    ∃ rest, skip text = '\x7b' :: rest := by
  cases fuel with
  | zero => cases h
  | succ fuel =>
    rw [parseValue] at h
    split at h
    · cases h
    · rename_i c rest hSkip
      rw [hSkip]
      split_ifs at h with hString hArray hObject hNull hTrue hFalse
      · obtain ⟨_, _, hSome⟩ := Option.map_eq_some_iff.mp h
        cases hSome
      · split at h
        · cases h
        · split_ifs at h
          · cases h
          · obtain ⟨_, _, hItems⟩ := Option.bind_eq_some_iff.mp h
            obtain ⟨_, _, hSome⟩ := Option.map_eq_some_iff.mp hItems
            cases hSome
      · exact ⟨rest, by rw [hObject]⟩
      · cases value_of_parseLiteral h
      · cases value_of_parseLiteral h
      · cases value_of_parseLiteral h
      · exact absurd h not_obj_of_parseNumber

/-- Only blanks stand before the brace of an object. -/
theorem brace_of_parse {text : String} {fields : Fields} (h : parse number text = some (.obj fields)) :
    ∃ blanks rest, text.toList = blanks ++ '\x7b' :: rest ∧ ∀ c ∈ blanks, isBlank c = true := by
  obtain ⟨⟨value, left⟩, hValue, hEnd⟩ := Option.bind_eq_some_iff.mp h
  split_ifs at hEnd
  cases hEnd
  obtain ⟨rest, hSkip⟩ := brace_of_parseValue hValue
  refine ⟨text.toList.takeWhile isBlank, rest, ?_, fun c hMem => List.mem_takeWhile_imp hMem⟩
  rw [← hSkip, skip, List.takeWhile_append_dropWhile]

end Heads

end FarmBackend.JsonText
