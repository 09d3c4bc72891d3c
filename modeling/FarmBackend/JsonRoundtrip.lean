import FarmBackend.JsonEquality

/-!
# Every JSON value is read back

`JSON.parse` of `JSON.stringify` is the value, at every depth: the objects list their keys in the
order in which an object lists them, and no number is beyond all numbers.
-/

namespace FarmBackend.JsonText

set_option autoImplicit false

mutual

/-- A value that `JSON.stringify` prints as it is. -/
def Json.Exact (number : List Char → Option Numeral) : Json → Prop
  | .num n => number n.text = some n
  | .infinite _ => False
  | .arr items => items.Exact number
  | .obj fields => fields.normalize = fields ∧ fields.Exact number
  | .null | .bool _ | .str _ => True

def Items.Exact (number : List Char → Option Numeral) : Items → Prop
  | .nil => True
  | .cons head tail => head.Exact number ∧ tail.Exact number

def Fields.Exact (number : List Char → Option Numeral) : Fields → Prop
  | .nil => True
  | .cons _ value rest => value.Exact number ∧ rest.Exact number

end

section Roundtrip
variable {number : List Char → Option Numeral}

theorem isBlank_mark (value : Json) : isBlank (mark value) = false := by
  cases value with
  | bool b => cases b <;> rfl
  | null | num _ | infinite _ | str _ | arr _ | obj _ => rfl

/-- A value begins neither with a blank nor with the end of an array. -/
theorem Json.head_text (value : Json) (rest : List Char) :
    ∃ c left, value.text ++ rest = c :: left ∧ isBlank c = false ∧ c ≠ ']' := by
  by_cases hNum : ∃ n, value = .num n
  · obtain ⟨n, rfl⟩ := hNum
    obtain ⟨c, left, hText⟩ := List.exists_cons_of_ne_nil n.ne_nil
    have hNumber : isNumberChar c = true := n.all c (hText ▸ List.mem_cons_self)
    refine ⟨c, left ++ rest, by rw [Json.text, hText, List.cons_append],
      isBlank_of_number hNumber, ?_⟩
    rintro rfl
    exact absurd hNumber (by decide)
  · push Not at hNum
    obtain ⟨left, hText⟩ := text_mark value hNum
    refine ⟨mark value, left ++ rest, by rw [hText, List.cons_append], isBlank_mark value, ?_⟩
    intro hBracket
    exact text_ne_bracket value [] left (by rw [List.append_nil, hText, hBracket])

theorem parseLiteral_append (literal : List Char) (value : Json) (rest : List Char) :
    parseLiteral literal value (literal ++ rest) = some (value, rest) := by
  have hPrefix : literal.isPrefixOf (literal ++ rest) = true :=
    List.isPrefixOf_iff_prefix.mpr (List.prefix_append literal rest)
  rw [parseLiteral, if_pos hPrefix, List.drop_left]

theorem parseValue_atom {fuel : ℕ} {value : Json} {rest : List Char}
    (hAtom : value = .null ∨ ∃ b, value = .bool b) :
    parseValue number (fuel + 1) (value.text ++ rest) = some (value, rest) := by
  rcases hAtom with rfl | ⟨b, rfl⟩
  · have hLiteral := parseLiteral_append ['n', 'u', 'l', 'l'] .null rest
    rw [Json.text, List.cons_append, parseValue, skip_of_head (by decide)]
    simpa using hLiteral
  · cases b with
    | true =>
      have hLiteral := parseLiteral_append ['t', 'r', 'u', 'e'] (.bool true) rest
      rw [Json.text, List.cons_append, parseValue, skip_of_head (by decide)]
      simpa using hLiteral
    | false =>
      have hLiteral := parseLiteral_append ['f', 'a', 'l', 's', 'e'] (.bool false) rest
      rw [Json.text, List.cons_append, parseValue, skip_of_head (by decide)]
      simpa using hLiteral

theorem text_length_pos (value : Json) : 0 < value.text.length := by
  obtain ⟨c, left, hText, -⟩ := value.text_head
  rw [hText]
  exact Nat.succ_pos _

end Roundtrip

mutual

theorem Json.parseValue_text {number : List Char → Option Numeral} : ∀ {value : Json} {fuel : ℕ}
    {rest : List Char}, value.Exact number → value.text.length ≤ fuel → Stops rest →
      parseValue number fuel (value.text ++ rest) = some (value, rest)
  | value, 0, _, _, hFuel, _ => absurd (text_length_pos value) (Nat.not_lt.mpr hFuel)
  | .null, fuel + 1, rest, _, _, _ => parseValue_atom (.inl rfl)
  | .bool b, fuel + 1, rest, _, _, _ => parseValue_atom (.inr ⟨b, rfl⟩)
  | .num n, fuel + 1, rest, hExact, _, hRest => parseValue_scalar fuel rest trivial hExact hRest
  | .str s, fuel + 1, rest, _, _, hRest => parseValue_scalar fuel rest trivial trivial hRest
  | .infinite _, _, _, hExact, _, _ => hExact.elim
  | .arr .nil, fuel + 1, rest, _, _, _ => by
    rw [Json.text, List.cons_append, parseValue, skip_of_head (by decide)]
    simp [skip_of_head (by decide : isBlank ']' = false)]
  | .arr (.cons head tail), fuel + 1, rest, hExact, hFuel, _ => by
    simp only [Json.text, List.length_cons, List.length_append, Nat.add_le_add_iff_right] at hFuel
    have hHead : parseValue number fuel (head.text ++ (tail.more ++ rest)) =
        some (head, tail.more ++ rest) :=
      Json.parseValue_text hExact.1 (Nat.le_trans (Nat.le_add_right _ _) hFuel)
        (stops_items tail rest)
    have hTail : parseItems number fuel (tail.more ++ rest) = some (tail, rest) :=
      Items.parseItems_more hExact.2 (Nat.le_trans (Nat.le_add_left _ _) hFuel)
    obtain ⟨c, left, hText, hBlank, hOpen⟩ := head.head_text (tail.more ++ rest)
    rw [Json.text, List.cons_append, List.append_assoc, parseValue, skip_of_head (by decide)]
    rw [hText] at hHead ⊢
    simp only [if_neg (by decide : ¬ '[' = '"'), if_pos, skip_of_head hBlank, if_neg hOpen, hHead,
      Option.bind_some, hTail, Option.map_some]
  | .obj .nil, fuel + 1, rest, _, _, _ => by
    rw [Json.text, List.cons_append, parseValue, skip_of_head (by decide)]
    simp [skip_of_head (by decide : isBlank '\x7d' = false)]
  | .obj (.cons key value more), fuel + 1, rest, hExact, hFuel, _ => by
    simp only [Json.text, List.length_cons, List.length_append, Nat.add_le_add_iff_right] at hFuel
    have hValue : parseValue number fuel (value.text ++ (more.more ++ rest)) =
        some (value, more.more ++ rest) :=
      Json.parseValue_text hExact.2.1 (by omega) (stops_more more rest)
    have hMore : parseFields number fuel (more.more ++ rest) = some (more, rest) :=
      Fields.parseFields_more hExact.2.2 (by omega)
    have hQuote : skip (quote key ++ ':' :: (value.text ++ (more.more ++ rest))) =
        '"' :: (key.toList.flatMap escape ++ '"' :: ':' :: (value.text ++ (more.more ++ rest))) := by
      rw [quote_append, skip_of_head (by decide)]
    rw [Json.text, List.cons_append, List.append_assoc, List.cons_append, List.append_assoc,
      parseValue, skip_of_head (by decide)]
    simp only [if_neg (by decide : ¬ '\x7b' = '"'), if_neg (by decide : ¬ '\x7b' = '['), if_pos,
      hQuote, if_neg (by decide : ¬ '"' = '\x7d'), parseKey_quote, Option.bind_some, hValue, hMore,
      Option.map_some, hExact.1]

theorem Items.parseItems_more {number : List Char → Option Numeral} : ∀ {items : Items} {fuel : ℕ}
    {rest : List Char}, items.Exact number → items.more.length ≤ fuel →
      parseItems number fuel (items.more ++ rest) = some (items, rest)
  | .nil, 0, _, _, hFuel => absurd hFuel (by simp [Items.more])
  | .cons _ _, 0, _, _, hFuel => absurd hFuel (by simp [Items.more])
  | .nil, fuel + 1, rest, _, _ => by
    rw [Items.more, List.singleton_append, parseItems, skip_of_head (by decide)]
    exact if_pos rfl
  | .cons head tail, fuel + 1, rest, hExact, hFuel => by
    simp only [Items.more, List.length_cons, List.length_append, Nat.add_le_add_iff_right] at hFuel
    have hHead : parseValue number fuel (head.text ++ (tail.more ++ rest)) =
        some (head, tail.more ++ rest) :=
      Json.parseValue_text hExact.1 (Nat.le_trans (Nat.le_add_right _ _) hFuel)
        (stops_items tail rest)
    have hTail : parseItems number fuel (tail.more ++ rest) = some (tail, rest) :=
      Items.parseItems_more hExact.2 (Nat.le_trans (Nat.le_add_left _ _) hFuel)
    rw [Items.more, List.cons_append, List.append_assoc, parseItems, skip_of_head (by decide)]
    simp only [if_neg (by decide : ¬ ',' = ']'), if_pos, hHead, Option.bind_some, hTail,
      Option.map_some]

theorem Fields.parseFields_more {number : List Char → Option Numeral} : ∀ {fields : Fields}
    {fuel : ℕ} {rest : List Char}, fields.Exact number → fields.more.length ≤ fuel →
      parseFields number fuel (fields.more ++ rest) = some (fields, rest)
  | .nil, 0, _, _, hFuel => absurd hFuel (by simp [Fields.more])
  | .cons _ _ _, 0, _, _, hFuel => absurd hFuel (by simp [Fields.more])
  | .nil, fuel + 1, rest, _, _ => by
    rw [Fields.more, List.singleton_append, parseFields, skip_of_head (by decide)]
    exact if_pos rfl
  | .cons key value more, fuel + 1, rest, hExact, hFuel => by
    simp only [Fields.more, List.length_cons, List.length_append, Nat.add_le_add_iff_right] at hFuel
    have hValue : parseValue number fuel (value.text ++ (more.more ++ rest)) =
        some (value, more.more ++ rest) :=
      Json.parseValue_text hExact.1 (by omega) (stops_more more rest)
    have hMore : parseFields number fuel (more.more ++ rest) = some (more, rest) :=
      Fields.parseFields_more hExact.2 (by omega)
    rw [Fields.more, List.cons_append, List.append_assoc, List.cons_append, List.append_assoc,
      parseFields, skip_of_head (by decide)]
    simp only [if_neg (by decide : ¬ ',' = '\x7d'), if_pos, parseKey_quote, Option.bind_some, hValue,
      hMore, Option.map_some]

end

/-- `JSON.parse(JSON.stringify(value))`. -/
theorem Json.parse_stringify {number : List Char → Option Numeral} {value : Json}
    (h : value.Exact number) : parse number (stringify value) = some value := by
  have hValue : parseValue number (value.text.length + 1) value.text = some (value, []) := by
    have hAppend : parseValue number (value.text.length + 1) (value.text ++ []) = some (value, []) :=
      Json.parseValue_text h (Nat.le_succ _) fun c hHead => by cases hHead
    rwa [List.append_nil] at hAppend
  rw [parse, stringify, String.toList_ofList, hValue]
  rfl

end FarmBackend.JsonText
