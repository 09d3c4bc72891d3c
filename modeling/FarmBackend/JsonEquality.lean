import FarmBackend.JsonObjects

/-!
# Equality of JSON values

A text is that of one value, but for numbers beyond all numbers, which print as `null`. Two values
are the same when they differ in the order of the keys of their objects only.
-/

namespace FarmBackend.JsonText

set_option autoImplicit false

/-! ## What is printed -/

mutual

/-- The value with `null` where `JSON.stringify` prints it. -/
def Json.shown : Json → Json
  | .infinite _ => .null
  | .arr items => .arr items.shown
  | .obj fields => .obj fields.shown
  | .null => .null
  | .bool b => .bool b
  | .num n => .num n
  | .str s => .str s

def Items.shown : Items → Items
  | .nil => .nil
  | .cons head tail => .cons head.shown tail.shown

def Fields.shown : Fields → Fields
  | .nil => .nil
  | .cons key value rest => .cons key value.shown rest.shown

end

section
-- Their equations are derived once, before the proofs that unfold them.
attribute [local simp] Json.shown Items.shown Fields.shown
end

mutual

theorem Json.text_shown : ∀ value : Json, value.shown.text = value.text
  | .null | .bool _ | .num _ | .infinite _ | .str _ => rfl
  | .arr .nil => rfl
  | .arr (.cons head tail) => by
    rw [Json.shown, Items.shown, Json.text, Json.text, head.text_shown, tail.more_shown]
  | .obj .nil => rfl
  | .obj (.cons key value rest) => by
    rw [Json.shown, Fields.shown, Json.text, Json.text, value.text_shown, rest.more_shown]

theorem Items.more_shown : ∀ items : Items, items.shown.more = items.more
  | .nil => rfl
  | .cons head tail => by
    rw [Items.shown, Items.more, Items.more, head.text_shown, tail.more_shown]

theorem Fields.more_shown : ∀ fields : Fields, fields.shown.more = fields.more
  | .nil => rfl
  | .cons key value rest => by
    rw [Fields.shown, Fields.more, Fields.more, value.text_shown, rest.more_shown]

end

theorem stops_items (items : Items) (rest : List Char) : Stops (items.more ++ rest) := by
  cases items <;> exact fun c hHead => by cases hHead; rfl

/-- The first character of a value that is no number. -/
def mark : Json → Char
  | .null | .infinite _ => 'n'
  | .bool true => 't'
  | .bool false => 'f'
  | .str _ => '"'
  | .arr _ => '['
  | .obj _ => '\x7b'
  | .num _ => '0'

theorem text_mark (value : Json) (hNumber : ∀ n, value ≠ .num n) :
    ∃ rest, value.text = mark value :: rest := by
  cases value with
  | null | infinite _ | str _ => exact ⟨_, rfl⟩
  | bool b => cases b <;> exact ⟨_, rfl⟩
  | num n => exact absurd rfl (hNumber n)
  | arr items => cases items <;> exact ⟨_, rfl⟩
  | obj fields => cases fields <;> exact ⟨_, rfl⟩

/-- No value begins with the end of an array. -/
theorem text_ne_bracket (value : Json) (rest rest' : List Char) :
    value.text ++ rest ≠ ']' :: rest' := by
  intro h
  obtain ⟨c, tail, hText, hNumber, -⟩ := value.text_head
  rw [hText, List.cons_append] at h
  obtain ⟨rfl, -⟩ := List.cons.inj h
  by_cases hNum : ∃ n, value = .num n
  · obtain ⟨n, rfl⟩ := hNum
    have hMem : ']' ∈ n.text := by
      rw [Json.text] at hText
      rw [hText]
      exact List.mem_cons_self
    exact absurd (n.all _ hMem) (by decide)
  · push Not at hNum
    obtain ⟨tail', hMark⟩ := text_mark value hNum
    rw [hText] at hMark
    have hSame : ']' = mark value := (List.cons.inj hMark).1
    cases value with
    | bool b => cases b <;> cases hSame
    | num n => exact hNum n rfl
    | null | infinite _ | str _ | arr _ | obj _ => cases hSame

/-- The first characters of two values without numbers. -/
theorem mark_eq {a b : Json} {r r' : List Char} (ha : ∀ n, a ≠ .num n) (hb : ∀ n, b ≠ .num n)
    (h : a.text ++ r = b.text ++ r') : mark a = mark b := by
  obtain ⟨rest, hText⟩ := text_mark a ha
  obtain ⟨rest', hText'⟩ := text_mark b hb
  rw [hText, hText', List.cons_append, List.cons_append] at h
  exact (List.cons.inj h).1

/-- A value that prints like one that is no string, number, array or object is shown as it is. -/
theorem text_inj_atom {a b : Json} {r r' : List Char} (hAtom : mark a ∈ ['n', 't', 'f'])
    (ha : ∀ n, a ≠ .num n) (hr' : Stops r') (hr : Stops r) (h : a.text ++ r = b.text ++ r') :
    a.shown = b.shown ∧ r = r' := by
  have hb : ∀ n, b ≠ .num n := by
    rintro n rfl
    have hScalar : (Json.num n).IsScalar := trivial
    exact ha n (Json.scalar_inj hScalar hr hr' h).1
  have hMark := mark_eq ha hb h
  cases a with
  | num n => exact absurd rfl (ha n)
  | str _ | arr _ | obj _ => simp [mark] at hAtom
  | null | infinite _ =>
    cases b with
    | null | infinite _ => exact ⟨rfl, List.append_cancel_left h⟩
    | bool b => cases b <;> cases hMark
    | num n => exact absurd rfl (hb n)
    | str s => cases hMark
    | arr items => cases hMark
    | obj fields => cases hMark
  | bool x =>
    cases b with
    | bool y =>
      cases x with
      | true =>
        cases y with
        | true => exact ⟨rfl, List.append_cancel_left h⟩
        | false => cases hMark
      | false =>
        cases y with
        | true => cases hMark
        | false => exact ⟨rfl, List.append_cancel_left h⟩
    | num n => exact absurd rfl (hb n)
    | null | infinite _ | str _ | arr _ | obj _ => cases x <;> cases hMark

theorem text_inj_scalar {a b : Json} {r r' : List Char} (hScalar : a.IsScalar) (hr : Stops r)
    (hr' : Stops r') (h : a.text ++ r = b.text ++ r') : a.shown = b.shown ∧ r = r' := by
  obtain ⟨rfl, rfl⟩ := Json.scalar_inj hScalar hr' hr h.symm
  exact ⟨rfl, rfl⟩

/-- A value that prints like an array is one. -/
theorem arr_of_text {items : Items} {b : Json} {r r' : List Char} (hr : Stops r) (hr' : Stops r')
    (h : (Json.arr items).text ++ r = b.text ++ r') : ∃ others, b = .arr others := by
  have hb : ∀ n, b ≠ .num n := by
    rintro n rfl
    have hScalar : (Json.num n).IsScalar := trivial
    cases (Json.scalar_inj hScalar hr hr' h).1
  have hMark := mark_eq (fun n hNum => by cases hNum) hb h
  cases b with
  | arr others => exact ⟨others, rfl⟩
  | bool b => cases b <;> cases hMark
  | num n => exact absurd rfl (hb n)
  | null | infinite _ | str _ | obj _ => cases hMark

theorem obj_of_text {fields : Fields} {b : Json} {r r' : List Char} (hr : Stops r) (hr' : Stops r')
    (h : (Json.obj fields).text ++ r = b.text ++ r') : ∃ others, b = .obj others := by
  have hb : ∀ n, b ≠ .num n := by
    rintro n rfl
    have hScalar : (Json.num n).IsScalar := trivial
    cases (Json.scalar_inj hScalar hr hr' h).1
  have hMark := mark_eq (fun n hNum => by cases hNum) hb h
  cases b with
  | obj others => exact ⟨others, rfl⟩
  | bool b => cases b <;> cases hMark
  | num n => exact absurd rfl (hb n)
  | null | infinite _ | str _ | arr _ => cases hMark

mutual

/-- A text, with what follows it, is that of one value. -/
theorem Json.text_inj : ∀ {a b : Json} {r r' : List Char}, Stops r → Stops r' →
    a.text ++ r = b.text ++ r' → a.shown = b.shown ∧ r = r'
  | .null, _, _, _, hr, hr', h => text_inj_atom (by decide) (by simp) hr' hr h
  | .infinite _, _, _, _, hr, hr', h => text_inj_atom (by simp [mark]) (by simp) hr' hr h
  | .bool true, _, _, _, hr, hr', h => text_inj_atom (by decide) (by simp) hr' hr h
  | .bool false, _, _, _, hr, hr', h => text_inj_atom (by decide) (by simp) hr' hr h
  | .num _, _, _, _, hr, hr', h => text_inj_scalar trivial hr hr' h
  | .str _, _, _, _, hr, hr', h => text_inj_scalar trivial hr hr' h
  | .arr .nil, b, r, r', hr, hr', h => by
    obtain ⟨others, rfl⟩ := arr_of_text hr hr' h
    cases others with
    | nil => exact ⟨rfl, List.append_cancel_left h⟩
    | cons head tail =>
      rw [Json.text, Json.text, List.cons_append, List.cons_append, List.cons_append,
        List.append_assoc] at h
      exact absurd (List.cons.inj h).2.symm (text_ne_bracket head _ _)
  | .arr (.cons head tail), b, r, r', hr, hr', h => by
    obtain ⟨others, rfl⟩ := arr_of_text hr hr' h
    cases others with
    | nil =>
      rw [Json.text, Json.text, List.cons_append, List.cons_append, List.append_assoc] at h
      exact absurd (List.cons.inj h).2 (text_ne_bracket head _ _)
    | cons head' tail' =>
      rw [Json.text, Json.text, List.cons_append, List.cons_append, List.append_assoc,
        List.append_assoc] at h
      obtain ⟨hShown, hMore⟩ := Json.text_inj (stops_items _ _) (stops_items _ _)
        (List.cons.inj h).2
      obtain ⟨hTail, hRest⟩ := Items.more_inj hr hr' hMore
      exact ⟨by rw [Json.shown, Json.shown, Items.shown, Items.shown, hShown, hTail], hRest⟩
  | .obj .nil, b, r, r', hr, hr', h => by
    obtain ⟨others, rfl⟩ := obj_of_text hr hr' h
    cases others with
    | nil => exact ⟨rfl, List.append_cancel_left h⟩
    | cons key value rest => exact absurd (List.cons.inj (List.cons.inj h).2).1 (by decide)
  | .obj (.cons key value rest), b, r, r', hr, hr', h => by
    obtain ⟨others, rfl⟩ := obj_of_text hr hr' h
    cases others with
    | nil => exact absurd (List.cons.inj (List.cons.inj h).2).1 (by decide)
    | cons key' value' rest' =>
      rw [Json.text, Json.text, List.cons_append, List.cons_append, List.append_assoc,
        List.append_assoc] at h
      obtain ⟨rfl, hAfter⟩ := quote_inj (List.cons.inj h).2
      rw [List.cons_append, List.cons_append, List.append_assoc, List.append_assoc] at hAfter
      have hValue := (List.cons.inj hAfter).2
      obtain ⟨hShown, hMore⟩ := Json.text_inj (stops_more _ _) (stops_more _ _) hValue
      obtain ⟨hRest, hEnd⟩ := Fields.shown_inj hr hr' hMore
      exact ⟨by rw [Json.shown, Json.shown, Fields.shown, Fields.shown, hShown, hRest], hEnd⟩

theorem Items.more_inj : ∀ {xs ys : Items} {r r' : List Char}, Stops r → Stops r' →
    xs.more ++ r = ys.more ++ r' → xs.shown = ys.shown ∧ r = r'
  | .nil, .nil, _, _, _, _, h => ⟨rfl, (List.cons.inj h).2⟩
  | .nil, .cons _ _, _, _, _, _, h => absurd (List.cons.inj h).1 (by decide)
  | .cons _ _, .nil, _, _, _, _, h => absurd (List.cons.inj h).1 (by decide)
  | .cons head tail, .cons head' tail', r, r', hr, hr', h => by
    rw [Items.more, Items.more, List.cons_append, List.cons_append, List.append_assoc,
      List.append_assoc] at h
    obtain ⟨hShown, hMore⟩ := Json.text_inj (stops_items _ _) (stops_items _ _) (List.cons.inj h).2
    obtain ⟨hTail, hRest⟩ := Items.more_inj hr hr' hMore
    exact ⟨by rw [Items.shown, Items.shown, hShown, hTail], hRest⟩

theorem Fields.shown_inj : ∀ {fields others : Fields} {r r' : List Char}, Stops r → Stops r' →
    fields.more ++ r = others.more ++ r' → fields.shown = others.shown ∧ r = r'
  | .nil, .nil, _, _, _, _, h => ⟨rfl, (List.cons.inj h).2⟩
  | .nil, .cons _ _ _, _, _, _, _, h => absurd (List.cons.inj h).1 (by decide)
  | .cons _ _ _, .nil, _, _, _, _, h => absurd (List.cons.inj h).1 (by decide)
  | .cons key value rest, .cons key' value' rest', r, r', hr, hr', h => by
    rw [Fields.more, Fields.more, List.cons_append, List.cons_append, List.append_assoc,
      List.append_assoc] at h
    obtain ⟨rfl, hAfter⟩ := quote_inj (List.cons.inj h).2
    rw [List.cons_append, List.cons_append, List.append_assoc, List.append_assoc] at hAfter
    have hValue := (List.cons.inj hAfter).2
    obtain ⟨hShown, hMore⟩ := Json.text_inj (stops_more _ _) (stops_more _ _) hValue
    obtain ⟨hRest, hEnd⟩ := Fields.shown_inj hr hr' hMore
    exact ⟨by rw [Fields.shown, Fields.shown, hShown, hRest], hEnd⟩

end

/-- Two values have the same text exactly when they are shown alike. -/
theorem stringify_eq_iff {a b : Json} : stringify a = stringify b ↔ a.shown = b.shown := by
  constructor
  · intro h
    have hText : a.text ++ [] = b.text ++ [] := by
      rw [List.append_nil, List.append_nil]
      exact String.ofList_injective h
    have hStops : Stops [] := by
      intro c hc
      cases hc
    exact (Json.text_inj hStops hStops hText).1
  · intro h
    rw [stringify, stringify, ← a.text_shown, h, b.text_shown]

/-! ## Values that differ in the order of keys -/

mutual

/-- Equal up to the order of the keys of objects, at every depth. -/
def Json.Same : Json → Json → Prop
  | .null, b => b = .null
  | .bool x, b => b = .bool x
  | .num n, b => b = .num n
  | .infinite negative, b => b = .infinite negative
  | .str s, b => b = .str s
  | .arr xs, b => ∃ ys, b = .arr ys ∧ xs.Same ys
  | .obj fields, b => ∃ others, b = .obj others ∧ fields.Within others ∧
      ∀ key ∈ others.keys, key ∈ fields.keys

def Items.Same : Items → Items → Prop
  | .nil, ys => ys = .nil
  | .cons x xs, ys => ∃ y rest, ys = .cons y rest ∧ x.Same y ∧ xs.Same rest

/-- Every field has the same value in the other object. -/
def Fields.Within : Fields → Fields → Prop
  | .nil, _ => True
  | .cons key value rest, others =>
    (∃ other, others.get key = some other ∧ value.Same other) ∧ rest.Within others

end

section
-- Their equations are derived once, before the proofs that unfold them.
attribute [local simp] Json.Same Items.Same Fields.Within
end

namespace Fields

theorem Within.get {others : Fields} {key : String} {value : Json} : ∀ {fields : Fields},
    fields.Within others → fields.get key = some value →
      ∃ other, others.get key = some other ∧ value.Same other
  | .nil, _, h => by cases h
  | .cons name old rest, hWithin, h => by
    rw [Fields.get] at h
    split at h
    · rename_i hName
      cases h
      rw [← hName]
      exact hWithin.1
    · exact hWithin.2.get h

theorem within_of_get {others : Fields} : ∀ {fields : Fields}, fields.keys.Nodup →
    (∀ key value, fields.get key = some value →
      ∃ other, others.get key = some other ∧ value.Same other) → fields.Within others
  | .nil, _, _ => trivial
  | .cons name old rest, hNodup, h => by
    rw [keys, List.nodup_cons] at hNodup
    refine ⟨h name old (by rw [get, if_pos rfl]), within_of_get hNodup.2 ?_⟩
    intro key value hGet
    apply h key value
    have hName : name ≠ key := by
      rintro rfl
      exact hNodup.1 (mem_keys_of_get hGet)
    rw [get, if_neg hName]
    exact hGet

theorem exists_get {key : String} {fields : Fields} (h : key ∈ fields.keys) :
    ∃ value, fields.get key = some value := by
  cases hGet : fields.get key with
  | none => exact absurd h ((get_eq_none_iff fields).mp hGet)
  | some value => exact ⟨value, rfl⟩

/-- Objects that are the same have the same under every key. -/
theorem rel_of_same {fields others : Fields} (h : (Json.obj fields).Same (.obj others))
    (key : String) : Option.Rel Json.Same (fields.get key) (others.get key) := by
  obtain ⟨_, hObj, hWithin, hKeys⟩ := h
  cases hObj
  cases hGet : fields.get key with
  | some value =>
    obtain ⟨other, hOther, hSame⟩ := hWithin.get hGet
    rw [hOther]
    exact .some hSame
  | none =>
    have hNone : others.get key = none := by
      rw [get_eq_none_iff]
      intro hMem
      exact (get_eq_none_iff fields).mp hGet (hKeys key hMem)
    rw [hNone]
    exact .none

theorem same_of_rel {fields others : Fields} (hNodup : fields.keys.Nodup)
    (h : ∀ key, Option.Rel Json.Same (fields.get key) (others.get key)) :
    (Json.obj fields).Same (.obj others) := by
  refine ⟨others, rfl, within_of_get hNodup ?_, ?_⟩
  · intro key value hGet
    have hKey := h key
    rw [hGet] at hKey
    cases hOther : others.get key with
    | none =>
      rw [hOther] at hKey
      cases hKey
    | some other =>
      rw [hOther] at hKey
      cases hKey with
      | some hSame => exact ⟨other, rfl, hSame⟩
  · intro key hMem
    obtain ⟨other, hOther⟩ := exists_get hMem
    have hKey := h key
    rw [hOther] at hKey
    by_contra hNone
    rw [(get_eq_none_iff fields).mpr hNone] at hKey
    cases hKey

/-! ### Values replaced under their keys -/

def map (φ : Json → Json) : Fields → Fields
  | .nil => .nil
  | .cons key value rest => .cons key (φ value) (map φ rest)

section
-- Its equations are derived once, before the proofs that unfold it.
attribute [local simp] map
end

variable (φ : Json → Json)

theorem get_map (key : String) : ∀ fields : Fields,
    (fields.map φ).get key = (fields.get key).map φ
  | .nil => rfl
  | .cons name value rest => by
    rw [map, get, get, get_map key rest]
    split
    · rfl
    · rfl

theorem keys_map : ∀ fields : Fields, (fields.map φ).keys = fields.keys
  | .nil => rfl
  | .cons name value rest => by rw [map, keys, keys, keys_map rest]

theorem map_map (ψ : Json → Json) : ∀ fields : Fields,
    (fields.map φ).map ψ = fields.map fun value => ψ (φ value)
  | .nil => rfl
  | .cons name value rest => by rw [map, map, map, map_map ψ rest]

theorem map_keep (p : String → Bool) : ∀ fields : Fields,
    (fields.keep p).map φ = (fields.map φ).keep p
  | .nil => rfl
  | .cons name value rest => by
    rw [map, keep, keep]
    split
    · rw [map, map_keep p rest]
    · exact map_keep p rest

theorem map_append : ∀ fields more : Fields,
    (fields.append more).map φ = (fields.map φ).append (more.map φ)
  | .nil, more => rfl
  | .cons name value rest, more => by rw [append, map, map_append rest more, map, append]

theorem map_insertIndex (key : String) (value : Json) : ∀ fields : Fields,
    (fields.insertIndex key value).map φ = (fields.map φ).insertIndex key (φ value)
  | .nil => rfl
  | .cons name old rest => by
    rw [map, insertIndex, insertIndex]
    split
    · rw [map, map]
    · rw [map, map_insertIndex key value rest]

theorem map_sortIndices : ∀ fields : Fields,
    fields.sortIndices.map φ = (fields.map φ).sortIndices
  | .nil => rfl
  | .cons name value rest => by
    rw [sortIndices, map_insertIndex, map_sortIndices rest, map, sortIndices]

theorem map_listed (fields : Fields) : fields.listed.map φ = (fields.map φ).listed := by
  rw [listed, map_append, map_sortIndices, map_keep, map_keep, listed]

theorem map_insertKey (key : String) (value : Json) : ∀ fields : Fields,
    (fields.insertKey key value).map φ = (fields.map φ).insertKey key (φ value)
  | .nil => rfl
  | .cons name old rest => by
    rw [map, insertKey, insertKey]
    split
    · rw [map, map]
    · rw [map, map_insertKey key value rest]

theorem map_sortFields : ∀ fields : Fields,
    fields.sortFields.map φ = (fields.map φ).sortFields
  | .nil => rfl
  | .cons name value rest => by
    rw [sortFields, map_insertKey, map_sortFields rest, map, sortFields]

theorem shown_eq_map : ∀ fields : Fields, fields.shown = fields.map Json.shown
  | .nil => rfl
  | .cons name value rest => by rw [shown, map, shown_eq_map rest]

end Fields

end FarmBackend.JsonText
