import FarmBackend.JsonEquality

/-!
# What the signatures of Didit and NOWPayments cover

The HMAC is taken of a canonical text of the payload. A payload is what `JSON.parse` gives: every
object lists each of its keys once, `__proto__` among them.
-/

namespace FarmBackend.DiditSignatures
open JsonText

set_option autoImplicit false

structure Payload where
  value : Json
  distinct : value.Distinct

/-- `JSON.parse`. -/
def Payload.parse (number : List Char → Option Numeral) (text : String) : Option Payload :=
  match h : JsonText.parse number text with
  | none => none
  | some value => some ⟨value, distinct_of_parse h⟩

theorem Payload.parse_of_parse {number : List Char → Option Numeral} {text : String} {value : Json}
    (h : JsonText.parse number text = some value) :
    ∃ payload, Payload.parse number text = some payload ∧ payload.value = value := by
  rw [Payload.parse]
  split
  · rename_i hNone
    rw [h] at hNone
    cases hNone
  · rename_i found hFound
    rw [h] at hFound
    cases hFound
    exact ⟨_, rfl, rfl⟩

/-! ## The canonical text -/

mutual

/-- `Math.trunc` of an integer is that integer, and an object gets back each of its entries. -/
def shortenFloats : Json → Json
  | .arr items => .arr (shortenItems items)
  | .obj fields => .obj (shortenFields fields)
  | .null => .null
  | .bool b => .bool b
  | .num n => .num n
  | .infinite negative => .infinite negative
  | .str s => .str s

def shortenItems : Items → Items
  | .nil => .nil
  | .cons head tail => .cons (shortenFloats head) (shortenItems tail)

def shortenFields : Fields → Fields
  | .nil => .nil
  | .cons key value rest => .cons key (shortenFloats value) (shortenFields rest)

end

section
-- Their equations are derived once, before the proofs that unfold them.
attribute [local simp] shortenFloats shortenItems shortenFields
end

/-- `result[key] = value` for the keys in their order, from an empty object. The keys are distinct,
but `result['__proto__'] = value` sets the prototype and adds no key. -/
def assignSorted (fields : Fields) : Fields :=
  (fields.sortFields.keep fun key => key != "__proto__").listed

mutual

def sortKeys : Json → Json
  | .arr items => .arr (sortItems items)
  | .obj fields => .obj (assignSorted (sortValues fields))
  | .null => .null
  | .bool b => .bool b
  | .num n => .num n
  | .infinite negative => .infinite negative
  | .str s => .str s

def sortItems : Items → Items
  | .nil => .nil
  | .cons head tail => .cons (sortKeys head) (sortItems tail)

def sortValues : Fields → Fields
  | .nil => .nil
  | .cons key value rest => .cons key (sortKeys value) (sortValues rest)

end

section
-- Their equations are derived once, before the proofs that unfold them.
attribute [local simp] sortKeys sortItems sortValues
end

def canonicalizeDiditPayload (payload : Json) : String :=
  stringify (sortKeys (shortenFloats payload))

/-- `sortObject` of `verifyNowpayments`. -/
def sortObject (value : Json) : Json := sortKeys value

/-- `canonicalPayload` of `verifyNowpayments`. -/
def canonicalPayload (body : Json) : String := stringify (sortObject body)

/-! ## What is read -/

def isString : Option Json → Bool
  | some (.str _) => true
  | _ => false

/-- `payload.data` if it is an object. -/
def dataOf (payload : Fields) : Fields :=
  match payload.get "data" with
  | some (.obj data) => data
  | _ => .nil

/-- `{ ...data, ...payload }` with the event as type where there is none. -/
def flattenDiditPayload (payload : Fields) : Fields :=
  let merged := payload.setAll ((dataOf payload).setAll .nil)
  match payload.get "event" with
  | some (.str event) =>
    if isString (merged.get "webhook_type") then merged else merged.set "webhook_type" (.str event)
  | _ => merged

/-! ## What is left of a payload -/

mutual

/-- The payload without its `__proto__` keys, and with `null` for numbers beyond all numbers. -/
def visible : Json → Json
  | .infinite _ => .null
  | .arr items => .arr (visibleItems items)
  | .obj fields => .obj (visibleFields fields)
  | .null => .null
  | .bool b => .bool b
  | .num n => .num n
  | .str s => .str s

def visibleItems : Items → Items
  | .nil => .nil
  | .cons head tail => .cons (visible head) (visibleItems tail)

def visibleFields : Fields → Fields
  | .nil => .nil
  | .cons key value rest =>
    if key = "__proto__" then visibleFields rest else .cons key (visible value) (visibleFields rest)

end

section
-- Their equations are derived once, before the proofs that unfold them.
attribute [local simp] visible visibleItems visibleFields
end

/-- What is printed of the sorted payload. -/
def printed (value : Json) : Json := (sortKeys value).shown

section Lemmas

mutual

theorem shortenFloats_eq : ∀ value, shortenFloats value = value
  | .arr items => by rw [shortenFloats, shortenItems_eq items]
  | .obj fields => by rw [shortenFloats, shortenFields_eq fields]
  | .null | .bool _ | .num _ | .infinite _ | .str _ => rfl

theorem shortenItems_eq : ∀ items, shortenItems items = items
  | .nil => rfl
  | .cons head tail => by rw [shortenItems, shortenFloats_eq head, shortenItems_eq tail]

theorem shortenFields_eq : ∀ fields, shortenFields fields = fields
  | .nil => rfl
  | .cons key value rest => by rw [shortenFields, shortenFloats_eq value, shortenFields_eq rest]

end

/-- The two canonical texts are one. -/
theorem canonicalizeDiditPayload_eq (payload : Json) :
    canonicalizeDiditPayload payload = canonicalPayload payload := by
  rw [canonicalizeDiditPayload, shortenFloats_eq, canonicalPayload, sortObject]

theorem canonicalPayload_eq_iff {a b : Json} :
    canonicalPayload a = canonicalPayload b ↔ printed a = printed b := stringify_eq_iff

theorem sortValues_eq_map : ∀ fields, sortValues fields = fields.map sortKeys
  | .nil => rfl
  | .cons key value rest => by rw [sortValues, Fields.map, sortValues_eq_map rest]

theorem printed_obj (fields : Fields) :
    printed (.obj fields) = .obj (assignSorted (fields.map printed)) := by
  rw [printed, sortKeys, Json.shown, Fields.shown_eq_map, assignSorted, Fields.map_listed,
    Fields.map_keep, Fields.map_sortFields, sortValues_eq_map, Fields.map_map]
  rfl

theorem keys_sorted_kept {fields : Fields} (h : fields.keys.Nodup) :
    (fields.sortFields.keep fun key => key != "__proto__").keys.Nodup := by
  rw [Fields.keys_keep]
  apply List.Nodup.filter
  rw [(Fields.keys_sortFields fields).nodup_iff]
  exact h

theorem get_assignSorted (key : String) {fields : Fields} (h : fields.keys.Nodup) :
    (assignSorted fields).get key = if key = "__proto__" then none else fields.get key := by
  rw [assignSorted, Fields.get_listed key (keys_sorted_kept h), Fields.get_keep,
    Fields.get_sortFields]
  by_cases hKey : key = "__proto__"
  · simp [hKey]
  · simp [hKey]

/-- What is assigned depends on the values under the other keys alone. -/
theorem assignSorted_ext {fields others : Fields} (h : fields.keys.Nodup) (h' : others.keys.Nodup)
    (hGet : ∀ key ≠ "__proto__", fields.get key = others.get key) :
    assignSorted fields = assignSorted others := by
  have hSorted : ∀ f : Fields, (f.sortFields.keep fun key => key != "__proto__").Sorted := by
    intro f
    rw [Fields.Sorted, Fields.keys_keep]
    exact (Fields.sorted_sortFields f).filter _
  rw [assignSorted, assignSorted]
  congr 1
  apply Fields.sorted_ext (hSorted _) (hSorted _) (keys_sorted_kept h) (keys_sorted_kept h')
  intro key
  rw [Fields.get_keep, Fields.get_keep, Fields.get_sortFields, Fields.get_sortFields]
  by_cases hKey : key = "__proto__"
  · simp [hKey]
  · rw [hGet key hKey]

theorem get_visibleFields (key : String) : ∀ fields : Fields,
    (visibleFields fields).get key =
      if key = "__proto__" then none else (fields.get key).map visible
  | .nil => by
    rw [visibleFields, Fields.get]
    exact (ite_self none).symm
  | .cons name value rest => by
    have hRest := get_visibleFields key rest
    rw [visibleFields]
    by_cases hProto : name = "__proto__"
    · rw [if_pos hProto, hRest]
      by_cases hKey : key = "__proto__"
      · rw [if_pos hKey, if_pos hKey]
      · have hName : name ≠ key := fun h => hKey (h.symm.trans hProto)
        rw [if_neg hKey, if_neg hKey, Fields.get, if_neg hName]
    · rw [if_neg hProto, Fields.get, hRest, Fields.get]
      by_cases hName : name = key
      · subst hName
        rw [if_pos rfl, if_neg hProto, if_pos rfl]
        rfl
      · rw [if_neg hName, if_neg hName]

theorem keys_visibleFields : ∀ fields : Fields,
    (visibleFields fields).keys = fields.keys.filter fun key => key != "__proto__"
  | .nil => rfl
  | .cons name value rest => by
    have hRest := keys_visibleFields rest
    rw [visibleFields, Fields.keys]
    by_cases hProto : name = "__proto__"
    · rw [if_pos hProto, hRest, List.filter_cons_of_neg (by simp [hProto])]
    · rw [if_neg hProto, Fields.keys, hRest, List.filter_cons_of_pos (by simp [hProto])]

/-- The printed objects agree under every key but one exactly when the fields do. -/
theorem printed_obj_eq_iff {fields others : Fields} (h : fields.keys.Nodup)
    (h' : others.keys.Nodup) : printed (.obj fields) = printed (.obj others) ↔
      ∀ key ≠ "__proto__", (fields.get key).map printed = (others.get key).map printed := by
  have hMap : (fields.map printed).keys.Nodup := by rwa [Fields.keys_map]
  have hMap' : (others.map printed).keys.Nodup := by rwa [Fields.keys_map]
  rw [printed_obj, printed_obj]
  constructor
  · intro hSame key hKey
    have hFields := Json.obj.inj hSame
    have hGet := congrArg (Fields.get key) hFields
    rw [get_assignSorted key hMap, get_assignSorted key hMap', if_neg hKey, if_neg hKey,
      Fields.get_map, Fields.get_map] at hGet
    exact hGet
  · intro hGet
    rw [assignSorted_ext hMap hMap' ?_]
    intro key hKey
    rw [Fields.get_map, Fields.get_map, hGet key hKey]

/-- The objects agree up to what is not visible exactly when the fields do. -/
theorem visible_obj_same_iff {fields others : Fields} (h : fields.keys.Nodup) :
    (visible (.obj fields)).Same (visible (.obj others)) ↔
      ∀ key ≠ "__proto__", Option.Rel Json.Same ((fields.get key).map visible)
        ((others.get key).map visible) := by
  rw [visible, visible]
  constructor
  · intro hSame key hKey
    have hRel := Fields.rel_of_same hSame key
    rw [get_visibleFields, get_visibleFields, if_neg hKey, if_neg hKey] at hRel
    exact hRel
  · intro hRel
    have hNodup : (visibleFields fields).keys.Nodup := by
      rw [keys_visibleFields]
      exact h.filter _
    apply Fields.same_of_rel hNodup
    intro key
    rw [get_visibleFields, get_visibleFields]
    by_cases hKey : key = "__proto__"
    · rw [if_pos hKey, if_pos hKey]
      exact .none
    · rw [if_neg hKey, if_neg hKey]
      exact hRel key hKey

mutual

/-- Two payloads print alike exactly when what is visible of them is the same. -/
theorem printed_eq_iff : ∀ {a b : Json}, a.Distinct → b.Distinct →
    (printed a = printed b ↔ (visible a).Same (visible b))
  | .null, b, _, _ => by
    cases b <;> simp [printed, sortKeys, Json.shown, visible, Json.Same]
  | .infinite _, b, _, _ => by
    cases b <;> simp [printed, sortKeys, Json.shown, visible, Json.Same]
  | .bool x, b, _, _ => by
    cases b <;> simp [printed, sortKeys, Json.shown, visible, Json.Same, eq_comm]
  | .num n, b, _, _ => by
    cases b <;> simp [printed, sortKeys, Json.shown, visible, Json.Same, eq_comm]
  | .str s, b, _, _ => by
    cases b <;> simp [printed, sortKeys, Json.shown, visible, Json.Same, eq_comm]
  | .arr xs, b, ha, hb => by
    cases b with
    | arr ys =>
      have hItems := items_eq_iff ha hb
      simp only [printed, sortKeys, Json.shown, visible, Json.Same, Json.arr.injEq]
      rw [hItems]
      constructor
      · intro hSame
        exact ⟨_, rfl, hSame⟩
      · rintro ⟨_, rfl, hSame⟩
        exact hSame
    | null | bool _ | num _ | infinite _ | str _ | obj _ =>
      simp [printed, sortKeys, Json.shown, visible, Json.Same]
  | .obj fields, b, ha, hb => by
    cases b with
    | obj others =>
      have hFields := fields_eq_iff ha.2
      rw [printed_obj_eq_iff ha.1 hb.1, visible_obj_same_iff ha.1]
      refine forall_congr' fun key => imp_congr_right fun _ => ?_
      cases hGet : fields.get key with
      | none =>
        cases others.get key with
        | none => exact iff_of_true rfl .none
        | some w =>
          refine iff_of_false (by simp) ?_
          intro hRel
          cases hRel
      | some v =>
        cases hOther : others.get key with
        | none =>
          refine iff_of_false (by simp) ?_
          intro hRel
          cases hRel
        | some w =>
          rw [Option.map_some, Option.map_some, Option.map_some, Option.map_some,
            Option.some.injEq, hFields key v hGet w (hb.2.get hOther)]
          constructor
          · intro hSame
            exact .some hSame
          · intro hRel
            cases hRel with
            | some hSame => exact hSame
    | null | bool _ | num _ | infinite _ | str _ | arr _ =>
      simp [printed, sortKeys, Json.shown, visible, Json.Same]

theorem items_eq_iff : ∀ {xs ys : Items}, xs.Distinct → ys.Distinct →
    ((sortItems xs).shown = (sortItems ys).shown ↔ (visibleItems xs).Same (visibleItems ys))
  | .nil, .nil, _, _ => by simp [sortItems, Items.shown, visibleItems, Items.Same]
  | .nil, .cons y ys, _, _ => by simp [sortItems, Items.shown, visibleItems, Items.Same]
  | .cons x xs, .nil, _, _ => by simp [sortItems, Items.shown, visibleItems, Items.Same]
  | .cons x xs, .cons y ys, hx, hy => by
    have hHead := printed_eq_iff hx.1 hy.1
    have hTail := items_eq_iff hx.2 hy.2
    rw [printed, printed] at hHead
    simp only [sortItems, Items.shown, visibleItems, Items.Same, Items.cons.injEq]
    rw [hHead, hTail]
    constructor
    · rintro ⟨hSame, hRest⟩
      exact ⟨_, _, ⟨rfl, rfl⟩, hSame, hRest⟩
    · rintro ⟨_, _, ⟨rfl, rfl⟩, hSame, hRest⟩
      exact ⟨hSame, hRest⟩

theorem fields_eq_iff : ∀ {fields : Fields}, fields.Distinct → ∀ key v, fields.get key = some v →
    ∀ w : Json, w.Distinct → (printed v = printed w ↔ (visible v).Same (visible w))
  | .nil, _, _, _, hGet, _, _ => by cases hGet
  | .cons name value rest, h, key, v, hGet, w, hw => by
    rw [Fields.get] at hGet
    by_cases hName : name = key
    · rw [if_pos hName] at hGet
      cases hGet
      exact printed_eq_iff h.1 hw
    · rw [if_neg hName] at hGet
      exact fields_eq_iff h.2 key v hGet w hw

end

mutual

/-- Payloads that are the same show the same. -/
theorem visible_same : ∀ {a b : Json}, a.Distinct → b.Distinct → a.Same b →
    (visible a).Same (visible b)
  | .null, b, _, _, h | .infinite _, b, _, _, h | .bool _, b, _, _, h | .num _, b, _, _, h
  | .str _, b, _, _, h => by
    rw [Json.Same] at h
    subst h
    rfl
  | .arr xs, b, ha, hb, h => by
    obtain ⟨ys, rfl, hItems⟩ := h
    exact ⟨_, rfl, visibleItems_same ha hb hItems⟩
  | .obj fields, b, ha, hb, h => by
    obtain ⟨others, rfl, -⟩ := id h
    rw [visible_obj_same_iff ha.1]
    intro key _
    have hRel := Fields.rel_of_same h key
    cases hGet : fields.get key with
    | none =>
      rw [hGet] at hRel
      cases hOther : others.get key with
      | none => exact .none
      | some w =>
        rw [hOther] at hRel
        cases hRel
    | some v =>
      rw [hGet] at hRel
      cases hOther : others.get key with
      | none =>
        rw [hOther] at hRel
        cases hRel
      | some w =>
        rw [hOther] at hRel
        cases hRel with
        | some hSame =>
          exact .some (visibleFields_same ha.2 key v hGet w (hb.2.get hOther) hSame)

theorem visibleItems_same : ∀ {xs ys : Items}, xs.Distinct → ys.Distinct → xs.Same ys →
    (visibleItems xs).Same (visibleItems ys)
  | .nil, _, _, _, h => by
    rw [Items.Same] at h
    subst h
    rfl
  | .cons x xs, _, hx, hy, h => by
    obtain ⟨y, ys, rfl, hSame, hRest⟩ := h
    exact ⟨_, _, rfl, visible_same hx.1 hy.1 hSame, visibleItems_same hx.2 hy.2 hRest⟩

theorem visibleFields_same : ∀ {fields : Fields}, fields.Distinct → ∀ key v,
    fields.get key = some v → ∀ w : Json, w.Distinct → v.Same w → (visible v).Same (visible w)
  | .nil, _, _, _, hGet, _, _, _ => by cases hGet
  | .cons name value rest, h, key, v, hGet, w, hw, hSame => by
    rw [Fields.get] at hGet
    by_cases hName : name = key
    · rw [if_pos hName] at hGet
      cases hGet
      exact visible_same h.1 hw hSame
    · rw [if_neg hName] at hGet
      exact visibleFields_same h.2 key v hGet w hw hSame

end

end Lemmas

/-! ## The fields that are read -/

section Flatten
variable {fields others : Fields}

theorem isString_of_rel {a b : Option Json} (h : Option.Rel Json.Same a b) :
    isString a = isString b := by
  cases h with
  | none => rfl
  | @some v w hSame =>
    cases v with
    | null | infinite _ | bool _ | num _ | str _ =>
      rw [Json.Same] at hSame
      rw [hSame]
    | arr xs =>
      obtain ⟨ys, rfl, -⟩ := hSame
      rfl
    | obj f =>
      obtain ⟨g, rfl, -⟩ := hSame
      rfl

theorem rel_dataOf (h : ∀ key, Option.Rel Json.Same (fields.get key) (others.get key))
    (key : String) : Option.Rel Json.Same ((dataOf fields).get key) ((dataOf others).get key) := by
  have hData := h "data"
  rw [dataOf, dataOf]
  cases hGet : fields.get "data" with
  | none =>
    rw [hGet] at hData
    cases hOther : others.get "data" with
    | none => exact .none
    | some w =>
      rw [hOther] at hData
      cases hData
  | some v =>
    rw [hGet] at hData
    cases hOther : others.get "data" with
    | none =>
      rw [hOther] at hData
      cases hData
    | some w =>
      rw [hOther] at hData
      cases hData with
      | some hSame =>
        cases v with
        | null | infinite _ | bool _ | num _ | str _ =>
          rw [Json.Same] at hSame
          subst hSame
          exact .none
        | arr xs =>
          obtain ⟨ys, rfl, -⟩ := hSame
          exact .none
        | obj f =>
          obtain ⟨g, rfl, -⟩ := id hSame
          exact Fields.rel_of_same hSame key

theorem nodup_dataOf (h : fields.Distinct) : (dataOf fields).keys.Nodup := by
  rw [dataOf]
  split
  · rename_i data hGet
    exact (h.get hGet).1
  · exact List.nodup_nil

theorem get_merged (hKeys : fields.keys.Nodup) (h : fields.Distinct) (key : String) :
    (fields.setAll ((dataOf fields).setAll .nil)).get key =
      (fields.get key).or ((dataOf fields).get key) := by
  rw [Fields.get_setAll key _ hKeys, Fields.get_setAll key _ (nodup_dataOf h), Fields.get,
    Option.or_none]

/-- Payloads that are the same are flattened to the same fields. -/
theorem rel_flatten (hKeys : fields.keys.Nodup) (hKeys' : others.keys.Nodup)
    (hDistinct : fields.Distinct) (hDistinct' : others.Distinct)
    (h : ∀ key, Option.Rel Json.Same (fields.get key) (others.get key)) (key : String) :
    Option.Rel Json.Same ((flattenDiditPayload fields).get key)
      ((flattenDiditPayload others).get key) := by
  have hMerged : ∀ key, Option.Rel Json.Same
      ((fields.setAll ((dataOf fields).setAll .nil)).get key)
      ((others.setAll ((dataOf others).setAll .nil)).get key) := by
    intro key
    rw [get_merged hKeys hDistinct, get_merged hKeys' hDistinct']
    have hField := h key
    have hData := rel_dataOf h key
    revert hField
    rcases fields.get key with _ | v
    · rcases others.get key with _ | w
      · intro _
        exact hData
      · intro hField
        cases hField
    · rcases others.get key with _ | w
      · intro hField
        cases hField
      · exact id
  have hEvent := h "event"
  have hType := isString_of_rel (hMerged "webhook_type")
  rw [flattenDiditPayload, flattenDiditPayload]
  rcases hGet : fields.get "event" with _ | v
  · rw [hGet] at hEvent
    rcases hOther : others.get "event" with _ | w
    · exact hMerged key
    · rw [hOther] at hEvent
      cases hEvent
  · rw [hGet] at hEvent
    rcases hOther : others.get "event" with _ | w
    · rw [hOther] at hEvent
      cases hEvent
    · rw [hOther] at hEvent
      cases hEvent with
      | some hSame =>
        cases v with
        | str event =>
          rw [Json.Same] at hSame
          subst hSame
          simp only
          rw [hType]
          split
          · exact hMerged key
          · rw [Fields.get_set, Fields.get_set]
            split
            · exact .some rfl
            · exact hMerged key
        | null | infinite _ | bool _ | num _ =>
          rw [Json.Same] at hSame
          subst hSame
          exact hMerged key
        | arr xs =>
          obtain ⟨ys, rfl, -⟩ := hSame
          exact hMerged key
        | obj f =>
          obtain ⟨g, rfl, -⟩ := hSame
          exact hMerged key

end Flatten

/-- Every field that a handler reads of the one payload is that of the other. -/
def ReadAlike (p q : Payload) : Prop :=
  ∀ fields others, p.value = .obj fields → q.value = .obj others → ∀ key,
    Option.Rel Json.Same ((flattenDiditPayload fields).get key)
      ((flattenDiditPayload others).get key)

theorem readAlike_of_same {p q : Payload} (h : p.value.Same q.value) : ReadAlike p q := by
  intro fields others hp hq key
  have hDistinct := p.distinct
  have hDistinct' := q.distinct
  rw [hp] at h hDistinct
  rw [hq] at h hDistinct'
  exact rel_flatten hDistinct.1 hDistinct'.1 hDistinct.2 hDistinct'.2 (Fields.rel_of_same h) key

theorem canonicalPayload_eq_iff_same (p q : Payload) :
    (canonicalPayload p.value = canonicalPayload q.value ↔ p.value.Same q.value) ↔
      ((visible p.value).Same (visible q.value) → p.value.Same q.value) := by
  have hText : canonicalPayload p.value = canonicalPayload q.value ↔
      (visible p.value).Same (visible q.value) :=
    canonicalPayload_eq_iff.trans (printed_eq_iff p.distinct q.distinct)
  rw [hText]
  constructor
  · exact fun hExact => hExact.mp
  · exact fun hOnly => ⟨hOnly, visible_same p.distinct q.distinct⟩

/-- Two payloads have one canonical text exactly when they are equal up to the order of keys, and
then every field that is read is covered, if and only if they do not differ just in what is not
visible. -/
theorem canonical_exact_iff (p q : Payload) :
    (((canonicalizeDiditPayload p.value = canonicalizeDiditPayload q.value ↔
          p.value.Same q.value) ∧
        (canonicalizeDiditPayload p.value = canonicalizeDiditPayload q.value → ReadAlike p q)) ↔
      ((visible p.value).Same (visible q.value) → p.value.Same q.value)) ∧
    ((canonicalPayload p.value = canonicalPayload q.value ↔ p.value.Same q.value) ↔
      ((visible p.value).Same (visible q.value) → p.value.Same q.value)) := by
  have hExact := canonicalPayload_eq_iff_same p q
  refine ⟨?_, hExact⟩
  rw [canonicalizeDiditPayload_eq, canonicalizeDiditPayload_eq]
  constructor
  · rintro ⟨hSame, -⟩
    exact hExact.mp hSame
  · intro hOnly
    have hSame := hExact.mpr hOnly
    exact ⟨hSame, fun hText => readAlike_of_same (hSame.mp hText)⟩

/-- A field under `__proto__` is not covered. -/
theorem proto_not_covered :
    ∃ (number : List Char → Option Numeral) (p q : Payload),
      Payload.parse number "\x7b\"__proto__\":\"Approved\"\x7d" = some p ∧
      Payload.parse number "\x7b\x7d" = some q ∧
      canonicalizeDiditPayload p.value = canonicalizeDiditPayload q.value ∧
      canonicalPayload p.value = canonicalPayload q.value ∧
      ¬ p.value.Same q.value ∧ ¬ ReadAlike p q := by
  have hFirst : JsonText.parse (fun _ => none) "\x7b\"__proto__\":\"Approved\"\x7d" =
      some (.obj (.cons "__proto__" (.str "Approved") .nil)) := by
    have hText : "\x7b\"__proto__\":\"Approved\"\x7d" =
        stringify (.obj (.cons "__proto__" (.str "Approved") .nil)) := by decide +kernel
    rw [hText]
    exact parse_stringify ⟨trivial, trivial⟩ ⟨trivial, trivial⟩ rfl
  have hSecond : JsonText.parse (fun _ => none) "\x7b\x7d" = some (.obj .nil) := by
    have hText : "\x7b\x7d" = stringify (.obj .nil) := by decide +kernel
    rw [hText]
    exact parse_stringify trivial trivial rfl
  obtain ⟨p, hp, hpValue⟩ := Payload.parse_of_parse hFirst
  obtain ⟨q, hq, hqValue⟩ := Payload.parse_of_parse hSecond
  refine ⟨fun _ => none, p, q, hp, hq, ?_, ?_, ?_, ?_⟩
  · rw [hpValue, hqValue]
    decide +kernel
  · rw [hpValue, hqValue]
    decide +kernel
  · rw [hpValue, hqValue]
    intro hSame
    have hProto := Fields.rel_of_same hSame "__proto__"
    cases hProto
  · intro hRead
    have hProto := hRead _ _ hpValue hqValue "__proto__"
    cases hProto

end FarmBackend.DiditSignatures
