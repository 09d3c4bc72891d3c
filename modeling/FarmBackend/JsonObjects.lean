import FarmBackend.JsonText
import Mathlib.Data.List.Lex
import Mathlib.Data.List.Nodup

/-!
# Objects and their keys

What is found under a key, the order of the keys by their UTF-16 units and the order in which an
object lists them. An object has each key once.
-/

namespace FarmBackend.JsonText

set_option autoImplicit false

/-! ## Keys -/

namespace Fields

def keys : Fields → List String
  | .nil => []
  | .cons key _ rest => key :: rest.keys

theorem get_eq_none_iff {key : String} : ∀ fields : Fields, fields.get key = none ↔ key ∉ fields.keys
  | .nil => by simp [get, keys]
  | .cons name value rest => by
    have hRest : rest.get key = none ↔ key ∉ rest.keys := get_eq_none_iff rest
    by_cases hName : name = key
    · simp [get, keys, hName]
    · rw [get, if_neg hName, hRest, keys, List.mem_cons, not_or]
      exact (and_iff_right (Ne.symm hName)).symm

theorem mem_keys_of_get {key : String} {value : Json} {fields : Fields}
    (h : fields.get key = some value) : key ∈ fields.keys := by
  by_contra hNone
  rw [(get_eq_none_iff fields).mpr hNone] at h
  cases h

theorem get_append (key : String) : ∀ fields more : Fields,
    (fields.append more).get key = (fields.get key).or (more.get key)
  | .nil, more => rfl
  | .cons name value rest, more => by
    rw [append, get, get, get_append key rest more]
    split
    · rfl
    · rfl

theorem keys_append : ∀ fields more : Fields, (fields.append more).keys = fields.keys ++ more.keys
  | .nil, more => rfl
  | .cons name value rest, more => by
    rw [append, keys, keys, keys_append rest more, List.cons_append]

theorem get_keep (p : String → Bool) (key : String) : ∀ fields : Fields,
    (fields.keep p).get key = if p key then fields.get key else none
  | .nil => by
    rw [keep, get]
    exact (ite_self none).symm
  | .cons name value rest => by
    have hRest := get_keep p key rest
    by_cases hName : name = key
    · subst hName
      by_cases hp : p name
      · rw [keep, if_pos hp, get, if_pos rfl, if_pos hp, get, if_pos rfl]
      · rw [keep, if_neg hp, hRest, if_neg hp, if_neg hp]
    · by_cases hp : p name
      · rw [keep, if_pos hp, get, if_neg hName, hRest, get, if_neg hName]
      · rw [keep, if_neg hp, hRest, get, if_neg hName]

theorem keys_keep (p : String → Bool) : ∀ fields : Fields,
    (fields.keep p).keys = fields.keys.filter p
  | .nil => rfl
  | .cons name value rest => by
    have hRest := keys_keep p rest
    by_cases hp : p name
    · rw [keep, if_pos hp, keys, keys, List.filter_cons_of_pos hp, hRest]
    · rw [keep, if_neg hp, keys, List.filter_cons_of_neg hp, hRest]

theorem get_set (key other : String) (value : Json) : ∀ fields : Fields,
    (fields.set key value).get other = if key = other then some value else fields.get other
  | .nil => rfl
  | .cons name old rest => by
    rw [set]
    split
    · rename_i hName
      subst hName
      rw [get, get]
      split
      · rfl
      · rfl
    · rename_i hName
      rw [get, get_set key other value rest, get]
      by_cases hOther : name = other
      · subst hOther
        rw [if_pos rfl, if_pos rfl, if_neg (Ne.symm hName)]
      · rw [if_neg hOther, if_neg hOther]

theorem mem_keys_set {key other : String} {value : Json} : ∀ fields : Fields,
    other ∈ (fields.set key value).keys ↔ other = key ∨ other ∈ fields.keys
  | .nil => by simp [set, keys]
  | .cons name old rest => by
    rw [set]
    split
    · rename_i hName
      subst hName
      simp [keys]
    · rw [keys, List.mem_cons, mem_keys_set rest, keys, List.mem_cons]
      exact or_left_comm

theorem nodup_set {key : String} {value : Json} : ∀ {fields : Fields}, fields.keys.Nodup →
    (fields.set key value).keys.Nodup
  | .nil, _ => List.nodup_singleton _
  | .cons name old rest, h => by
    rw [set]
    split
    · exact h
    · rename_i hName
      rw [keys, List.nodup_cons] at h ⊢
      refine ⟨?_, nodup_set h.2⟩
      rw [mem_keys_set, not_or]
      exact ⟨hName, h.1⟩

/-- Of the values that a key is given in turn the last one stays. -/
theorem get_setAll (key : String) : ∀ {fields : Fields} (seen : Fields), fields.keys.Nodup →
    (fields.setAll seen).get key = (fields.get key).or (seen.get key)
  | .nil, seen, _ => rfl
  | .cons name value rest, seen, h => by
    rw [keys, List.nodup_cons] at h
    rw [setAll, get_setAll key _ h.2, get_set, get]
    by_cases hName : name = key
    · subst hName
      rw [(get_eq_none_iff rest).mpr h.1, if_pos rfl, if_pos rfl]
      rfl
    · rw [if_neg hName, if_neg hName]

theorem nodup_setAll : ∀ {fields seen : Fields}, seen.keys.Nodup → (fields.setAll seen).keys.Nodup
  | .nil, _, h => h
  | .cons _ _ rest, _, h => @nodup_setAll rest _ (nodup_set h)

/-! ## The order in which an object lists them -/

theorem keys_insertIndex (key : String) (value : Json) : ∀ fields : Fields,
    (fields.insertIndex key value).keys.Perm (key :: fields.keys)
  | .nil => List.Perm.refl _
  | .cons name old rest => by
    rw [insertIndex]
    split
    · exact List.Perm.refl _
    · exact ((keys_insertIndex key value rest).cons name).trans (List.Perm.swap _ _ _)

theorem keys_sortIndices : ∀ fields : Fields, fields.sortIndices.keys.Perm fields.keys
  | .nil => List.Perm.refl _
  | .cons name value rest =>
    (keys_insertIndex name value _).trans ((keys_sortIndices rest).cons name)

theorem get_insertIndex {key : String} (other : String) (value : Json) : ∀ {fields : Fields},
    key ∉ fields.keys →
      (fields.insertIndex key value).get other = if key = other then some value else fields.get other
  | .nil, _ => rfl
  | .cons name old rest, h => by
    rw [keys, List.mem_cons, not_or] at h
    rw [insertIndex]
    split
    · rw [get]
    · rw [get, get_insertIndex other value h.2, get]
      by_cases hName : name = other
      · subst hName
        rw [if_pos rfl, if_pos rfl, if_neg h.1]
      · rw [if_neg hName, if_neg hName]

theorem get_sortIndices (other : String) : ∀ {fields : Fields}, fields.keys.Nodup →
    fields.sortIndices.get other = fields.get other
  | .nil, _ => rfl
  | .cons name value rest, h => by
    rw [keys, List.nodup_cons] at h
    have hKeys : name ∉ rest.sortIndices.keys := fun hMem =>
      h.1 ((keys_sortIndices rest).mem_iff.mp hMem)
    rw [sortIndices, get_insertIndex other value hKeys, get_sortIndices other h.2, get]

/-- The array indices in their order, and then the other keys as they came. -/
def listed (fields : Fields) : Fields :=
  ((fields.keep fun key => (index key).isSome).sortIndices).append
    (fields.keep fun key => (index key).isNone)

theorem normalize_eq (fields : Fields) : fields.normalize = (fields.setAll .nil).listed := rfl

theorem get_listed (key : String) {fields : Fields} (h : fields.keys.Nodup) :
    fields.listed.get key = fields.get key := by
  have hKeep : (fields.keep fun key => (index key).isSome).keys.Nodup := by
    rw [keys_keep]
    exact h.filter _
  rw [listed, get_append, get_sortIndices key hKeep, get_keep, get_keep]
  cases hIndex : index key with
  | none => rfl
  | some n => simp

theorem nodup_listed {fields : Fields} (h : fields.keys.Nodup) : fields.listed.keys.Nodup := by
  rw [listed, keys_append, List.nodup_append]
  refine ⟨?_, ?_, ?_⟩
  · rw [(keys_sortIndices _).nodup_iff, keys_keep]
    exact h.filter _
  · rw [keys_keep]
    exact h.filter _
  · intro a ha b hb hSame
    subst hSame
    rw [(keys_sortIndices _).mem_iff, keys_keep, List.mem_filter] at ha
    rw [keys_keep, List.mem_filter, ← Option.not_isSome, ha.2] at hb
    exact absurd hb.2 (by decide)

end Fields

/-! ## The order of UTF-16 units -/

def utf16 (s : String) : List ℕ := s.toList.flatMap units

theorem utf16_injective {s t : String} (h : utf16 s = utf16 t) : s = t := by
  have hUnits := congrArg ofUnits h
  rw [utf16, utf16, ofUnits_flatMap, ofUnits_flatMap, Option.some.injEq] at hUnits
  rw [← String.ofList_toList (s := s), hUnits, String.ofList_toList]

/-- `a <= b` for strings. -/
def keyLe (a b : String) : Bool := decide (utf16 a ≤ utf16 b)

theorem keyLe_total (a b : String) : keyLe a b = true ∨ keyLe b a = true := by
  rw [keyLe, keyLe, decide_eq_true_eq, decide_eq_true_eq]
  exact le_total (utf16 a) (utf16 b)

theorem keyLe_trans {a b c : String} (hab : keyLe a b = true) (hbc : keyLe b c = true) :
    keyLe a c = true := by
  rw [keyLe, decide_eq_true_eq] at *
  exact le_trans hab hbc

theorem keyLe_antisymm {a b : String} (hab : keyLe a b = true) (hba : keyLe b a = true) : a = b := by
  rw [keyLe, decide_eq_true_eq] at *
  exact utf16_injective (le_antisymm hab hba)

namespace Fields

/-- The field before the first one whose key is not smaller. -/
def insertKey (key : String) (value : Json) : Fields → Fields
  | .nil => .cons key value .nil
  | .cons name old rest =>
    if keyLe key name then .cons key value (.cons name old rest)
    else .cons name old (insertKey key value rest)

def sortFields : Fields → Fields
  | .nil => .nil
  | .cons key value rest => insertKey key value (sortFields rest)

section
-- Their equations are derived once, before the proofs that unfold them.
attribute [local simp] insertKey sortFields
end

theorem get_insertKey (key other : String) (value : Json) : ∀ fields : Fields,
    (fields.insertKey key value).get other = if key = other then some value else fields.get other
  | .nil => rfl
  | .cons name old rest => by
    rw [insertKey]
    split
    · rw [get]
    · rename_i hLe
      have hName : name ≠ key := by
        rintro rfl
        exact hLe ((keyLe_total name name).elim id id)
      rw [get, get_insertKey key other value rest, get]
      by_cases hOther : name = other
      · subst hOther
        rw [if_pos rfl, if_pos rfl, if_neg (Ne.symm hName)]
      · rw [if_neg hOther, if_neg hOther]

theorem get_sortFields (other : String) : ∀ fields : Fields,
    fields.sortFields.get other = fields.get other
  | .nil => rfl
  | .cons key value rest => by
    rw [sortFields, get_insertKey, get_sortFields other rest, get]

theorem keys_insertKey (key : String) (value : Json) : ∀ fields : Fields,
    (fields.insertKey key value).keys.Perm (key :: fields.keys)
  | .nil => List.Perm.refl _
  | .cons name old rest => by
    rw [insertKey]
    split
    · exact List.Perm.refl _
    · exact ((keys_insertKey key value rest).cons name).trans (List.Perm.swap _ _ _)

theorem keys_sortFields : ∀ fields : Fields, fields.sortFields.keys.Perm fields.keys
  | .nil => List.Perm.refl _
  | .cons key value rest =>
    (keys_insertKey key value _).trans ((keys_sortFields rest).cons key)

/-- The keys go up. -/
def Sorted (fields : Fields) : Prop := fields.keys.Pairwise fun a b => keyLe a b = true

theorem sorted_insertKey (key : String) (value : Json) : ∀ {fields : Fields}, fields.Sorted →
    (fields.insertKey key value).Sorted
  | .nil, _ => List.pairwise_singleton _ _
  | .cons name old rest, h => by
    rw [Sorted, keys, List.pairwise_cons] at h
    rw [insertKey]
    split
    · rename_i hLe
      rw [Sorted, keys, keys, List.pairwise_cons, List.pairwise_cons]
      refine ⟨?_, h⟩
      intro other hOther
      rcases List.mem_cons.mp hOther with rfl | hRest
      · exact hLe
      · exact keyLe_trans hLe (h.1 other hRest)
    · rename_i hLe
      rw [Sorted, keys, List.pairwise_cons]
      refine ⟨?_, sorted_insertKey key value h.2⟩
      intro other hOther
      rcases List.mem_cons.mp ((keys_insertKey key value rest).mem_iff.mp hOther) with rfl | hRest
      · exact (keyLe_total other name).resolve_left hLe
      · exact h.1 other hRest

theorem sorted_sortFields : ∀ fields : Fields, fields.sortFields.Sorted
  | .nil => List.Pairwise.nil
  | .cons key value rest => sorted_insertKey key value (sorted_sortFields rest)

/-- Sorted fields with the same values under the same keys are the same. -/
theorem sorted_ext : ∀ {fields others : Fields}, fields.Sorted → others.Sorted →
    fields.keys.Nodup → others.keys.Nodup → (∀ key, fields.get key = others.get key) →
    fields = others
  | .nil, .nil, _, _, _, _, _ => rfl
  | .nil, .cons key value rest, _, _, _, _, h => by
    have hKey := h key
    rw [get, get, if_pos rfl] at hKey
    cases hKey
  | .cons key value rest, .nil, _, _, _, _, h => by
    have hKey := h key
    rw [get, get, if_pos rfl] at hKey
    cases hKey
  | .cons key value rest, .cons key' value' rest', hSorted, hSorted', hNodup, hNodup', h => by
    rw [Sorted, keys, List.pairwise_cons] at hSorted hSorted'
    rw [keys, List.nodup_cons] at hNodup hNodup'
    -- Each of the two first keys is among the keys of the other side.
    have hFirst : key = key' := by
      have hLow : keyLe key' key = true := by
        have hMem : key ∈ key' :: rest'.keys := by
          apply @mem_keys_of_get _ value (.cons key' value' rest')
          rw [← h key, get, if_pos rfl]
        rcases List.mem_cons.mp hMem with rfl | hRest
        · exact (keyLe_total _ _).elim id id
        · exact hSorted'.1 key hRest
      have hHigh : keyLe key key' = true := by
        have hMem : key' ∈ key :: rest.keys := by
          apply @mem_keys_of_get _ value' (.cons key value rest)
          rw [h key', get, if_pos rfl]
        rcases List.mem_cons.mp hMem with rfl | hRest
        · exact (keyLe_total _ _).elim id id
        · exact hSorted.1 key' hRest
      exact keyLe_antisymm hHigh hLow
    subst hFirst
    have hValue : value = value' := by
      have hKey := h key
      rw [get, get, if_pos rfl, if_pos rfl, Option.some.injEq] at hKey
      exact hKey
    have hRest : rest = rest' := by
      apply sorted_ext hSorted.2 hSorted'.2 hNodup.2 hNodup'.2
      intro other
      by_cases hOther : key = other
      · subst hOther
        rw [(get_eq_none_iff rest).mpr hNodup.1, (get_eq_none_iff rest').mpr hNodup'.1]
      · have hKey := h other
        rw [get, get, if_neg hOther, if_neg hOther] at hKey
        exact hKey
    rw [hValue, hRest]

end Fields

/-! ## Each key once -/

mutual

/-- Every object in the value has each of its keys once. -/
def Json.Distinct : Json → Prop
  | .arr items => items.Distinct
  | .obj fields => fields.keys.Nodup ∧ fields.Distinct
  | .null | .bool _ | .num _ | .infinite _ | .str _ => True

def Items.Distinct : Items → Prop
  | .nil => True
  | .cons head tail => head.Distinct ∧ tail.Distinct

def Fields.Distinct : Fields → Prop
  | .nil => True
  | .cons _ value rest => value.Distinct ∧ rest.Distinct

end

section
-- Their equations are derived once, before the proofs that unfold them.
attribute [local simp] Json.Distinct Items.Distinct Fields.Distinct
end

namespace Fields

theorem Distinct.get {key : String} {value : Json} : ∀ {fields : Fields}, fields.Distinct →
    fields.get key = some value → value.Distinct
  | .nil, _, h => by cases h
  | .cons name old rest, hDistinct, h => by
    rw [Fields.get] at h
    split at h
    · cases h
      exact hDistinct.1
    · exact hDistinct.2.get h

theorem Distinct.set {key : String} {value : Json} (hValue : value.Distinct) :
    ∀ {fields : Fields}, fields.Distinct → (fields.set key value).Distinct
  | .nil, _ => ⟨hValue, trivial⟩
  | .cons name old rest, h => by
    rw [Fields.set]
    split
    · exact ⟨hValue, h.2⟩
    · exact ⟨h.1, h.2.set hValue⟩

theorem Distinct.setAll : ∀ {fields seen : Fields}, fields.Distinct → seen.Distinct →
    (fields.setAll seen).Distinct
  | .nil, _, _, hSeen => hSeen
  | .cons _ _ rest, _, h, hSeen => @Distinct.setAll rest _ h.2 (hSeen.set h.1)

theorem Distinct.keep {p : String → Bool} : ∀ {fields : Fields}, fields.Distinct →
    (fields.keep p).Distinct
  | .nil, _ => trivial
  | .cons key value rest, h => by
    rw [Fields.keep]
    split
    · exact ⟨h.1, h.2.keep⟩
    · exact h.2.keep

theorem Distinct.insertIndex {key : String} {value : Json} (hValue : value.Distinct) :
    ∀ {fields : Fields}, fields.Distinct → (fields.insertIndex key value).Distinct
  | .nil, _ => ⟨hValue, trivial⟩
  | .cons name old rest, h => by
    rw [Fields.insertIndex]
    split
    · exact ⟨hValue, h⟩
    · exact ⟨h.1, h.2.insertIndex hValue⟩

theorem Distinct.sortIndices : ∀ {fields : Fields}, fields.Distinct → fields.sortIndices.Distinct
  | .nil, _ => trivial
  | .cons _ _ _, h => h.2.sortIndices.insertIndex h.1

theorem Distinct.append : ∀ {fields more : Fields}, fields.Distinct → more.Distinct →
    (fields.append more).Distinct
  | .nil, _, _, hMore => hMore
  | .cons _ _ _, _, h, hMore => ⟨h.1, h.2.append hMore⟩

/-- The object that a text with these fields stands for has each key once. -/
theorem distinct_normalize {fields : Fields} (h : fields.Distinct) :
    (Json.obj fields.normalize).Distinct := by
  have hSet : (fields.setAll .nil).Distinct := Distinct.setAll h trivial
  have hNodup : (fields.setAll .nil).keys.Nodup := nodup_setAll List.nodup_nil
  rw [normalize_eq]
  exact ⟨nodup_listed hNodup, hSet.keep.sortIndices.append hSet.keep⟩

end Fields

section Parse
variable {number : List Char → Option Numeral}

/-- What the three parsers give with this fuel. -/
structure ParsesDistinct (number : List Char → Option Numeral) (fuel : ℕ) : Prop where
  value : ∀ {text left : List Char} {value : Json},
    parseValue number fuel text = some (value, left) → value.Distinct
  items : ∀ {text left : List Char} {items : Items},
    parseItems number fuel text = some (items, left) → items.Distinct
  fields : ∀ {text left : List Char} {fields : Fields},
    parseFields number fuel text = some (fields, left) → fields.Distinct

theorem distinct_of_parseNumber {text left : List Char} {value : Json}
    (h : parseNumber number text = some (value, left)) : value.Distinct := by
  rw [parseNumber] at h
  split at h
  · cases hNumber : number (text.takeWhile isNumberChar) with
    | none =>
      rw [hNumber] at h
      cases h
      trivial
    | some n =>
      rw [hNumber] at h
      cases h
      trivial
  · cases h

theorem parsesDistinct_value {fuel : ℕ} (ih : ParsesDistinct number fuel)
    {text left : List Char} {value : Json}
    (h : parseValue number (fuel + 1) text = some (value, left)) : value.Distinct := by
  rw [parseValue] at h
  split at h
  · cases h
  · split at h
    · obtain ⟨x, -, hSame⟩ := Option.map_eq_some_iff.mp h
      cases hSame
      trivial
    · split at h
      · split at h
        · cases h
        · split at h
          · cases h
            trivial
          · obtain ⟨x, hFirst, hRest⟩ := Option.bind_eq_some_iff.mp h
            obtain ⟨y, hItems, hSame⟩ := Option.map_eq_some_iff.mp hRest
            cases hSame
            exact ⟨ih.value hFirst, ih.items hItems⟩
      · split at h
        · split at h
          · cases h
          · split at h
            · cases h
              exact ⟨List.nodup_nil, trivial⟩
            · obtain ⟨k, -, hRest⟩ := Option.bind_eq_some_iff.mp h
              obtain ⟨x, hFirst, hRest⟩ := Option.bind_eq_some_iff.mp hRest
              obtain ⟨y, hFields, hSame⟩ := Option.map_eq_some_iff.mp hRest
              cases hSame
              exact Fields.distinct_normalize ⟨ih.value hFirst, ih.fields hFields⟩
        · split at h
          · rw [value_of_parseLiteral h]
            trivial
          · split at h
            · rw [value_of_parseLiteral h]
              trivial
            · split at h
              · rw [value_of_parseLiteral h]
                trivial
              · exact distinct_of_parseNumber h

theorem parsesDistinct : ∀ fuel, ParsesDistinct number fuel
  | 0 => by
    refine ⟨?_, ?_, ?_⟩
    · intro text left value h
      cases h
    · intro text left items h
      cases h
    · intro text left fields h
      cases h
  | fuel + 1 => by
    have ih := parsesDistinct fuel
    refine ⟨parsesDistinct_value ih, ?_, ?_⟩
    · intro text left items h
      rw [parseItems] at h
      split at h
      · cases h
      · split at h
        · cases h
          trivial
        · split at h
          · obtain ⟨x, hFirst, hRest⟩ := Option.bind_eq_some_iff.mp h
            obtain ⟨y, hItems, hSame⟩ := Option.map_eq_some_iff.mp hRest
            cases hSame
            exact ⟨ih.value hFirst, ih.items hItems⟩
          · cases h
    · intro text left fields h
      rw [parseFields] at h
      split at h
      · cases h
      · split at h
        · cases h
          trivial
        · split at h
          · obtain ⟨k, -, hRest⟩ := Option.bind_eq_some_iff.mp h
            obtain ⟨x, hFirst, hRest⟩ := Option.bind_eq_some_iff.mp hRest
            obtain ⟨y, hFields, hSame⟩ := Option.map_eq_some_iff.mp hRest
            cases hSame
            exact ⟨ih.value hFirst, ih.fields hFields⟩
          · cases h

/-- What `JSON.parse` gives has each key once. -/
theorem distinct_of_parse {text : String} {value : Json} (h : parse number text = some value) :
    value.Distinct := by
  rw [parse] at h
  obtain ⟨x, hValue, hEnd⟩ := Option.bind_eq_some_iff.mp h
  split at hEnd
  · cases hEnd
    exact (parsesDistinct _).value hValue
  · cases hEnd

end Parse

end FarmBackend.JsonText
