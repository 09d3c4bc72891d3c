import FarmBackend.InsertionMap
import FarmBackend.JsonText
import FarmBackend.WithdrawCalls

/-!
# `ke-bank-mapper`

`toLowerCase` beyond ASCII, what `Number` makes of a literal and the order of `localeCompare` are
parameters. A length is a number of characters. The names of banks are ASCII where they are shown;
their codes are any text.
-/

namespace FarmBackend.KenyanBanks
open InsertionMap JsonText
open WithdrawCalls (trim trim_trim trim_eq_self isSpace)

set_option autoImplicit false

inductive DestinationType where
  | kepss
  | mobileMoney
  deriving DecidableEq

/-- Always in KES. -/
structure Destination where
  name : String
  code : String
  type : DestinationType
  deriving DecidableEq

structure KnownBank where
  name : String
  key : String
  code : String
  deriving DecidableEq

/-- `process.env`, or the four variables of it; a variable may hold a text or a value. -/
abbrev Environment := String → Option Json

def environmentKeys : List String := ["KE", "KE_BANKS", "BANK_CODES", "PAYSTACK_BANK_CODE_MAP"]

def knownKenyanBanks : List KnownBank := [
  ⟨"I&M Bank", "i&m bank", "57"⟩,
  ⟨"Kenya Commercial Bank", "kenya commercial bank", "01"⟩,
  ⟨"Equity Bank", "equity bank", "68"⟩,
  ⟨"Co-operative Bank", "co-operative bank", "11"⟩,
  ⟨"ABSA Bank Kenya", "absa bank kenya", "03"⟩,
  ⟨"Standard Chartered Bank Kenya", "standard chartered bank kenya", "02"⟩,
  ⟨"Stanbic Bank Kenya", "stanbic bank kenya", "31"⟩,
  ⟨"NCBA Bank", "ncba bank", "07"⟩,
  ⟨"Family Bank", "family bank", "19"⟩,
  ⟨"Diamond Trust Bank", "diamond trust bank", "63"⟩,
  ⟨"Prime Bank", "prime bank", "10"⟩,
  ⟨"Bank of Africa Kenya", "bank of africa kenya", "19"⟩,
  ⟨"Ecobank Kenya", "ecobank kenya", "43"⟩,
  ⟨"Guaranty Trust Bank Kenya", "guaranty trust bank kenya", "53"⟩,
  ⟨"Citibank Kenya", "citibank kenya", "16"⟩,
  ⟨"Sidian Bank", "sidian bank", "66"⟩,
  ⟨"HFC Bank", "hfc bank", "61"⟩,
  ⟨"National Bank of Kenya", "national bank of kenya", "12"⟩,
  ⟨"Postbank Kenya", "postbank kenya", "62"⟩,
  ⟨"Access Bank Kenya", "access bank kenya", "26"⟩]

/-- `!value`; a number is what it prints as. -/
def isFalsy : Json → Bool
  | .null => true
  | .bool b => !b
  | .num n => n.text == ['0']
  | .str s => s == ""
  | _ => false

/-- `Object.entries`. -/
def entriesOf : Fields → List (String × Json)
  | .nil => []
  | .cons key value rest => (key, value) :: entriesOf rest

/-- `typeof code === 'string' || typeof code === 'number'`, and then `String(code)`. -/
def codeOf : Json → Option String
  | .str s => some s
  | .num n => some (String.ofList n.text)
  | .infinite negative => some (if negative then "-Infinity" else "Infinity")
  | _ => none

/-- `s.includes(part)`. -/
def includes (s part : String) : Bool := decide (part.toList <:+: s.toList)

/-- `part.charAt(0).toUpperCase() + part.slice(1)`. -/
def capitalize : List Char → List Char
  | [] => []
  | c :: rest => c.toUpper :: rest

/-- The parts that `/^(i&m|kcb|ncba|dtb|boa|gtbank|nbk|hfc)$/` takes. -/
def initials : List String := ["i&m", "kcb", "ncba", "dtb", "boa", "gtbank", "nbk", "hfc"]

def displayName (aliasName : String) : String :=
  String.ofList ([' '].intercalate ((aliasName.toList.splitOn ' ').map fun part =>
    if String.ofList part ∈ initials then part.map Char.toUpper else capitalize part))

section Mapper
variable (toLowerCase : String → String) (number : List Char → Option Numeral)

def normalize (name : String) : String := trim (toLowerCase name)

/-- `JSON.parse`, or the error. -/
def parseJson (text : String) (variableName : String) : Except String Json :=
  match parse number text with
  | some value => .ok value
  | none => .error ("Invalid JSON in Kenyan bank mapping environment variable " ++ variableName)

/-- A value that is a text is parsed, any other is left. -/
def parseText (value : Json) (variableName : String) : Except String Json :=
  match value with
  | .str text => parseJson number text variableName
  | value => .ok value

def parseMapValue (rawValue : Json) (environmentKey : String) :
    Except String (List (String × Json)) := do
  match ← parseText number rawValue environmentKey with
  | .obj objectValue =>
    match objectValue.get "KE" with
    | none => return entriesOf objectValue
    | some kenyaMap =>
      match ← parseText number kenyaMap (environmentKey ++ ".KE") with
      | .obj kenyaMap => return entriesOf kenyaMap
      | _ => return entriesOf objectValue
  | _ => return []

/-- The names and codes of one variable, without the empty ones. -/
def environmentEntries (environment : Environment) (environmentKey : String) :
    Except String (List (String × String)) := do
  match environment environmentKey with
  | none => return []
  | some rawValue =>
    if isFalsy rawValue then
      return []
    else
      let parsedMap ← parseMapValue number rawValue environmentKey
      return (parsedMap.filterMap fun entry =>
        (codeOf entry.2).map fun code => (normalize toLowerCase entry.1, trim code)).filter
          fun entry => entry.1 ≠ "" && entry.2 ≠ ""

/-- Those of all the variables, in their order. -/
def allEntries (environment : Environment) : Except String (List (String × String)) := do
  let lists ← environmentKeys.mapM (environmentEntries toLowerCase number environment)
  return lists.flatten

def builtIn : List (String × String) :=
  knownKenyanBanks.map fun bank => (normalize toLowerCase bank.key, bank.code)

def getKenyanBankMap (environment : Environment) : Except String (List (String × String)) := do
  let entries ← allEntries toLowerCase number environment
  return putAll (builtIn toLowerCase) entries

/-- The codes of the names that contain the key or are contained in it, each once. -/
def matchingCodes (map : List (String × String)) (key : String) : List String :=
  ((map.filter fun entry =>
    3 ≤ entry.1.length && (includes key entry.1 || includes entry.1 key)).map Prod.snd).dedup

def codeIn (map : List (String × String)) (key : String) : Option String :=
  match (map.lookup key).filter (· ≠ "") with
  | some exactCode => some exactCode
  | none =>
    match (map.map Prod.snd).find? fun code => toLowerCase code == key with
    | some code => some code
    | none =>
      if key.length < 3 then none
      else
        match matchingCodes map key with
        | [code] => some code
        | _ => none

def getBankCode (input : String) (environment : Environment) : Except String (Option String) := do
  let key := normalize toLowerCase input
  if key = "" then
    return none
  else
    let map ← getKenyanBankMap toLowerCase number environment
    return codeIn toLowerCase map key

/-! ## The list -/

/-- `map.get(normalize(bank.key)) ?? bank.code`. -/
def codeOfKnown (map : List (String × String)) (bank : KnownBank) : String :=
  (map.lookup (normalize toLowerCase bank.key)).getD bank.code

def knownCodes (map : List (String × String)) : List String :=
  knownKenyanBanks.map (codeOfKnown toLowerCase map)

/-- One turn of the loop over the aliases: the longest alias of a code names it. -/
def noteAlias (known : List String) (names : List (String × String)) (entry : String × String) :
    List (String × String) :=
  if entry.2 ∈ known then names
  else
    match names.lookup entry.2 with
    | none => put names entry.2 entry.1
    | some currentName =>
      if currentName = "" ∨ currentName.length < entry.1.length then put names entry.2 entry.1
      else names

/-- `displayNameByCode`. -/
def displayNameByCode (map : List (String × String)) : List (String × String) :=
  map.foldl (noteAlias (knownCodes toLowerCase map)) []

def bankDestinations (map : List (String × String)) : List Destination :=
  (knownKenyanBanks.map fun bank => ⟨bank.name, codeOfKnown toLowerCase map bank, .kepss⟩) ++
    (displayNameByCode toLowerCase map).map fun entry => ⟨displayName entry.2, entry.1, .kepss⟩

def getAllKenyanBanks (localeLe : String → String → Bool) (environment : Environment)
    (type : Option String) : Except String (List Destination) := do
  let map ← getKenyanBankMap toLowerCase number environment
  let normalizedType := type.map fun type => toLowerCase (trim type)
  let banks := if normalizedType = some "mobile_money" then [] else bankDestinations toLowerCase map
  let mobileMoney := if normalizedType.all fun type => type == "" || type == "mobile_money" then
    [⟨"M-Pesa", "MPESA", .mobileMoney⟩] else []
  return (banks ++ mobileMoney).mergeSort fun left right => localeLe left.name right.name

end Mapper

/-! ## Names and codes -/

def Ascii (s : String) : Prop := ∀ c ∈ s.toList, c.toNat < 128

/-- What is used of `toLowerCase`; beyond ASCII only that it leaves no white space at the ends. -/
structure LowerCases (toLowerCase : String → String) : Prop where
  ascii : ∀ s, Ascii s → toLowerCase s = String.ofList (s.toList.map Char.toLower)
  trimmed : ∀ s, trim s = s → trim (toLowerCase s) = toLowerCase s
  ne_empty : ∀ s, toLowerCase s = "" → s = ""

/-- All names of the bank maps are ASCII. -/
def AsciiNames (number : List Char → Option Numeral) (environment : Environment) : Prop :=
  ∀ key ∈ environmentKeys, ∀ rawValue entries, environment key = some rawValue →
    parseMapValue number rawValue key = .ok entries → ∀ entry ∈ entries, Ascii entry.1

/-- A name in small letters and a code, neither empty, without white space at the ends. -/
structure CleanEntry (entry : String × String) : Prop where
  name_ne : entry.1 ≠ ""
  name_trim : trim entry.1 = entry.1
  name_ascii : Ascii entry.1
  name_lower : ∀ c ∈ entry.1.toList, c.toLower = c
  code_ne : entry.2 ≠ ""
  code_trim : trim entry.2 = entry.2

theorem mem_trim {s : String} {c : Char} (h : c ∈ (trim s).toList) : c ∈ s.toList := by
  rw [trim, String.toList_ofList, List.mem_reverse] at h
  have hDropped := (List.dropWhile_suffix _).subset h
  rw [List.mem_reverse] at hDropped
  exact (List.dropWhile_suffix _).subset hDropped

theorem toLower_ascii : ∀ n < 128, (Char.ofNat n).toLower.toNat < 128 ∧
    (Char.ofNat n).toLower.toLower = (Char.ofNat n).toLower ∧
    (Char.ofNat n).toUpper.toLower = (Char.ofNat n).toLower ∧
    (Char.ofNat n).toUpper.toNat < 128 := by decide +kernel

theorem ascii_toLower {c : Char} (hAscii : c.toNat < 128) : c.toLower.toNat < 128 ∧
    c.toLower.toLower = c.toLower ∧ c.toUpper.toLower = c.toLower ∧ c.toUpper.toNat < 128 := by
  have hTable := toLower_ascii c.toNat hAscii
  rw [Char.ofNat_toNat] at hTable
  exact hTable

section Clean
variable {toLowerCase : String → String} {number : List Char → Option Numeral}
  {environment : Environment}

theorem normalize_ascii (hLower : LowerCases toLowerCase) {name : String} (hAscii : Ascii name) :
    normalize toLowerCase name = trim (String.ofList (name.toList.map Char.toLower)) := by
  rw [normalize, hLower.ascii name hAscii]

theorem clean_name (hLower : LowerCases toLowerCase) {name : String} (hAscii : Ascii name) :
    Ascii (normalize toLowerCase name) ∧
      ∀ c ∈ (normalize toLowerCase name).toList, c.toLower = c := by
  rw [normalize_ascii hLower hAscii]
  constructor
  · intro c hc
    have hMem := mem_trim hc
    rw [String.toList_ofList] at hMem
    obtain ⟨d, hd, rfl⟩ := List.mem_map.mp hMem
    exact (ascii_toLower (hAscii d hd)).1
  · intro c hc
    have hMem := mem_trim hc
    rw [String.toList_ofList] at hMem
    obtain ⟨d, hd, rfl⟩ := List.mem_map.mp hMem
    exact (ascii_toLower (hAscii d hd)).2.1

/-- The letters of a known bank. -/
def Spelled (bank : KnownBank) : Prop :=
  ∃ name key code, bank.name = String.ofList name ∧ bank.key = String.ofList key ∧
    bank.code = String.ofList code ∧ name.map Char.toLower = key ∧ (name.all fun c => c.toNat < 128) ∧
    (key.head?.any fun c => !isSpace c) ∧ (key.getLast?.any fun c => !isSpace c) ∧
    (code.head?.any fun c => !isSpace c) ∧ (code.getLast?.any fun c => !isSpace c)

theorem known_spelled : ∀ bank ∈ knownKenyanBanks, Spelled bank := by
  simp only [knownKenyanBanks, List.forall_mem_cons, List.not_mem_nil, false_imp_iff,
    implies_true, and_true]
  and_intros
  all_goals exact ⟨_, _, _, rfl, rfl, rfl, by decide +kernel⟩

theorem trim_of_ends {text : List Char} (hFirst : text.head?.any fun c => !isSpace c)
    (hLast : text.getLast?.any fun c => !isSpace c) :
    trim (String.ofList text) = String.ofList text ∧ String.ofList text ≠ "" := by
  constructor
  · apply trim_eq_self
    · intro c hc
      rw [String.toList_ofList] at hc
      rw [hc] at hFirst
      simpa using hFirst
    · intro c hc
      rw [String.toList_ofList] at hc
      rw [hc] at hLast
      simpa using hLast
  · intro hEmpty
    have hNil : text = [] := by
      rw [← String.toList_ofList (l := text), hEmpty]
      rfl
    rw [hNil] at hFirst
    cases hFirst

theorem known_ascii {bank : KnownBank} (hBank : bank ∈ knownKenyanBanks) :
    Ascii bank.name ∧ Ascii bank.key ∧
    trim (String.ofList (bank.name.toList.map Char.toLower)) = bank.key ∧
    trim (String.ofList (bank.key.toList.map Char.toLower)) = bank.key ∧
    bank.key ≠ "" ∧ bank.code ≠ "" ∧ trim bank.code = bank.code := by
  obtain ⟨name, key, code, hName, hKey, hCode, rfl, hAscii, hFirst, hLast, hFirst', hLast'⟩ :=
    known_spelled bank hBank
  have hSmall : ∀ c ∈ name, c.toNat < 128 := by simpa using hAscii
  obtain ⟨hTrim, hSome⟩ := trim_of_ends hFirst hLast
  obtain ⟨hTrim', hSome'⟩ := trim_of_ends hFirst' hLast'
  have hTwice : (name.map Char.toLower).map Char.toLower = name.map Char.toLower := by
    rw [List.map_map]
    apply List.map_congr_left
    intro c hc
    exact (ascii_toLower (hSmall c hc)).2.1
  rw [hName, hKey, hCode, String.toList_ofList, String.toList_ofList, hTwice]
  refine ⟨?_, ?_, hTrim, hTrim, hSome, hSome', hTrim'⟩
  · intro c hc
    rw [String.toList_ofList] at hc
    exact hSmall c hc
  · intro c hc
    rw [String.toList_ofList] at hc
    obtain ⟨d, hd, rfl⟩ := List.mem_map.mp hc
    exact (ascii_toLower (hSmall d hd)).1

theorem normalize_key (hLower : LowerCases toLowerCase) {bank : KnownBank}
    (hBank : bank ∈ knownKenyanBanks) : normalize toLowerCase bank.key = bank.key := by
  obtain ⟨-, hAscii, -, hKey, -⟩ := known_ascii hBank
  rw [normalize_ascii hLower hAscii, hKey]

/-- The name of a known bank is its key in small letters. -/
theorem normalize_name (hLower : LowerCases toLowerCase) {bank : KnownBank}
    (hBank : bank ∈ knownKenyanBanks) : normalize toLowerCase bank.name = bank.key := by
  obtain ⟨hAscii, -, hName, -⟩ := known_ascii hBank
  rw [normalize_ascii hLower hAscii, hName]

theorem clean_builtIn (hLower : LowerCases toLowerCase) :
    ∀ entry ∈ builtIn toLowerCase, CleanEntry entry := by
  intro entry hEntry
  obtain ⟨bank, hBank, rfl⟩ := List.mem_map.mp hEntry
  obtain ⟨-, hAscii, -, -, hKey, hCode, hTrim⟩ := known_ascii hBank
  obtain ⟨hAscii', hSmall⟩ := clean_name hLower hAscii
  refine ⟨?_, ?_, hAscii', hSmall, hCode, hTrim⟩
  · rw [normalize_key hLower hBank]
    exact hKey
  · exact trim_trim _

theorem clean_environmentEntries (hLower : LowerCases toLowerCase)
    (hNames : AsciiNames number environment) {key : String} (hKey : key ∈ environmentKeys)
    {entries : List (String × String)}
    (hEntries : environmentEntries toLowerCase number environment key = .ok entries) :
    ∀ entry ∈ entries, CleanEntry entry := by
  intro entry hEntry
  rw [environmentEntries] at hEntries
  cases hRaw : environment key with
  | none =>
    rw [hRaw] at hEntries
    cases hEntries
    cases hEntry
  | some rawValue =>
    rw [hRaw] at hEntries
    simp only at hEntries
    split at hEntries
    · cases hEntries
      cases hEntry
    · cases hMap : parseMapValue number rawValue key with
      | error e =>
        rw [hMap] at hEntries
        cases hEntries
      | ok parsedMap =>
        rw [hMap] at hEntries
        cases hEntries
        rw [List.mem_filter, List.mem_filterMap] at hEntry
        obtain ⟨⟨⟨name, value⟩, hMem, hCode⟩, hFull⟩ := hEntry
        rw [Option.map_eq_some_iff] at hCode
        obtain ⟨code, -, rfl⟩ := hCode
        simp only [Bool.and_eq_true, decide_eq_true_eq] at hFull
        obtain ⟨hAscii, hSmall⟩ := clean_name hLower
          (hNames key hKey rawValue parsedMap hRaw hMap _ hMem)
        exact ⟨hFull.1, trim_trim _, hAscii, hSmall, hFull.2, trim_trim _⟩

theorem exists_of_mapM {β : Type} {f : String → Except String β} {keys : List String}
    {results : List β} (h : keys.mapM f = .ok results) :
    ∀ r ∈ results, ∃ key ∈ keys, f key = .ok r := by
  induction keys generalizing results with
  | nil =>
    cases h
    intro r hr
    cases hr
  | cons key keys ih =>
    rw [List.mapM_cons] at h
    cases hFirst : f key with
    | error e =>
      rw [hFirst] at h
      cases h
    | ok first =>
      rw [hFirst] at h
      cases hRest : keys.mapM f with
      | error e =>
        rw [hRest] at h
        cases h
      | ok rest =>
        rw [hRest] at h
        cases h
        intro r hr
        rcases List.mem_cons.mp hr with rfl | hr
        · exact ⟨key, List.mem_cons_self, hFirst⟩
        · obtain ⟨k, hk, hf⟩ := ih hRest r hr
          exact ⟨k, List.mem_cons_of_mem _ hk, hf⟩

theorem clean_allEntries (hLower : LowerCases toLowerCase) (hNames : AsciiNames number environment)
    {entries : List (String × String)}
    (hEntries : allEntries toLowerCase number environment = .ok entries) :
    ∀ entry ∈ entries, CleanEntry entry := by
  rw [allEntries] at hEntries
  cases hLists : environmentKeys.mapM (environmentEntries toLowerCase number environment) with
  | error e =>
    rw [hLists] at hEntries
    cases hEntries
  | ok lists =>
    rw [hLists] at hEntries
    cases hEntries
    intro entry hEntry
    obtain ⟨list, hList, hEntry⟩ := List.mem_flatten.mp hEntry
    obtain ⟨key, hKey, hOk⟩ := exists_of_mapM hLists list hList
    exact clean_environmentEntries hLower hNames hKey hOk entry hEntry

theorem getKenyanBankMap_eq_ok {map : List (String × String)} :
    getKenyanBankMap toLowerCase number environment = .ok map ↔
      ∃ entries, allEntries toLowerCase number environment = .ok entries ∧
        map = putAll (builtIn toLowerCase) entries := by
  rw [getKenyanBankMap]
  cases hEntries : allEntries toLowerCase number environment with
  | error e =>
    constructor
    · intro hMap
      cases hMap
    · rintro ⟨entries, hSame, -⟩
      cases hSame
  | ok entries =>
    constructor
    · intro hMap
      cases hMap
      exact ⟨entries, rfl, rfl⟩
    · rintro ⟨entries', hSame, rfl⟩
      cases hSame
      rfl

end Clean

/-- What the merged map is known for. -/
structure Merged (toLowerCase : String → String) (entries map : List (String × String)) : Prop where
  map_eq : map = putAll (builtIn toLowerCase) entries
  clean : ∀ entry ∈ map, CleanEntry entry
  nodup : (map.map Prod.fst).Nodup

section Merge
variable {toLowerCase : String → String} {number : List Char → Option Numeral}
  {environment : Environment} {entries map : List (String × String)}

theorem known_keys_nodup : (knownKenyanBanks.map KnownBank.key).Nodup := by
  simp [knownKenyanBanks]

theorem builtIn_eq (hLower : LowerCases toLowerCase) :
    builtIn toLowerCase = knownKenyanBanks.map fun bank => (bank.key, bank.code) := by
  apply List.map_congr_left
  intro bank hBank
  rw [normalize_key hLower hBank]

theorem merged_of_ok (hLower : LowerCases toLowerCase) (hNames : AsciiNames number environment)
    (hEntries : allEntries toLowerCase number environment = .ok entries) :
    Merged toLowerCase entries (putAll (builtIn toLowerCase) entries) where
  map_eq := rfl
  clean := by
    intro entry hEntry
    rcases mem_putAll hEntry with hMem | hMem
    · exact clean_allEntries hLower hNames hEntries entry hMem
    · exact clean_builtIn hLower entry hMem
  nodup := by
    apply nodup_putAll
    rw [builtIn_eq hLower, List.map_map]
    exact known_keys_nodup

/-- The code of a known bank is what the environment last maps it to, or its own. -/
theorem lookup_known (hLower : LowerCases toLowerCase) (hMerged : Merged toLowerCase entries map)
    {bank : KnownBank} (hBank : bank ∈ knownKenyanBanks) :
    map.lookup bank.key = some ((entries.reverse.lookup bank.key).getD bank.code) := by
  have hOwn : (builtIn toLowerCase).lookup bank.key = some bank.code := by
    rw [builtIn_eq hLower]
    apply lookup_of_mem
    · rw [List.map_map]
      exact known_keys_nodup
    · exact List.mem_map.mpr ⟨bank, hBank, rfl⟩
  rw [hMerged.map_eq, lookup_putAll, hOwn]
  cases entries.reverse.lookup bank.key <;> rfl

theorem codeOfKnown_eq (hLower : LowerCases toLowerCase) (hMerged : Merged toLowerCase entries map)
    {bank : KnownBank} (hBank : bank ∈ knownKenyanBanks) :
    codeOfKnown toLowerCase map bank = (entries.reverse.lookup bank.key).getD bank.code := by
  rw [codeOfKnown, normalize_key hLower hBank, lookup_known hLower hMerged hBank, Option.getD_some]

end Merge

/-! ## What a key resolves to -/

section Resolve
variable {toLowerCase : String → String} {map : List (String × String)}

/-- Codes are apart when no two are equal up to case and no name equals one that is not its own. -/
def CodesApart (toLowerCase : String → String) (map : List (String × String)) : Prop :=
  ∀ code ∈ map.map Prod.snd,
    (∀ other ∈ map.map Prod.snd, toLowerCase other = toLowerCase code → other = code) ∧
      ∀ other, map.lookup (toLowerCase code) = some other → other = code

theorem codeIn_of_lookup {key code : String} (hLookup : map.lookup key = some code)
    (hCode : code ≠ "") : codeIn toLowerCase map key = some code := by
  rw [codeIn, hLookup, Option.filter_some, if_pos (by simpa using hCode)]

/-- A code that no name hides is found among the codes. -/
theorem codeIn_of_code {code : String} (hNone : map.lookup (toLowerCase code) = none)
    (hMem : code ∈ map.map Prod.snd) :
    ∃ found ∈ map.map Prod.snd, toLowerCase found = toLowerCase code ∧
      codeIn toLowerCase map (toLowerCase code) = some found := by
  rw [codeIn, hNone, Option.filter_none]
  cases hFind : (map.map Prod.snd).find? fun c => toLowerCase c == toLowerCase code with
  | none =>
    have hNot := List.find?_eq_none.mp hFind code hMem
    exact absurd (beq_self_eq_true _) hNot
  | some found =>
    have hTest := List.find?_some hFind
    exact ⟨found, List.mem_of_find?_eq_some hFind, beq_iff_eq.mp hTest, rfl⟩

/-- Each code resolves to itself exactly when the codes are apart. -/
theorem codes_resolve_iff (hClean : ∀ entry ∈ map, CleanEntry entry) :
    (∀ code ∈ map.map Prod.snd, codeIn toLowerCase map (toLowerCase code) = some code) ↔
      CodesApart toLowerCase map := by
  constructor
  · intro hResolve code hMem
    constructor
    · intro other hOther hSame
      have hOne := hResolve code hMem
      rw [← hSame, hResolve other hOther] at hOne
      exact Option.some.inj hOne
    · intro other hLookup
      have hOne := hResolve code hMem
      rw [codeIn_of_lookup hLookup (hClean _ (mem_of_lookup hLookup)).code_ne] at hOne
      exact Option.some.inj hOne
  · intro hApart code hMem
    cases hLookup : map.lookup (toLowerCase code) with
    | some other =>
      rw [codeIn_of_lookup hLookup (hClean _ (mem_of_lookup hLookup)).code_ne,
        (hApart code hMem).2 other hLookup]
    | none =>
      obtain ⟨found, hFound, hSame, hCode⟩ := codeIn_of_code hLookup hMem
      rw [hCode, (hApart code hMem).1 found hFound hSame]

end Resolve

/-! ## The names that are shown -/

theorem map_intercalate {α β : Type} (f : α → β) (sep : List α) (parts : List (List α)) :
    (sep.intercalate parts).map f = (sep.map f).intercalate (parts.map (List.map f)) := by
  induction parts with
  | nil => rfl
  | cons part rest ih =>
    cases rest with
    | nil => simp
    | cons next rest =>
      rw [List.intercalate_cons_cons, List.map_append, List.map_append, ih, List.map_cons,
        List.map_cons, List.map_cons, List.intercalate_cons_cons]

theorem toLower_style {part : List Char} (hAscii : ∀ c ∈ part, c.toNat < 128) :
    (if String.ofList part ∈ initials then part.map Char.toUpper else capitalize part).map
      Char.toLower = part.map Char.toLower := by
  split
  · rw [List.map_map]
    apply List.map_congr_left
    intro c hc
    exact (ascii_toLower (hAscii c hc)).2.2.1
  · cases part with
    | nil => rfl
    | cons c rest =>
      rw [capitalize, List.map_cons, (ascii_toLower (hAscii c List.mem_cons_self)).2.2.1,
        List.map_cons]

theorem mem_of_mem_splitOn {text part : List Char} {c : Char} (hPart : part ∈ text.splitOn ' ')
    (hc : c ∈ part) : c ∈ text := by
  have hJoined : [' '].intercalate (text.splitOn ' ') = text := List.intercalate_splitOn ' '
  rw [← hJoined]
  have hMem : ∀ parts : List (List Char), part ∈ parts → c ∈ [' '].intercalate parts := by
    intro parts
    induction parts with
    | nil =>
      intro hNone
      cases hNone
    | cons first rest ih =>
      intro hMem
      cases rest with
      | nil =>
        rw [List.mem_singleton.mp hMem] at hc
        rw [List.intercalate_singleton]
        exact hc
      | cons next rest =>
        rw [List.intercalate_cons_cons]
        rcases List.mem_cons.mp hMem with rfl | hRest
        · exact List.mem_append_left _ (List.mem_append_left _ hc)
        · exact List.mem_append_right _ (ih hRest)
  exact hMem _ hPart

/-- The shown name differs from the alias in the case of its letters only. -/
theorem toLower_displayName {aliasName : String} (hAscii : Ascii aliasName)
    (hSmall : ∀ c ∈ aliasName.toList, c.toLower = c) :
    (displayName aliasName).toList.map Char.toLower = aliasName.toList := by
  rw [displayName, String.toList_ofList, map_intercalate, List.map_map]
  have hParts : ((aliasName.toList.splitOn ' ').map (List.map Char.toLower ∘ fun part =>
      if String.ofList part ∈ initials then part.map Char.toUpper else capitalize part)) =
      aliasName.toList.splitOn ' ' := by
    apply (List.map_congr_left ?_).trans (List.map_id _)
    intro part hPart
    have hMem : ∀ c ∈ part, c ∈ aliasName.toList := fun c hc => mem_of_mem_splitOn hPart hc
    rw [Function.comp_apply, toLower_style fun c hc => hAscii c (hMem c hc)]
    apply (List.map_congr_left ?_).trans (List.map_id _)
    intro c hc
    exact hSmall c (hMem c hc)
  rw [hParts]
  exact List.intercalate_splitOn ' '

theorem ascii_of_toLower {c : Char} (hLower : c.toLower.toNat < 128) : c.toNat < 128 := by
  by_cases hUpper : c.val ≥ 'A'.val ∧ c.val ≤ 'Z'.val
  · have hHigh : c.toNat ≤ 90 := hUpper.2
    omega
  · have hSame : c.toLower = c := dif_neg hUpper
    rwa [hSame] at hLower

theorem normalize_displayName {toLowerCase : String → String} (hLower : LowerCases toLowerCase)
    {entry : String × String} (hClean : CleanEntry entry) :
    normalize toLowerCase (displayName entry.1) = entry.1 := by
  have hText := toLower_displayName hClean.name_ascii hClean.name_lower
  have hAscii : Ascii (displayName entry.1) := by
    intro c hc
    apply ascii_of_toLower
    apply hClean.name_ascii
    rw [← hText]
    exact List.mem_map_of_mem hc
  rw [normalize_ascii hLower hAscii, hText, String.ofList_toList, hClean.name_trim]

/-! ## The aliases -/

section Aliases
variable {known : List String} {names : List (String × String)}

theorem noteAlias_eq (known : List String) (names : List (String × String))
    (entry : String × String) : noteAlias known names entry = names ∨
      (entry.2 ∉ known ∧ noteAlias known names entry = put names entry.2 entry.1) := by
  rw [noteAlias]
  split
  · exact .inl rfl
  · rename_i hNew
    split
    · exact .inr ⟨hNew, rfl⟩
    · split
      · exact .inr ⟨hNew, rfl⟩
      · exact .inl rfl

theorem nodup_noteAliases (entries : List (String × String))
    (hNodup : (names.map Prod.fst).Nodup) :
    ((entries.foldl (noteAlias known) names).map Prod.fst).Nodup := by
  induction entries generalizing names with
  | nil => exact hNodup
  | cons entry rest ih =>
    apply ih
    rcases noteAlias_eq known names entry with hSame | ⟨-, hPut⟩
    · rw [hSame]
      exact hNodup
    · rw [hPut]
      exact nodup_put hNodup

/-- A name that is noted is an alias of the code, and the code is that of no known bank. -/
theorem mem_noteAliases {entries : List (String × String)} {x : String × String}
    (h : x ∈ entries.foldl (noteAlias known) names) :
    x ∈ names ∨ (x.1 ∉ known ∧ (x.2, x.1) ∈ entries) := by
  induction entries generalizing names with
  | nil => exact .inl h
  | cons entry rest ih =>
    rcases ih h with hNoted | ⟨hNew, hMem⟩
    · rcases noteAlias_eq known names entry with hSame | ⟨hNew, hPut⟩
      · rw [hSame] at hNoted
        exact .inl hNoted
      · rw [hPut] at hNoted
        rcases mem_put hNoted with rfl | hOld
        · exact .inr ⟨hNew, List.mem_cons_self⟩
        · exact .inl hOld
    · exact .inr ⟨hNew, List.mem_cons_of_mem _ hMem⟩

theorem keys_noteAlias {code : String} (entry : String × String)
    (h : code ∈ names.map Prod.fst) : code ∈ (noteAlias known names entry).map Prod.fst := by
  rcases noteAlias_eq known names entry with hSame | ⟨-, hPut⟩
  · rw [hSame]
    exact h
  · rw [hPut]
    exact mem_keys_put.mpr (.inr h)

theorem keys_noteAliases {code : String} (entries : List (String × String))
    (h : code ∈ names.map Prod.fst) :
    code ∈ (entries.foldl (noteAlias known) names).map Prod.fst := by
  induction entries generalizing names with
  | nil => exact h
  | cons entry rest ih => exact ih (keys_noteAlias entry h)

theorem noted_noteAlias {entry : String × String} (hNew : entry.2 ∉ known) :
    entry.2 ∈ (noteAlias known names entry).map Prod.fst := by
  rw [noteAlias, if_neg hNew]
  split
  · exact mem_keys_put.mpr (.inl rfl)
  · rename_i current hCurrent
    split
    · exact mem_keys_put.mpr (.inl rfl)
    · exact List.mem_map.mpr ⟨_, mem_of_lookup hCurrent, rfl⟩

/-- Every code that is not one of a known bank is noted. -/
theorem noted_noteAliases {entries : List (String × String)} {entry : String × String}
    (hMem : entry ∈ entries) (hNew : entry.2 ∉ known) :
    entry.2 ∈ (entries.foldl (noteAlias known) names).map Prod.fst := by
  induction entries generalizing names with
  | nil => cases hMem
  | cons first rest ih =>
    rcases List.mem_cons.mp hMem with rfl | hRest
    · exact keys_noteAliases rest (noted_noteAlias hNew)
    · exact ih hRest

end Aliases

/-! ## The listed banks -/

section Listed
variable {toLowerCase : String → String} {entries map : List (String × String)}

/-- A listed bank is a known one or an alias with a code of its own. -/
theorem mem_bankDestinations {d : Destination} (h : d ∈ bankDestinations toLowerCase map) :
    (∃ bank ∈ knownKenyanBanks, d = ⟨bank.name, codeOfKnown toLowerCase map bank, .kepss⟩) ∨
      ∃ entry ∈ displayNameByCode toLowerCase map, d = ⟨displayName entry.2, entry.1, .kepss⟩ := by
  rw [bankDestinations] at h
  rcases List.mem_append.mp h with h | h
  · obtain ⟨bank, hBank, rfl⟩ := List.mem_map.mp h
    exact .inl ⟨bank, hBank, rfl⟩
  · obtain ⟨entry, hEntry, rfl⟩ := List.mem_map.mp h
    exact .inr ⟨entry, hEntry, rfl⟩

theorem mem_displayNameByCode {x : String × String}
    (h : x ∈ displayNameByCode toLowerCase map) :
    x.1 ∉ knownCodes toLowerCase map ∧ (x.2, x.1) ∈ map := by
  rcases mem_noteAliases h with hNone | hSome
  · cases hNone
  · exact hSome

/-- The name of a listed bank leads to its code. -/
theorem name_resolves (hLower : LowerCases toLowerCase) (hMerged : Merged toLowerCase entries map)
    {d : Destination} (h : d ∈ bankDestinations toLowerCase map) :
    map.lookup (normalize toLowerCase d.name) = some d.code := by
  rcases mem_bankDestinations h with ⟨bank, hBank, rfl⟩ | ⟨x, hNoted, rfl⟩
  · rw [normalize_name hLower hBank, codeOfKnown_eq hLower hMerged hBank]
    exact lookup_known hLower hMerged hBank
  · obtain ⟨-, hMem⟩ := mem_displayNameByCode hNoted
    rw [normalize_displayName hLower (hMerged.clean _ hMem)]
    exact lookup_of_mem hMerged.nodup hMem

theorem code_mem (hLower : LowerCases toLowerCase) (hMerged : Merged toLowerCase entries map)
    {d : Destination} (h : d ∈ bankDestinations toLowerCase map) : d.code ∈ map.map Prod.snd :=
  List.mem_map.mpr ⟨_, mem_of_lookup (name_resolves hLower hMerged h), rfl⟩

/-- Every code of the map is listed. -/
theorem exists_listed {code : String} (h : code ∈ map.map Prod.snd) :
    ∃ d ∈ bankDestinations toLowerCase map, d.code = code := by
  obtain ⟨entry, hMem, rfl⟩ := List.mem_map.mp h
  by_cases hKnown : entry.2 ∈ knownCodes toLowerCase map
  · obtain ⟨bank, hBank, hCode⟩ := List.mem_map.mp hKnown
    refine ⟨⟨bank.name, codeOfKnown toLowerCase map bank, .kepss⟩, ?_, hCode⟩
    exact List.mem_append_left _ (List.mem_map.mpr ⟨bank, hBank, rfl⟩)
  · have hNoted : _ ∈ (map.foldl (noteAlias (knownCodes toLowerCase map)) []).map Prod.fst :=
      noted_noteAliases hMem hKnown
    obtain ⟨x, hx, hCode⟩ := List.mem_map.mp hNoted
    refine ⟨⟨displayName x.2, x.1, .kepss⟩, ?_, hCode⟩
    exact List.mem_append_right _ (List.mem_map.mpr ⟨x, hx, rfl⟩)

/-- The environment maps the bank to this code. -/
def MapsTo (toLowerCase : String → String) (entries : List (String × String)) (d : Destination) :
    Prop := entries.reverse.lookup (normalize toLowerCase d.name) = some d.code

/-- Two of the banks share a code only when the environment maps both to it. -/
def SharesNone (toLowerCase : String → String) (entries : List (String × String))
    (banks : List Destination) : Prop :=
  ∀ d ∈ banks, ∀ other ∈ banks, d ≠ other → d.code = other.code →
    MapsTo toLowerCase entries d ∧ MapsTo toLowerCase entries other

/-- The environment maps one of the two banks that are built in with one code, and no known bank to
the built-in code of another that it leaves alone. -/
def KnownApart (entries : List (String × String)) : Prop :=
  (entries.reverse.lookup "family bank" ≠ none ∨
    entries.reverse.lookup "bank of africa kenya" ≠ none) ∧
  ∀ bank ∈ knownKenyanBanks, ∀ other ∈ knownKenyanBanks,
    entries.reverse.lookup bank.key = some other.code → entries.reverse.lookup other.key ≠ none

/-- Of the built-in codes two are the same. -/
theorem known_codes_pairwise : knownKenyanBanks.Pairwise fun bank other => bank.code = other.code →
    (bank.key = "family bank" ∧ other.key = "bank of africa kenya") ∨
      (bank.key = "bank of africa kenya" ∧ other.key = "family bank") := by
  simp [knownKenyanBanks]

theorem known_codes {bank other : KnownBank} (hBank : bank ∈ knownKenyanBanks)
    (hOther : other ∈ knownKenyanBanks) (hNe : bank ≠ other) (hCode : bank.code = other.code) :
    (bank.key = "family bank" ∧ other.key = "bank of africa kenya") ∨
      (bank.key = "bank of africa kenya" ∧ other.key = "family bank") := by
  have hSymm : Std.Symm fun bank other : KnownBank => bank.code = other.code →
      (bank.key = "family bank" ∧ other.key = "bank of africa kenya") ∨
        (bank.key = "bank of africa kenya" ∧ other.key = "family bank") := by
    constructor
    intro a b hPair hSame
    rcases hPair hSame.symm with ⟨hFirst, hSecond⟩ | ⟨hFirst, hSecond⟩
    · exact .inr ⟨hSecond, hFirst⟩
    · exact .inl ⟨hSecond, hFirst⟩
  exact known_codes_pairwise.forall hBank hOther hNe hCode

theorem mem_familyBank : (⟨"Family Bank", "family bank", "19"⟩ : KnownBank) ∈ knownKenyanBanks := by
  simp [knownKenyanBanks]

theorem mem_bankOfAfrica : (⟨"Bank of Africa Kenya", "bank of africa kenya", "19"⟩ : KnownBank) ∈
    knownKenyanBanks := by
  simp [knownKenyanBanks]

/-- The destination of a known bank. -/
def destinationOf (entries : List (String × String)) (bank : KnownBank) : Destination :=
  ⟨bank.name, (entries.reverse.lookup bank.key).getD bank.code, .kepss⟩

theorem destinationOf_mem (hLower : LowerCases toLowerCase)
    (hMerged : Merged toLowerCase entries map) {bank : KnownBank}
    (hBank : bank ∈ knownKenyanBanks) :
    destinationOf entries bank ∈ bankDestinations toLowerCase map := by
  refine List.mem_append_left _ (List.mem_map.mpr ⟨bank, hBank, ?_⟩)
  rw [codeOfKnown_eq hLower hMerged hBank]
  rfl

theorem mapsTo_known (hLower : LowerCases toLowerCase) {bank : KnownBank}
    (hBank : bank ∈ knownKenyanBanks) : MapsTo toLowerCase entries (destinationOf entries bank) ↔
      entries.reverse.lookup bank.key ≠ none := by
  rw [MapsTo, destinationOf, normalize_name hLower hBank]
  cases entries.reverse.lookup bank.key with
  | none => simp
  | some code => simp

/-- Only known banks can share a code. -/
theorem known_of_shared {d other : Destination}
    (hd : d ∈ bankDestinations toLowerCase map)
    (hOther : other ∈ bankDestinations toLowerCase map) (hNe : d ≠ other)
    (hCode : d.code = other.code) :
    ∃ bank ∈ knownKenyanBanks, d = ⟨bank.name, codeOfKnown toLowerCase map bank, .kepss⟩ := by
  rcases mem_bankDestinations hd with hKnown | ⟨x, hx, rfl⟩
  · exact hKnown
  · rcases mem_bankDestinations hOther with ⟨bank, hBank, rfl⟩ | ⟨y, hy, rfl⟩
    · have hNew := (mem_displayNameByCode hx).1
      exact absurd (List.mem_map.mpr ⟨bank, hBank, hCode.symm⟩) hNew
    · have hNodup : ((displayNameByCode toLowerCase map).map Prod.fst).Nodup :=
        nodup_noteAliases map List.nodup_nil
      have hSame : x = y := List.inj_on_of_nodup_map hNodup hx hy hCode
      exact absurd (by rw [hSame]) hNe

theorem sharesNone_iff (hLower : LowerCases toLowerCase)
    (hMerged : Merged toLowerCase entries map) :
    SharesNone toLowerCase entries (bankDestinations toLowerCase map) ↔ KnownApart entries := by
  constructor
  · intro hShares
    have hPair : ∀ bank ∈ knownKenyanBanks, ∀ other ∈ knownKenyanBanks, bank.key ≠ other.key →
        (destinationOf entries bank).code = (destinationOf entries other).code →
          entries.reverse.lookup other.key ≠ none := by
      intro bank hBank other hOther hKey hCode
      have hNe : destinationOf entries bank ≠ destinationOf entries other := by
        intro hSame
        have hName : bank.name = other.name := congrArg Destination.name hSame
        apply hKey
        rw [← normalize_name hLower hBank, hName, normalize_name hLower hOther]
      have hMaps := hShares _ (destinationOf_mem hLower hMerged hBank) _
        (destinationOf_mem hLower hMerged hOther) hNe hCode
      exact (mapsTo_known hLower hOther).mp hMaps.2
    constructor
    · by_contra hNone
      push Not at hNone
      refine hPair _ mem_familyBank _ mem_bankOfAfrica (by simp) ?_ hNone.2
      simp [destinationOf, hNone.1, hNone.2]
    · intro bank hBank other hOther hLookup hNone
      refine hPair bank hBank other hOther ?_ ?_ hNone
      · intro hKey
        rw [hKey, hNone] at hLookup
        cases hLookup
      · simp [destinationOf, hLookup, hNone]
  · rintro ⟨hTwo, hOthers⟩ d hd other hOther hNe hCode
    obtain ⟨bank, hBank, hSame⟩ := known_of_shared hd hOther hNe hCode
    obtain ⟨bank', hBank', hSame'⟩ := known_of_shared hOther hd hNe.symm hCode.symm
    rw [codeOfKnown_eq hLower hMerged hBank] at hSame
    rw [codeOfKnown_eq hLower hMerged hBank'] at hSame'
    change d = destinationOf entries bank at hSame
    change other = destinationOf entries bank' at hSame'
    subst hSame hSame'
    rw [mapsTo_known hLower hBank, mapsTo_known hLower hBank']
    have hBanks : bank ≠ bank' := by
      rintro rfl
      exact hNe rfl
    rw [destinationOf, destinationOf] at hCode
    simp only at hCode
    cases hOne : entries.reverse.lookup bank.key with
    | none =>
      rw [hOne] at hCode
      cases hTwo' : entries.reverse.lookup bank'.key with
      | none =>
        rw [hTwo', Option.getD_none, Option.getD_none] at hCode
        rcases known_codes hBank hBank' hBanks hCode with ⟨hFamily, hAfrica⟩ | ⟨hAfrica, hFamily⟩
        · rw [← hFamily, ← hAfrica] at hTwo
          exact (hTwo.elim (absurd hOne) (absurd hTwo'))
        · rw [← hFamily, ← hAfrica] at hTwo
          exact (hTwo.elim (absurd hTwo') (absurd hOne))
      | some code' =>
        rw [hTwo', Option.getD_none, Option.getD_some] at hCode
        rw [← hCode] at hTwo'
        exact absurd hOne (hOthers bank' hBank' bank hBank hTwo')
    | some code =>
      cases hTwo' : entries.reverse.lookup bank'.key with
      | none =>
        rw [hOne, hTwo', Option.getD_none, Option.getD_some] at hCode
        rw [hCode] at hOne
        exact absurd hTwo' (hOthers bank hBank bank' hBank' hOne)
      | some code' => exact ⟨by simp, by simp⟩

/-- The listed codes resolve to themselves exactly when the codes are apart. -/
theorem listed_codes_iff (hLower : LowerCases toLowerCase)
    (hMerged : Merged toLowerCase entries map) :
    (∀ d ∈ bankDestinations toLowerCase map,
      codeIn toLowerCase map (toLowerCase d.code) = some d.code) ↔ CodesApart toLowerCase map := by
  rw [← codes_resolve_iff hMerged.clean]
  constructor
  · intro hListed code hCode
    obtain ⟨d, hd, rfl⟩ := exists_listed hCode
    exact hListed d hd
  · intro hCodes d hd
    exact hCodes d.code (code_mem hLower hMerged hd)

end Listed

section Agree
variable (toLowerCase : String → String) (number : List Char → Option Numeral)
  (localeLe : String → String → Bool) (environment : Environment)

/-- Every listed bank resolves by its name and by its code to that code, and two of them share a
code only when the environment maps both to it. -/
def Agrees : Prop :=
  ∀ type destinations entries,
    getAllKenyanBanks toLowerCase number localeLe environment type = .ok destinations →
    allEntries toLowerCase number environment = .ok entries →
      (∀ d ∈ destinations, d.type = .kepss →
        getBankCode toLowerCase number d.name environment = .ok (some d.code) ∧
          getBankCode toLowerCase number d.code environment = .ok (some d.code)) ∧
      SharesNone toLowerCase entries (destinations.filter fun d => d.type = .kepss)

/-- What an environment has to leave apart. -/
def LeavesApart : Prop :=
  ∀ entries, allEntries toLowerCase number environment = .ok entries →
    CodesApart toLowerCase (putAll (builtIn toLowerCase) entries) ∧ KnownApart entries

end Agree

section Agreement
variable {toLowerCase : String → String} {number : List Char → Option Numeral}
  {localeLe : String → String → Bool} {environment : Environment}
  {entries map : List (String × String)}

theorem bankDestinations_type {d : Destination} (h : d ∈ bankDestinations toLowerCase map) :
    d.type = .kepss := by
  rcases mem_bankDestinations h with ⟨bank, -, rfl⟩ | ⟨x, -, rfl⟩
  · rfl
  · rfl

/-- Sorted or not, the banks of a list are those of the map, or none. -/
theorem mem_getAllKenyanBanks {type : Option String} {destinations : List Destination}
    (hMap : getKenyanBankMap toLowerCase number environment = .ok map)
    (hAll : getAllKenyanBanks toLowerCase number localeLe environment type = .ok destinations)
    {d : Destination} (hMem : d ∈ destinations) (hType : d.type = .kepss) :
    d ∈ bankDestinations toLowerCase map := by
  rw [getAllKenyanBanks, hMap] at hAll
  cases hAll
  rw [List.mem_mergeSort] at hMem
  rcases List.mem_append.mp hMem with hBank | hMobile
  · split at hBank
    · cases hBank
    · exact hBank
  · split at hMobile
    · rw [List.mem_singleton.mp hMobile] at hType
      cases hType
    · cases hMobile

theorem getAllKenyanBanks_all (localeLe : String → String → Bool)
    (hMap : getKenyanBankMap toLowerCase number environment = .ok map) :
    ∃ destinations, getAllKenyanBanks toLowerCase number localeLe environment none =
      .ok destinations ∧ ∀ d ∈ bankDestinations toLowerCase map, d ∈ destinations := by
  rw [getAllKenyanBanks, hMap]
  refine ⟨_, rfl, ?_⟩
  intro d hd
  rw [List.mem_mergeSort]
  exact List.mem_append_left _ hd

theorem getBankCode_of_map {input : String}
    (hMap : getKenyanBankMap toLowerCase number environment = .ok map)
    (hKey : normalize toLowerCase input ≠ "") :
    getBankCode toLowerCase number input environment =
      .ok (codeIn toLowerCase map (normalize toLowerCase input)) := by
  rw [getBankCode]
  simp only [if_neg hKey]
  rw [hMap]
  rfl

theorem getBankCode_of_listed (hLower : LowerCases toLowerCase)
    (hMerged : Merged toLowerCase entries map)
    (hMap : getKenyanBankMap toLowerCase number environment = .ok map) {d : Destination}
    (hd : d ∈ bankDestinations toLowerCase map) :
    getBankCode toLowerCase number d.name environment = .ok (some d.code) ∧
      getBankCode toLowerCase number d.code environment =
        .ok (codeIn toLowerCase map (toLowerCase d.code)) := by
  have hLookup := name_resolves hLower hMerged hd
  have hClean := hMerged.clean _ (mem_of_lookup hLookup)
  have hCode : normalize toLowerCase d.code = toLowerCase d.code :=
    hLower.trimmed d.code hClean.code_trim
  have hSome : toLowerCase d.code ≠ "" := fun hEmpty => hClean.code_ne (hLower.ne_empty _ hEmpty)
  constructor
  · rw [getBankCode_of_map hMap hClean.name_ne, codeIn_of_lookup hLookup hClean.code_ne]
  · rw [getBankCode_of_map hMap (by rwa [hCode]), hCode]

/-- The list and the codes agree exactly when the environment leaves names and codes apart. -/
theorem banks_agree_iff (toLowerCase : String → String) (number : List Char → Option Numeral)
    (localeLe : String → String → Bool) (environment : Environment)
    (hLower : LowerCases toLowerCase) (hNames : AsciiNames number environment) :
    Agrees toLowerCase number localeLe environment ↔
      LeavesApart toLowerCase number environment := by
  constructor
  · intro hAgrees entries hEntries
    have hMerged := merged_of_ok hLower hNames hEntries
    have hMap := getKenyanBankMap_eq_ok.mpr ⟨entries, hEntries, rfl⟩
    obtain ⟨destinations, hAll, hListed⟩ := getAllKenyanBanks_all localeLe hMap
    obtain ⟨hResolve, hShares⟩ := hAgrees none destinations entries hAll hEntries
    constructor
    · rw [← listed_codes_iff hLower hMerged]
      intro d hd
      have hCode := (hResolve d (hListed d hd) (bankDestinations_type hd)).2
      rw [(getBankCode_of_listed hLower hMerged hMap hd).2] at hCode
      exact Except.ok.inj hCode
    · rw [← sharesNone_iff hLower hMerged]
      intro d hd other hOther
      exact hShares d (List.mem_filter.mpr ⟨hListed d hd, by simp [bankDestinations_type hd]⟩) other
        (List.mem_filter.mpr ⟨hListed other hOther, by simp [bankDestinations_type hOther]⟩)
  · intro hApart type destinations entries hAll hEntries
    have hMerged := merged_of_ok hLower hNames hEntries
    have hMap := getKenyanBankMap_eq_ok.mpr ⟨entries, hEntries, rfl⟩
    obtain ⟨hCodes, hKnown⟩ := hApart entries hEntries
    constructor
    · intro d hd hType
      have hBank := mem_getAllKenyanBanks hMap hAll hd hType
      obtain ⟨hName, hCode⟩ := getBankCode_of_listed hLower hMerged hMap hBank
      refine ⟨hName, ?_⟩
      rw [hCode, (listed_codes_iff hLower hMerged).mpr hCodes d hBank]
    · have hShares := (sharesNone_iff hLower hMerged).mpr hKnown
      intro d hd other hOther
      obtain ⟨hMem, hType⟩ := List.mem_filter.mp hd
      obtain ⟨hMem', hType'⟩ := List.mem_filter.mp hOther
      exact hShares d (mem_getAllKenyanBanks hMap hAll hMem (by simpa using hType)) other
        (mem_getAllKenyanBanks hMap hAll hMem' (by simpa using hType'))

end Agreement

/-! ## Two environments -/

/-- `toLowerCase` of ASCII. -/
def asciiLower (s : String) : String := String.ofList (s.toList.map Char.toLower)

theorem isSpace_toLower (c : Char) : isSpace c.toLower = isSpace c := by
  by_cases hUpper : 'A'.val ≤ c.val ∧ c.val ≤ 'Z'.val
  · have hAscii : c.toNat < 128 := by
      have hHigh : c.toNat ≤ 90 := hUpper.2
      omega
    have hTable : ∀ n < 128, 65 ≤ n → n ≤ 90 →
        isSpace (Char.ofNat n).toLower = isSpace (Char.ofNat n) := by decide +kernel
    have hCase := hTable c.toNat hAscii hUpper.1 hUpper.2
    rw [Char.ofNat_toNat] at hCase
    exact hCase
  · have hSame : c.toLower = c := dif_neg hUpper
    rw [hSame]

theorem dropWhile_toLower (text : List Char) :
    (text.map Char.toLower).dropWhile isSpace = (text.dropWhile isSpace).map Char.toLower := by
  rw [List.dropWhile_map]
  congr 2
  funext c
  exact isSpace_toLower c

theorem lowerCases_asciiLower : LowerCases asciiLower where
  ascii _ _ := rfl
  trimmed s hTrim := by
    have hList : trim (asciiLower s) = asciiLower (trim s) := by
      rw [trim, asciiLower, String.toList_ofList, dropWhile_toLower, ← List.map_reverse,
        dropWhile_toLower, ← List.map_reverse, asciiLower, trim, String.toList_ofList]
    rw [hList, hTrim]
  ne_empty s hEmpty := by
    have hNil := congrArg String.toList hEmpty
    rw [asciiLower, String.toList_ofList] at hNil
    have hText : s.toList = [] := List.map_eq_nil_iff.mp hNil
    rw [← String.ofList_toList (s := s), hText]

/-- The environment names a code of its own for Family Bank. -/
def familyEnvironment : Environment := fun key =>
  if key = "KE_BANKS" then some (.obj (.cons "Family Bank" (.str "70") .nil)) else none

theorem allEntries_family : allEntries asciiLower (fun _ => none) familyEnvironment =
    .ok [("family bank", "70")] := by
  rfl

theorem asciiNames_family : AsciiNames (fun _ => none) familyEnvironment := by
  intro key hKey rawValue entries hRaw hEntries entry hEntry
  rw [familyEnvironment] at hRaw
  split at hRaw
  · cases hRaw
    cases hEntries
    rw [List.mem_singleton.mp hEntry]
    simp [Ascii]
  · cases hRaw

/-- A code of digits, and a name that does not begin with one. -/
def PlainEntry (entry : String × String) : Prop :=
  ∃ name code, entry = (String.ofList name, String.ofList code) ∧
    (name.head?.any fun c => !c.isDigit) ∧ code.all Char.isDigit

theorem plain_known : ∀ bank ∈ knownKenyanBanks, PlainEntry (bank.key, bank.code) := by
  simp only [knownKenyanBanks, List.forall_mem_cons, List.not_mem_nil, false_imp_iff,
    implies_true, and_true]
  and_intros
  all_goals exact ⟨_, _, rfl, by decide⟩

theorem toLower_digit {c : Char} (hDigit : c.isDigit) : c.toLower = c := by
  have hHigh : c.toNat ≤ 57 := by
    simp only [Char.isDigit, Bool.and_eq_true, decide_eq_true_eq] at hDigit
    exact hDigit.2
  have hSmall : ¬(c.val ≥ 'A'.val ∧ c.val ≤ 'Z'.val) := by
    rintro ⟨hLow, -⟩
    have hUpper : 65 ≤ c.toNat := hLow
    omega
  exact dif_neg hSmall

/-- With plain entries nothing hides a code. -/
theorem codesApart_of_plain {map : List (String × String)}
    (hPlain : ∀ entry ∈ map, PlainEntry entry) : CodesApart asciiLower map := by
  have hLower : ∀ code ∈ map.map Prod.snd, asciiLower code = code := by
    intro code hCode
    obtain ⟨entry, hEntry, rfl⟩ := List.mem_map.mp hCode
    obtain ⟨name, digits, rfl, -, hDigits⟩ := hPlain entry hEntry
    rw [asciiLower, String.toList_ofList]
    congr 1
    rw [List.all_eq_true] at hDigits
    exact (List.map_congr_left fun c hc => toLower_digit (hDigits c hc)).trans (List.map_id _)
  intro code hCode
  constructor
  · intro other hOther hSame
    rw [← hLower other hOther, hSame, hLower code hCode]
  · intro other hLookup
    rw [hLower code hCode] at hLookup
    obtain ⟨entry, hEntry, rfl⟩ := List.mem_map.mp hCode
    obtain ⟨name, digits, rfl, -, hDigits⟩ := hPlain entry hEntry
    obtain ⟨name', digits', hSame, hFirst, -⟩ := hPlain _ (mem_of_lookup hLookup)
    -- A name that is also a code would begin with a digit.
    have hName : digits = name' := String.ofList_inj.mp (congrArg Prod.fst hSame)
    subst hName
    cases digits with
    | nil => cases hFirst
    | cons c rest =>
      rw [List.all_eq_true] at hDigits
      rw [List.head?_cons, Option.any_some, hDigits c List.mem_cons_self] at hFirst
      cases hFirst

theorem leavesApart_family : LeavesApart asciiLower (fun _ => none) familyEnvironment := by
  intro entries hEntries
  rw [allEntries_family] at hEntries
  cases hEntries
  constructor
  · apply codesApart_of_plain
    intro entry hEntry
    rcases mem_putAll hEntry with hOwn | hKnown
    · rw [List.mem_singleton.mp hOwn]
      exact ⟨_, _, rfl, by decide⟩
    · rw [builtIn_eq lowerCases_asciiLower] at hKnown
      obtain ⟨bank, hBank, rfl⟩ := List.mem_map.mp hKnown
      exact plain_known bank hBank
  · constructor
    · simp
    · intro bank hBank other hOther hLookup
      rw [List.reverse_singleton, lookup_cons_eq] at hLookup
      split at hLookup
      · have hCode : ∀ known ∈ knownKenyanBanks, known.code ≠ "70" := by simp [knownKenyanBanks]
        exact absurd (Option.some.inj hLookup).symm (hCode other hOther)
      · cases hLookup

/-- With it the list and the codes agree. -/
theorem family_environment_agrees :
    Agrees asciiLower (fun _ => none) (fun _ _ => true) familyEnvironment :=
  (banks_agree_iff asciiLower (fun _ => none) (fun _ _ => true) familyEnvironment
    lowerCases_asciiLower asciiNames_family).mpr leavesApart_family

/-- Without an environment Family Bank and Bank of Africa Kenya share a code. -/
theorem two_banks_share_19 :
    ∃ (toLowerCase : String → String) (number : List Char → Option Numeral)
      (localeLe : String → String → Bool) (environment : Environment),
      LowerCases toLowerCase ∧ AsciiNames number environment ∧
        (∀ key, environment key = none) ∧
        ¬ Agrees toLowerCase number localeLe environment := by
  have hNames : AsciiNames (fun _ => none) fun _ => none := by
    intro key hKey rawValue entries hRaw
    cases hRaw
  have hEntries : allEntries asciiLower (fun _ => none) (fun _ => none) = .ok [] := rfl
  refine ⟨asciiLower, fun _ => none, fun _ _ => true, fun _ => none, lowerCases_asciiLower, hNames,
    fun _ => rfl, ?_⟩
  intro hAgrees
  have hMerged := merged_of_ok lowerCases_asciiLower hNames hEntries
  have hMap := getKenyanBankMap_eq_ok.mpr ⟨[], hEntries, rfl⟩
  obtain ⟨destinations, hAll, hListed⟩ :=
    getAllKenyanBanks_all (fun _ _ => true) hMap
  obtain ⟨-, hShares⟩ := hAgrees none destinations [] hAll hEntries
  have hListedKnown : ∀ bank ∈ knownKenyanBanks, destinationOf [] bank ∈
      destinations.filter fun d => d.type = .kepss := by
    intro bank hBank
    exact List.mem_filter.mpr
      ⟨hListed _ (destinationOf_mem lowerCases_asciiLower hMerged hBank), rfl⟩
  have hMaps := hShares _ (hListedKnown _ mem_familyBank) _ (hListedKnown _ mem_bankOfAfrica)
    (by simp [destinationOf]) rfl
  exact (mapsTo_known lowerCases_asciiLower mem_familyBank).mp hMaps.1 rfl

end FarmBackend.KenyanBanks
