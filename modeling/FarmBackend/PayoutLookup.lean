import FarmBackend.Paging

/-!
# `NowpaymentsService.findPayoutByExternalId`

A page that NOWPayments answers is JSON of one of three shapes. Of a record the fields that the
search reads are fields here, and `remaining` is what it hands on.
-/

namespace FarmBackend.PayoutLookup
open Paging

set_option autoImplicit false

/-- A field of a JSON object; `text` is what `String` makes of any other value. -/
inductive Value where
  | undefined
  | null
  | text (s : String)
  deriving DecidableEq

/-- `a ?? b`. -/
def Value.orElse : Value → Value → Value
  | .text s, _ => .text s
  | _, b => b

/-- `String(a)`. -/
def Value.string : Value → String
  | .undefined => "undefined"
  | .null => "null"
  | .text s => s

/-- A field that should be an array. -/
inductive Listing (α : Type) where
  | nullish
  | array (items : List α)
  | other

structure Record where
  uniqueExternalId : Value
  batchWithdrawalId : Value
  id : Value
  status : Value
  remaining : String
  deriving DecidableEq

/-- A payout is a batch of withdrawals, or itself the one withdrawal. -/
structure Payout extends Record where
  withdrawals : Listing (Option Record)

/-- What one page request answers; an item may be `null`. -/
inductive Response where
  | bare (items : List (Option Payout))
  | object (payouts data : Listing (Option Payout))

/-- `Array.isArray(response) ? response : (response?.payouts ?? response?.data ?? [])`, if that is
an array. -/
def Response.items : Response → Option (List (Option Payout))
  | .bare items => some items
  | .object (.array items) _ => some items
  | .object .other _ => none
  | .object .nullish (.array items) => some items
  | .object .nullish .other => none
  | .object .nullish .nullish => some []

/-- `Array.isArray(item?.withdrawals) ? item.withdrawals : [item]`. -/
def withdrawalsOf : Option Payout → List (Option Record)
  | none => [none]
  | some item =>
    match item.withdrawals with
    | .array withdrawals => withdrawals
    | _ => [some item.toRecord]

/-- `w?.field`. -/
def fieldOf (field : Record → Value) : Option Record → Value
  | none => .undefined
  | some w => field w

/-- `String(w?.unique_external_id ?? '')`. -/
def externalIdOf (w : Option Record) : String :=
  ((fieldOf Record.uniqueExternalId w).orElse (.text "")).string

/-- The withdrawal of the item that has the id; a `null` that is found is none. -/
def matchOf (externalId : String) (item : Option Payout) : Option Record :=
  ((withdrawalsOf item).find? fun w => externalIdOf w == externalId).join

/-- `{ ...match, id, status }`. -/
def recordOf (item : Option Payout) (w : Record) : Record :=
  let item := item.map Payout.toRecord
  { w with
    id := .text ((fieldOf Record.batchWithdrawalId item).orElse
      (w.batchWithdrawalId.orElse ((fieldOf Record.id item).orElse w.id))).string
    status := w.status.orElse (fieldOf Record.status item) }

/-- What the inner loop returns for one item. -/
def foundIn (externalId : String) (item : Option Payout) : Option Record :=
  (matchOf externalId item).map (recordOf item)

/-- The limit that each page request names. -/
def pageLimit : ℕ := 100

section Search
variable {Failure : Type}

/-- The loop over the pages; `payoutRequest page` is what the request answers or throws. -/
def searchPages (payoutRequest : ℕ → Except Failure Response) (externalId : String) :
    ℕ → ℕ → Except Failure (Option Record)
  | 0, _ => .ok none
  | left + 1, page => do
    let response ← payoutRequest page
    match response.items with
    | none => .ok none
    | some items =>
      if items = [] then
        .ok none
      else
        match items.findSome? (foundIn externalId) with
        | some record => .ok (some record)
        | none =>
          if items.length < pageLimit then .ok none
          else searchPages payoutRequest externalId left (page + 1)

def findPayoutByExternalId (payoutRequest : ℕ → Except Failure Response) (externalId : String)
    (maxPages : ℕ := 5) : Except Failure (Option Record) :=
  searchPages payoutRequest externalId maxPages 0

end Search

/-! ## NOWPayments -/

/-- The shapes that the service reads. -/
inductive Shape where
  | bare
  | payouts
  | data

def Shape.wrap (items : List (Option Payout)) : Shape → Response
  | .bare => .bare items
  | .payouts => .object (.array items) .nullish
  | .data => .object .nullish (.array items)

/-- The answers of NOWPayments while it holds `lists page` at the request of each page. -/
def answers (shapes : ℕ → Shape) (lists : ℕ → List Payout) (p : ℕ) : Except Empty Response :=
  .ok ((shapes p).wrap ((page pageLimit p (lists p)).map some))

/-- The reference is the `unique_external_id` of the payout, or of a withdrawal in its batch. -/
def Payout.Carries (payout : Payout) (reference : String) : Prop :=
  ∃ w, some w ∈ withdrawalsOf (some payout) ∧ w.uniqueExternalId = .text reference

/-- The record that the service makes of a payout with the reference. -/
def RecordFor (payout : Payout) (reference : String) (record : Record) : Prop :=
  ∃ w, some w ∈ withdrawalsOf (some payout) ∧ w.uniqueExternalId = .text reference ∧
    record = recordOf (some payout) w

theorem items_wrap (items : List (Option Payout)) (shape : Shape) :
    (shape.wrap items).items = some items := by
  cases shape
  · rfl
  · rfl
  · rfl

/-- A reference is no empty text, so what is compared with it is an id. -/
theorem externalIdOf_eq_iff {reference : String} (hReference : reference ≠ "")
    (w : Option Record) : externalIdOf w = reference ↔
      ∃ r, w = some r ∧ r.uniqueExternalId = .text reference := by
  cases w with
  | none =>
    constructor
    · intro hEmpty
      exact absurd hEmpty.symm hReference
    · rintro ⟨r, hNone, -⟩
      cases hNone
  | some r =>
    rw [externalIdOf, fieldOf]
    cases hId : r.uniqueExternalId with
    | undefined => simp [Value.orElse, Value.string, Ne.symm hReference, hId]
    | null => simp [Value.orElse, Value.string, Ne.symm hReference, hId]
    | text s => simp [Value.orElse, Value.string, hId]

/-- The inner loop takes an item exactly when it carries the reference. -/
theorem foundIn_eq_some {reference : String} {payout : Payout} {record : Record}
    (hReference : reference ≠ "") (hFound : foundIn reference (some payout) = some record) :
    RecordFor payout reference record := by
  rw [foundIn, Option.map_eq_some_iff] at hFound
  obtain ⟨w, hMatch, rfl⟩ := hFound
  rw [matchOf, Option.join_eq_some_iff] at hMatch
  have hMem := List.mem_of_find?_eq_some hMatch
  have hId := List.find?_some hMatch
  rw [beq_iff_eq, externalIdOf_eq_iff hReference] at hId
  obtain ⟨r, hSame, hId⟩ := hId
  cases hSame
  exact ⟨w, hMem, hId, rfl⟩

theorem foundIn_of_carries {reference : String} {payout : Payout} (hReference : reference ≠ "")
    (hCarries : payout.Carries reference) : foundIn reference (some payout) ≠ none := by
  obtain ⟨w, hMem, hId⟩ := hCarries
  rw [foundIn, ne_eq, Option.map_eq_none_iff, matchOf]
  cases hFind : (withdrawalsOf (some payout)).find? fun w => externalIdOf w == reference with
  | none =>
    have hNone := List.find?_eq_none.mp hFind _ hMem
    rw [beq_iff_eq, externalIdOf_eq_iff hReference] at hNone
    exact absurd ⟨w, rfl, hId⟩ hNone
  | some found =>
    have hFound := List.find?_some hFind
    rw [beq_iff_eq, externalIdOf_eq_iff hReference] at hFound
    obtain ⟨r, rfl, -⟩ := hFound
    simp

/-- The record that one page of held payouts gives. -/
theorem findSome_page {reference : String} {record : Record} {items : List Payout}
    (hReference : reference ≠ "")
    (hFound : (items.map some).findSome? (foundIn reference) = some record) :
    ∃ payout ∈ items, RecordFor payout reference record := by
  obtain ⟨item, hMem, hFound⟩ := List.exists_of_findSome?_eq_some hFound
  obtain ⟨payout, hPayout, rfl⟩ := List.mem_map.mp hMem
  exact ⟨payout, hPayout, foundIn_eq_some hReference hFound⟩

theorem findSome_page_eq_none {reference : String} {items : List Payout}
    (hReference : reference ≠ "")
    (hNone : (items.map some).findSome? (foundIn reference) = none) :
    ∀ payout ∈ items, ¬ payout.Carries reference := by
  intro payout hMem hCarries
  rw [List.findSome?_eq_none_iff] at hNone
  exact foundIn_of_carries hReference hCarries
    (hNone (some payout) (List.mem_map.mpr ⟨payout, hMem, rfl⟩))

/-! ## What the search finds -/

section Runs
variable {shapes : ℕ → Shape} {lists : ℕ → List Payout} {reference : String}

/-- One turn of the loop, on what NOWPayments holds at its request. -/
theorem searchPages_succ (left p : ℕ) :
    searchPages (answers shapes lists) reference (left + 1) p =
      match ((page pageLimit p (lists p)).map some).findSome? (foundIn reference) with
      | some record => .ok (some record)
      | none =>
        if (page pageLimit p (lists p)).length < pageLimit then .ok none
        else searchPages (answers shapes lists) reference left (p + 1) := by
  have hItems := items_wrap ((page pageLimit p (lists p)).map some) (shapes p)
  rw [searchPages, answers]
  simp only [bind, Except.bind, hItems]
  by_cases hNone : (page pageLimit p (lists p)).map some = []
  · rw [if_pos hNone, hNone]
    have hEmpty : page pageLimit p (lists p) = [] := List.map_eq_nil_iff.mp hNone
    rw [hEmpty]
    rfl
  · rw [if_neg hNone, List.length_map]

/-- No request of it fails, so it answers, and what it answers is a payout that is held. -/
theorem searchPages_sound (hReference : reference ≠ "") (left p : ℕ) :
    searchPages (answers shapes lists) reference left p = .ok none ∨
      ∃ q payout record, payout ∈ lists q ∧ RecordFor payout reference record ∧
        searchPages (answers shapes lists) reference left p = .ok (some record) := by
  induction left generalizing p with
  | zero => exact .inl rfl
  | succ left ih =>
    rw [searchPages_succ]
    cases hFound : ((page pageLimit p (lists p)).map some).findSome? (foundIn reference) with
    | some record =>
      obtain ⟨payout, hMem, hRecord⟩ := findSome_page hReference hFound
      obtain ⟨j, hHeld, -⟩ := mem_page_iff.mp hMem
      exact .inr ⟨p, payout, record, List.mem_of_getElem? hHeld, hRecord, rfl⟩
    | none =>
      simp only
      split
      · exact .inl rfl
      · exact ih (p + 1)

/-- It answers a payout exactly when one stands on a page that it reaches. -/
theorem searchPages_ne_none (hReference : reference ≠ "") (left p : ℕ) :
    searchPages (answers shapes lists) reference left p ≠ .ok none ↔
      ∃ q, p ≤ q ∧ q < p + left ∧
        (∀ r, p ≤ r → r < q → pageLimit ≤ (page pageLimit r (lists r)).length) ∧
        ∃ payout ∈ page pageLimit q (lists q), payout.Carries reference := by
  induction left generalizing p with
  | zero =>
    constructor
    · intro hNone
      exact absurd rfl hNone
    · rintro ⟨q, hFrom, hTo, -⟩
      omega
  | succ left ih =>
    rw [searchPages_succ]
    cases hFound : ((page pageLimit p (lists p)).map some).findSome? (foundIn reference) with
    | some record =>
      obtain ⟨payout, hMem, w, hw, hId, -⟩ := findSome_page hReference hFound
      constructor
      · intro _
        exact ⟨p, Nat.le_refl p, by omega, by omega, payout, hMem, w, hw, hId⟩
      · intro _ hNone
        cases hNone
    | none =>
      have hHere := findSome_page_eq_none hReference hFound
      simp only
      split
      · rename_i hShort
        constructor
        · intro hNone
          exact absurd rfl hNone
        · rintro ⟨q, hFrom, -, hFull, payout, hMem, hCarries⟩
          rcases Nat.eq_or_lt_of_le hFrom with rfl | hLater
          · exact absurd hCarries (hHere payout hMem)
          · have := hFull p (Nat.le_refl p) hLater
            omega
      · rename_i hFullHere
        rw [ih (p + 1)]
        constructor
        · rintro ⟨q, hFrom, hTo, hFull, hStands⟩
          refine ⟨q, by omega, by omega, ?_, hStands⟩
          intro r hr hrq
          rcases Nat.eq_or_lt_of_le hr with rfl | hLater
          · omega
          · exact hFull r hLater hrq
        · rintro ⟨q, hFrom, hTo, hFull, payout, hMem, hCarries⟩
          rcases Nat.eq_or_lt_of_le hFrom with rfl | hLater
          · exact absurd hCarries (hHere payout hMem)
          · exact ⟨q, hLater, by omega, fun r hr hrq => hFull r (by omega) hrq, payout, hMem,
              hCarries⟩

/-- The search answers with a payout that carries the reference. -/
def Finds (shapes : ℕ → Shape) (lists : ℕ → List Payout) (reference : String) : Prop :=
  ∃ p payout record, payout ∈ lists p ∧ RecordFor payout reference record ∧
    findPayoutByExternalId (answers shapes lists) reference = .ok (some record)

theorem finds_iff (hReference : reference ≠ "") :
    Finds shapes lists reference ↔
      ∃ p < 5, Reached pageLimit lists p ∧
        ∃ payout ∈ page pageLimit p (lists p), payout.Carries reference := by
  have hAnswers := @searchPages_ne_none shapes lists reference hReference 5 0
  constructor
  · rintro ⟨-, -, record, -, -, hFound⟩
    rw [findPayoutByExternalId] at hFound
    obtain ⟨p, -, hBound, hFull, hStands⟩ := hAnswers.mp (by simp [hFound])
    exact ⟨p, by omega, fun q hq => hFull q (Nat.zero_le q) hq, hStands⟩
  · rintro ⟨p, hBound, hReached, hStands⟩
    have hSome := hAnswers.mpr ⟨p, Nat.zero_le p, by omega, fun q _ hq => hReached q hq, hStands⟩
    rcases @searchPages_sound shapes lists reference hReference 5 0 with
      hNone | ⟨q, payout, record, hHeld, hRecord, hFound⟩
    · exact absurd hNone hSome
    · exact ⟨q, payout, record, hHeld, hRecord, hFound⟩

end Runs

/-- The place of a payout with the reference, and those that came before one of the five requests,
leave it inside the pages read by then. -/
def Near (start : List Payout) (created : ℕ → List Payout) (reference : String) : Prop :=
  ∃ i payout, start[i]? = some payout ∧ payout.Carries reference ∧
    ∃ p < 5, grown created p + i < pageLimit * (p + 1)

/-- A payout with the reference came during the search, onto a page that was read after it. -/
def CameIntoView (start : List Payout) (created : ℕ → List Payout) (reference : String) : Prop :=
  ∃ p < 5, Reached pageLimit (held start created) p ∧ ∃ j payout, j < grown created p ∧
    (held start created p)[j]? = some payout ∧ payout.Carries reference ∧
    pageLimit * p ≤ j ∧ j < pageLimit * (p + 1)

/-- A payout that was there at the start is found exactly when it stands near enough to the front,
however many are held; a `null` does not tell that there is none. -/
theorem finds_iff_near (start : List Payout) (created : ℕ → List Payout) (shapes : ℕ → Shape)
    (reference : String) (hReference : reference ≠ "") :
    Finds shapes (held start created) reference ↔
      Near start created reference ∨ CameIntoView start created reference := by
  rw [finds_iff hReference]
  constructor
  · rintro ⟨p, hBound, hReached, payout, hMem, hCarries⟩
    rcases index_of_mem_page hMem with ⟨i, hStart, hNear⟩ | ⟨j, hNew, hj, hFrom, hTo⟩
    · exact .inl ⟨i, payout, hStart, hCarries, p, hBound, hNear⟩
    · exact .inr ⟨p, hBound, hReached, j, payout, hNew, hj, hCarries, hFrom, hTo⟩
  · rintro (⟨i, payout, hStart, hCarries, p, hBound, hNear⟩ |
      ⟨p, hBound, hReached, j, payout, -, hj, hCarries, hFrom, hTo⟩)
    · obtain ⟨q, hq, hReached, hMem⟩ := exists_reached (by decide) hStart hNear
      exact ⟨q, by omega, hReached, payout, hMem, hCarries⟩
    · exact ⟨p, hBound, hReached, payout, mem_page_iff.mpr ⟨j, hj, hFrom, hTo⟩, hCarries⟩

/-- A payout of one withdrawal. -/
def single (reference : String) : Payout where
  uniqueExternalId := .text reference
  batchWithdrawalId := .undefined
  id := .text "9"
  status := .text "SENDING"
  remaining := ""
  withdrawals := .nullish

theorem carries_single (reference : String) : (single reference).Carries reference :=
  ⟨(single reference).toRecord, List.mem_singleton.mpr rfl, rfl⟩

/-- The newest payout is found. -/
theorem newest_payout_found :
    Finds (fun _ => .payouts) (held [single "WD-1"] fun _ => []) "WD-1" := by
  apply (finds_iff_near _ _ _ "WD-1" (by decide)).mpr
  exact .inl ⟨0, single "WD-1", rfl, carries_single "WD-1", 0, by decide, by decide⟩

/-- Five hundred newer payouts hide the one that was sent. -/
theorem five_hundred_hide :
    ∃ (start : List Payout) (created : ℕ → List Payout) (shapes : ℕ → Shape) (reference : String),
      reference ≠ "" ∧ (∃ payout ∈ start, payout.Carries reference) ∧
        findPayoutByExternalId (answers shapes (held start created)) reference = .ok none ∧
        ¬ Finds shapes (held start created) reference := by
  have hNone : findPayoutByExternalId
      (answers (fun _ => .payouts)
        (held (List.replicate 500 (single "WD-2") ++ [single "WD-1"]) fun _ => [])) "WD-1" =
      .ok none := by
    rfl
  refine ⟨List.replicate 500 (single "WD-2") ++ [single "WD-1"], fun _ => [], fun _ => .payouts,
    "WD-1", by decide, ⟨single "WD-1", ?_, carries_single "WD-1"⟩, hNone, ?_⟩
  · exact List.mem_append_right _ (List.mem_singleton.mpr rfl)
  · rintro ⟨p, payout, record, -, -, hFound⟩
    rw [hNone] at hFound
    cases hFound

end FarmBackend.PayoutLookup
