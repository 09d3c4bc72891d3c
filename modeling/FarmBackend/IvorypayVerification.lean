import FarmBackend.IvorypayPayloads
import FarmBackend.QrPayments

/-!
# What IvoryPay answers (`ivorypay/ivorypay.service.ts`)

`verifyTransaction` looks its candidates up one after the other, each at two addresses, until one is
known or an answer is anything but "not found". The handler asks the answer for its status and its
amount.
-/

namespace FarmBackend.IvorypayVerification
open WithdrawCalls (trim)
open IvorypayPayloads
open QrPayments (lower)

set_option autoImplicit false

/-- The two addresses of `verifyUrls`. -/
inductive Endpoint where
  | business
  | transactions
  deriving DecidableEq

/-- `answered` carries what stands for the transaction in a body with a status; any other answer or
error that is not a 404 is `failed`. -/
inductive Response where
  | notFound
  | failed
  | answered (data : Json)

def Response.isFound : Response → Bool
  | .notFound => false
  | _ => true

/-- The addresses at the provider; `parseUrl` is the URL parser, with the `reference` or `id` of the
query and the segments of the path that are not empty. There is no key when `get` is none. -/
structure Api where
  parseUrl : String → Option (Option String × List String)
  get : Option (String → Endpoint → Response)

/-- A record, with the candidate it was found by. -/
structure Verified where
  candidate : String
  data : Json
  reference : String

def pathSegments (text : String) : List String :=
  ((text.toList.splitOn '/').filter fun segment => !segment.isEmpty).map String.ofList

variable (api : Api)

def extractLookupIdentifier (value : String) : Option String :=
  let trimmed := trim value
  if trimmed = "" then none
  else
    let fallback := ((pathSegments trimmed).getLast?).getD trimmed
    extractUuidFromString trimmed <|>
      match api.parseUrl trimmed with
      | none => some fallback
      | some (query, segments) => query <|> segments.getLast? <|> some fallback

/-- The lookups of one candidate, in their order. -/
def lookups (get : String → Endpoint → Response) (candidate : String) : List (String × Response) :=
  match extractLookupIdentifier api candidate with
  | none => []
  | some id => [(candidate, get id .business), (candidate, get id .transactions)]

def verifyCandidates (reference : String) (providerReference : Option String)
    (fallbackReferences : List String) : List String :=
  distinct (some reference :: providerReference :: fallbackReferences.map some)

def verifyTransaction (reference : String) (providerReference : Option String)
    (fallbackReferences : List String) : Option Verified :=
  match api.get with
  | none => none
  | some get =>
    match ((verifyCandidates reference providerReference fallbackReferences).flatMap
        (lookups api get)).find? fun lookup => lookup.2.isFound with
    | some (candidate, .answered data) =>
      some ⟨candidate, data, ((data.get "reference").text).getD reference⟩
    | _ => none

/-- `success` or `completed`. -/
def succeeded (v : Verified) : Bool :=
  ["success", "completed"].contains (lower (v.data.get "status").text)

def verifyIvorypayWebhookTransaction (reference : String) (providerReference : Option String)
    (candidateRefs : List String) : Option Verified :=
  (verifyTransaction api reference providerReference candidateRefs).filter succeeded

/-! Amounts. A missing one and one that is no finite number are `none`. -/

/-- What a transaction says that was to be paid. -/
structure Expected where
  usd : Option ℚ
  farm : Option ℚ

def verifiedUsd (data : Json) : Option ℚ :=
  (Json.firstOf [data.get "amount_usd", (data.get "data").get "amount_usd", data.get "amount",
    (data.get "data").get "amount"]).number

def verifiedFarm (data : Json) : Option ℚ :=
  (Json.firstOf [data.get "amount_farm", (data.get "data").get "amount_farm", data.get "amount",
    (data.get "data").get "amount"]).number

/-- Both amounts, when they are positive. -/
def positives (expected verified : Option ℚ) : Option (ℚ × ℚ) :=
  match expected, verified with
  | some x, some y => if 0 < x ∧ 0 < y then some (x, y) else none
  | _, _ => none

def isIvorypayVerifiedAmountAcceptable (expected : Expected) (data : Json) : Bool :=
  match positives expected.usd (verifiedUsd data) with
  | some (x, y) => decide (|x - y| ≤ 1 / 2)
  | none =>
    match positives expected.farm (verifiedFarm data) with
    | some (x, y) => decide (|x - y| ≤ 1 / 100)
    | none => true

/-- The two amounts are given and no further apart than the tolerance. -/
def Within (tolerance : ℚ) (expected verified : Option ℚ) : Prop :=
  ∃ x y, expected = some x ∧ verified = some y ∧ |x - y| ≤ tolerance

/-- The amount is right: in USD when the transaction says how much was to be paid in USD, else in
FARM. -/
def AmountMatches (expected : Expected) (data : Json) : Prop :=
  if expected.usd.isSome then Within (1 / 2) expected.usd (verifiedUsd data)
  else Within (1 / 100) expected.farm (verifiedFarm data)

/-- The comparison that the handler makes is the right one, or it refuses, or the amounts agree
although one of them is not positive. -/
def Conclusive (expected : Expected) (data : Json) : Prop :=
  match expected.usd, positives expected.usd (verifiedUsd data) with
  | some _, some _ => True
  | some x, none =>
    (∃ y, verifiedUsd data = some y ∧ |x - y| ≤ 1 / 2) ∨
      ∃ x y, positives expected.farm (verifiedFarm data) = some (x, y) ∧ 1 / 100 < |x - y|
  | none, _ =>
    (positives expected.farm (verifiedFarm data)).isSome = true ∨
      Within (1 / 100) expected.farm (verifiedFarm data)

theorem positives_eq_some {expected verified : Option ℚ} {x y : ℚ}
    (h : positives expected verified = some (x, y)) : expected = some x ∧ verified = some y := by
  unfold positives at h
  split at h
  · split at h
    · cases h
      exact ⟨rfl, rfl⟩
    · cases h
  · cases h

theorem within_iff_of_positives {tolerance : ℚ} {expected verified : Option ℚ} {x y : ℚ}
    (h : positives expected verified = some (x, y)) :
    Within tolerance expected verified ↔ |x - y| ≤ tolerance := by
  obtain ⟨rfl, rfl⟩ := positives_eq_some h
  constructor
  · rintro ⟨x', y', hX, hY, hWithin⟩
    cases hX
    cases hY
    exact hWithin
  · exact fun hWithin => ⟨x, y, rfl, rfl, hWithin⟩

/-- An amount is accepted wrongly exactly where the comparison is not conclusive. -/
theorem conclusive_iff {expected : Expected} {data : Json} :
    Conclusive expected data ↔
      (isIvorypayVerifiedAmountAcceptable expected data = true → AmountMatches expected data) := by
  unfold Conclusive AmountMatches isIvorypayVerifiedAmountAcceptable
  cases hUsd : expected.usd with
  | none =>
    have hNone : positives none (verifiedUsd data) = none := rfl
    simp only [hNone, Option.isSome_none, Bool.false_eq_true, if_false]
    cases hFarm : positives expected.farm (verifiedFarm data) with
    | none => simp
    | some amounts =>
      obtain ⟨x, y⟩ := amounts
      simp [within_iff_of_positives hFarm]
  | some x =>
    simp only [Option.isSome_some, if_true]
    cases hBoth : positives (some x) (verifiedUsd data) with
    | some amounts =>
      obtain ⟨x', y'⟩ := amounts
      simp [within_iff_of_positives hBoth]
    | none =>
      have hWithin : Within (1 / 2) (some x) (verifiedUsd data) ↔
          ∃ y, verifiedUsd data = some y ∧ |x - y| ≤ 1 / 2 := by
        simp [Within]
      simp only [hWithin]
      cases hFarm : positives expected.farm (verifiedFarm data) with
      | none => simp
      | some amounts =>
        obtain ⟨x', y'⟩ := amounts
        simp only [Option.some.injEq, Prod.mk.injEq, decide_eq_true_eq]
        constructor
        · rintro (hUsd' | ⟨a, b, ⟨rfl, rfl⟩, hFar⟩) hClose
          · exact hUsd'
          · exact absurd hClose (not_le.mpr hFar)
        · intro hAccepted
          rcases le_or_gt |x' - y'| (1 / 100) with hClose | hFar
          · exact .inl (hAccepted hClose)
          · exact .inr ⟨x', y', ⟨rfl, rfl⟩, hFar⟩

end FarmBackend.IvorypayVerification
