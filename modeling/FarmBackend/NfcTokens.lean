import FarmBackend.Base64Url
import FarmBackend.Drafts
import FarmBackend.QrScans

/-!
# Tap-to-pay tokens

A token names a request and its expiry and is signed over both. `verify` signs the two anew and takes
the fourth part of the result for the signature. A number that prints with a point has shifted the
parts by then.
-/

namespace FarmBackend.NfcTokens
open WithdrawCalls (trim isSpace truthy)
open QrCodes (forall_mem_of_all trim_of_dense)

set_option autoImplicit false

/-- `hmac` takes the secret and the data. `number` is `Number`, where it gives an integer, and `print`
is what a template literal makes of that. -/
structure Platform where
  hmac : String → List Char → List UInt8
  number : List Char → Option ℤ
  print : ℤ → List Char

/-- The two environment variables. -/
structure Config where
  NFC_PAY_SECRET : Option String
  JWT_SECRET : Option String

inductive Rejection where
  | notARequest
  | notConfigured
  | invalidSignature
  | expired
deriving DecidableEq, Repr

def Rejection.message : Rejection → String
  | notARequest => "Not a FARM payment request"
  | notConfigured => "Tap to pay is not configured"
  | invalidSignature => "Payment request signature is invalid"
  | expired => "This payment request has expired"

def NFC_TOKEN_PREFIX : List Char := ['f', 'a', 'r', 'm', 'p', 'a', 'y', '1']

def secret (c : Config) : Option String :=
  ((truthy c.NFC_PAY_SECRET).or c.JWT_SECRET).filter fun s => 16 ≤ Drafts.length s

/-- What is signed. -/
def signedText (id exp : List Char) : List Char := NFC_TOKEN_PREFIX ++ '.' :: (id ++ '.' :: exp)

def tokenText (id exp sig : List Char) : List Char :=
  NFC_TOKEN_PREFIX ++ '.' :: (id ++ '.' :: (exp ++ '.' :: sig))

def signature (p : Platform) (key : String) (id : List Char) (exp : ℤ) : List Char :=
  Base64Url.encode (p.hmac key (signedText id (p.print exp)))

def sign (p : Platform) (key : String) (id : List Char) (exp : ℤ) : List Char :=
  tokenText id (p.print exp) (signature p key id exp)

/-- `[0-9a-f-]`, whatever the case. -/
def ID_CHARS : List Char :=
  ['0', '1', '2', '3', '4', '5', '6', '7', '8', '9', 'a', 'b', 'c', 'd', 'e', 'f', 'A', 'B', 'C',
    'D', 'E', 'F', '-']

def IsId (id : List Char) : Prop := id.length = 36 ∧ ∀ c ∈ id, c ∈ ID_CHARS

instance (id : List Char) : Decidable (IsId id) :=
  @instDecidableAnd _ _ inferInstance (List.decidableBAll (fun c => c ∈ ID_CHARS) id)

def parts (token : String) : List (List Char) := (trim token).toList.splitOn '.'

/-- The signatures are compared as bytes, and what `sign` makes is the same text only as itself. -/
def verify (p : Platform) (c : Config) (token : String) (now : ℤ) : Except Rejection (List Char) :=
  match parts token with
  | [head, id, expS, sig] =>
    if head = NFC_TOKEN_PREFIX then
      match p.number expS with
      | some exp =>
        if IsId id then
          match secret c with
          | some key =>
            if ((sign p key id exp).splitOn '.')[3]? = some sig then
              if exp * 1000 ≤ now then .error .expired else .ok id
            else .error .invalidSignature
          | none => .error .notConfigured
        else .error .notARequest
      | none => .error .notARequest
    else .error .notARequest
  | _ => .error .notARequest

/-- The expiry that a token states. -/
def expiry (p : Platform) (token : String) : Option ℤ := (parts token)[2]?.bind p.number

section Texts
variable {p : Platform} {key : String} {id : List Char} {exp : ℤ}

theorem dot_notMem_prefix : '.' ∉ NFC_TOKEN_PREFIX := by decide

theorem dot_notMem_id (h : IsId id) : '.' ∉ id := by
  intro hMem
  have hChar := h.2 '.' hMem
  revert hChar
  decide

theorem isSpace_of_id (h : IsId id) : ∀ c ∈ id, isSpace c = false := by
  intro c hMem
  have hAll : ∀ c ∈ ID_CHARS, isSpace c = false := forall_mem_of_all (by decide)
  exact hAll c (h.2 c hMem)

theorem isSpace_of_encode (bytes : List UInt8) : ∀ c ∈ Base64Url.encode bytes, isSpace c = false := by
  intro c hMem
  have hAll : ∀ c ∈ Base64Url.ALPHABET, isSpace c = false := forall_mem_of_all (by decide +kernel)
  exact hAll c (Base64Url.mem_alphabet hMem)

theorem splitOn_tokenText {text sig : List Char} (hId : IsId id) (hText : '.' ∉ text)
    (hSig : '.' ∉ sig) :
    (tokenText id text sig).splitOn '.' = [NFC_TOKEN_PREFIX, id, text, sig] := by
  rw [tokenText, List.splitOn_append_cons_self_of_not_mem dot_notMem_prefix,
    List.splitOn_append_cons_self_of_not_mem (dot_notMem_id hId),
    List.splitOn_append_cons_self_of_not_mem hText, List.splitOn_eq_singleton hSig]

theorem parts_tokenText {text sig : List Char} (hId : IsId id) (hText : '.' ∉ text)
    (hSig : '.' ∉ sig) (hSpace : ∀ c ∈ text ++ sig, isSpace c = false) :
    parts (String.ofList (tokenText id text sig)) = [NFC_TOKEN_PREFIX, id, text, sig] := by
  have hNone : ∀ c ∈ tokenText id text sig, isSpace c = false := by
    have hPrefix : ∀ c ∈ NFC_TOKEN_PREFIX, isSpace c = false := forall_mem_of_all (by decide)
    have hDot : isSpace '.' = false := by decide
    have hHere := isSpace_of_id hId
    intro c hMem
    simp only [tokenText, List.mem_append, List.mem_cons] at hMem
    rcases hMem with hMem | rfl | hMem | rfl | hMem | rfl | hMem
    · exact hPrefix c hMem
    · exact hDot
    · exact hHere c hMem
    · exact hDot
    · exact hSpace c (List.mem_append_left _ hMem)
    · exact hDot
    · exact hSpace c (List.mem_append_right _ hMem)
  have hTrim : trim (String.ofList (tokenText id text sig)) = String.ofList (tokenText id text sig) :=
    trim_of_dense (by rwa [String.toList_ofList])
  rw [parts, hTrim, String.toList_ofList, splitOn_tokenText hId hText hSig]

theorem dot_notMem_signature : '.' ∉ signature p key id exp := Base64Url.dot_notMem_encode _

/-- Where the number prints without a point, the fourth part is the signature. -/
theorem fourth_of_plain (hId : IsId id) (hPlain : '.' ∉ p.print exp) :
    ((sign p key id exp).splitOn '.')[3]? = some (signature p key id exp) := by
  rw [sign, splitOn_tokenText hId hPlain dot_notMem_signature]
  rfl

/-- Where it prints with one, the fourth part is what follows the point. -/
theorem fourth_of_point {whole rest : List Char} (hId : IsId id)
    (hPrint : p.print exp = whole ++ '.' :: rest) (hWhole : '.' ∉ whole) (hRest : '.' ∉ rest) :
    ((sign p key id exp).splitOn '.')[3]? = some rest := by
  rw [sign, tokenText, hPrint, List.append_assoc, List.cons_append,
    List.splitOn_append_cons_self_of_not_mem dot_notMem_prefix,
    List.splitOn_append_cons_self_of_not_mem (dot_notMem_id hId),
    List.splitOn_append_cons_self_of_not_mem hWhole,
    List.splitOn_append_cons_self_of_not_mem hRest]
  rfl

end Texts

section Verifying
variable {p : Platform} {c : Config} {token key : String} {now exp : ℤ} {id : List Char}

theorem verify_eq_ok : verify p c token now = .ok id ↔ ∃ expS sig exp key,
    parts token = [NFC_TOKEN_PREFIX, id, expS, sig] ∧ p.number expS = some exp ∧ IsId id ∧
      secret c = some key ∧ ((sign p key id exp).splitOn '.')[3]? = some sig ∧ now < exp * 1000 := by
  constructor
  · intro h
    unfold verify at h
    split at h
    · rename_i head id' expS sig hParts
      split at h
      · rename_i hHead
        split at h
        · rename_i exp hNumber
          split at h
          · rename_i hId
            split at h
            · rename_i key hKey
              split at h
              · rename_i hSig
                split at h
                · cases h
                · rename_i hLive
                  cases h
                  rw [hHead] at hParts
                  exact ⟨expS, sig, exp, key, hParts, hNumber, hId, hKey, hSig, not_le.mp hLive⟩
              · cases h
            · cases h
          · cases h
        · cases h
      · cases h
    · cases h
  · intro h
    obtain ⟨expS, sig, exp, key, hParts, hNumber, hId, hKey, hSig, hLive⟩ := h
    simp only [verify, hParts, hNumber, hKey, hSig, if_pos hId, if_true, if_neg (not_le.mpr hLive)]

/-- A token that the backend has signed is accepted until it expires. -/
theorem verify_sign (hKey : secret c = some key) (hId : IsId id)
    (hNumber : p.number (p.print exp) = some exp) (hPlain : '.' ∉ p.print exp)
    (hSpace : ∀ c ∈ p.print exp, isSpace c = false) (hLive : now < exp * 1000) :
    verify p c (String.ofList (sign p key id exp)) now = .ok id := by
  refine verify_eq_ok.mpr ⟨_, _, exp, key, ?_, hNumber, hId, hKey, fourth_of_plain hId hPlain, hLive⟩
  refine parts_tokenText hId hPlain dot_notMem_signature ?_
  intro c hMem
  rcases List.mem_append.mp hMem with hText | hSig
  · exact hSpace c hText
  · exact isSpace_of_encode _ c hSig

end Verifying

/-- Where the expiry that a token states prints without a point, as it does below 10 ^ 21, the token is
accepted exactly when it carries the signature over its own request and expiry and is in time. -/
theorem verify_ok_iff_signed {p : Platform} {c : Config} {token : String} {now : ℤ}
    {id : List Char} (hPlain : ∀ exp ∈ expiry p token, '.' ∉ p.print exp) :
    verify p c token now = .ok id ↔ ∃ expS exp key, p.number expS = some exp ∧ IsId id ∧
      secret c = some key ∧ now < exp * 1000 ∧
      parts token = [NFC_TOKEN_PREFIX, id, expS, signature p key id exp] := by
  have hStated : ∀ {expS sig : List Char} {exp : ℤ},
      parts token = [NFC_TOKEN_PREFIX, id, expS, sig] → p.number expS = some exp →
      '.' ∉ p.print exp := by
    intro expS sig exp hParts hNumber
    refine hPlain exp ?_
    rw [expiry, hParts]
    exact hNumber
  rw [verify_eq_ok]
  constructor
  · intro h
    obtain ⟨expS, sig, exp, key, hParts, hNumber, hId, hKey, hSig, hLive⟩ := h
    rw [fourth_of_plain hId (hStated hParts hNumber), Option.some.injEq] at hSig
    rw [← hSig] at hParts
    exact ⟨expS, exp, key, hNumber, hId, hKey, hLive, hParts⟩
  · intro h
    obtain ⟨expS, exp, key, hNumber, hId, hKey, hLive, hParts⟩ := h
    exact ⟨expS, _, exp, key, hParts, hNumber, hId, hKey,
      fourth_of_plain hId (hStated hParts hNumber), hLive⟩

/-- What `Number` makes of 15e299. -/
def manySeconds : ℤ := 5043654821435445 * (2 ^ 189) ^ 5

def YEAR_2026 : List Char := ['1', '7', '6', '7', '2', '2', '5', '6', '0', '0']

/-- A platform with a constant for the hash, and what it makes of two numbers. -/
def twoNumbers : Platform where
  hmac _ _ := [1, 2, 3]
  number text :=
    if text = YEAR_2026 then some 1767225600
    else if text = ['1', '5', 'e', '2', '9', '9'] then some manySeconds else none
  print n := if n = manySeconds then ['1', '.', '5', 'e', '+', '3', '0', '0'] else YEAR_2026

def SIXTEEN : String := "0123456789abcdef"

def configured : Config := ⟨some SIXTEEN, none⟩

def someId : List Char := List.replicate 36 'a'

theorem isId_someId : IsId someId := by
  refine ⟨List.length_replicate, ?_⟩
  intro c hMem
  rw [List.eq_of_mem_replicate hMem]
  decide

theorem secret_configured : secret configured = some SIXTEEN := by
  decide

theorem print_year : twoNumbers.print 1767225600 = YEAR_2026 := by
  have hNot : (1767225600 : ℤ) ≠ manySeconds := by decide
  simp only [twoNumbers, if_neg hNot]

theorem verify_ok_iff_signed_in_time : ∃ expS exp key,
    twoNumbers.number expS = some exp ∧ IsId someId ∧ secret configured = some key ∧
      0 < exp * 1000 ∧
      parts (String.ofList (sign twoNumbers SIXTEEN someId 1767225600)) =
        [NFC_TOKEN_PREFIX, someId, expS, signature twoNumbers key someId exp] := by
  have hNumber : twoNumbers.number YEAR_2026 = some 1767225600 := by decide
  have hPlain : '.' ∉ YEAR_2026 := by decide
  have hSpace : ∀ c ∈ YEAR_2026, isSpace c = false := forall_mem_of_all (by decide)
  refine (verify_ok_iff_signed ?_).mp (verify_sign secret_configured isId_someId ?_ ?_ ?_ (by decide))
  · intro exp hExp
    rw [expiry, sign, print_year, parts_tokenText isId_someId hPlain dot_notMem_signature] at hExp
    · have hSame : some (1767225600 : ℤ) = some exp := hNumber.symm.trans hExp
      cases hSame
      rw [print_year]
      exact hPlain
    · intro c hMem
      rcases List.mem_append.mp hMem with hText | hSig
      · exact hSpace c hText
      · exact isSpace_of_encode _ c hSig
  · rw [print_year]
    exact hNumber
  · rw [print_year]
    exact hPlain
  · rw [print_year]
    exact hSpace

/-- A number that prints with a point lets a token in without any signature: what follows the point
stands where the signature is looked for, whatever the secret and whatever the hash. -/
theorem verify_forged {p : Platform} {c : Config} {key : String} {id expS whole rest : List Char}
    {exp now : ℤ} (hKey : secret c = some key) (hId : IsId id) (hNumber : p.number expS = some exp)
    (hPrint : p.print exp = whole ++ '.' :: rest) (hWhole : '.' ∉ whole) (hRest : '.' ∉ rest)
    (hStated : '.' ∉ expS) (hSpace : ∀ c ∈ expS ++ rest, isSpace c = false)
    (hLive : now < exp * 1000) :
    verify p c (String.ofList (tokenText id expS rest)) now = .ok id :=
  verify_eq_ok.mpr ⟨expS, rest, exp, key, parts_tokenText hId hStated hRest hSpace, hNumber, hId, hKey,
    fourth_of_point hId hPrint hWhole hRest, hLive⟩

theorem verify_forged_15e299 : verify twoNumbers configured (String.ofList (tokenText someId
    ['1', '5', 'e', '2', '9', '9'] ['5', 'e', '+', '3', '0', '0'])) 1767225600000 = .ok someId := by
  have hNumber : twoNumbers.number ['1', '5', 'e', '2', '9', '9'] = some manySeconds := by decide
  have hPrint : twoNumbers.print manySeconds = ['1'] ++ '.' :: ['5', 'e', '+', '3', '0', '0'] := by
    decide
  exact verify_forged secret_configured isId_someId hNumber hPrint (by decide) (by decide)
    (by decide) (forall_mem_of_all (by decide)) (by decide)

end FarmBackend.NfcTokens
