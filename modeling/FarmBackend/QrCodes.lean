import FarmBackend.Base64Url
import FarmBackend.JsonText
import FarmBackend.WithdrawCalls

/-!
# Merchant QR codes (`qr/qr.service.ts`)

What is signed and given out, and how a scanned text is unwrapped and validated. `merchantPay`, the
image and the codes that users make for themselves are left out.
-/

namespace FarmBackend.QrCodes
open JsonText
open WithdrawCalls (trim isSpace truthy)

set_option autoImplicit false

/-- As the database writes it. -/
def isUuid (text : List Char) : Bool :=
  (text.splitOn '-').map List.length == [8, 4, 4, 4, 12] &&
    text.all fun c => "0123456789abcdef-".toList.contains c

structure Uuid where
  text : String
  valid : isUuid text.toList = true
  deriving DecidableEq

/-! ## What the service runs on -/

/-- A parsed URL; `qr` is `searchParams.get('qr')`. -/
structure Url where
  pathname : String
  qr : Option String

/-- `hmac` takes the secret and the data; `number` is what a literal prints as, unless it is infinite;
`malformed` is the text of bytes that are no UTF-8; `readUuid` is how the database reads an id. -/
structure Platform where
  hmac : String → String → String
  parseUrl : String → Option Url
  number : List Char → Option Numeral
  malformed : List UInt8 → String
  readUuid : String → Option Uuid
  toLowerCase : String → String

def PUBLIC_CHECKOUT_BASE_URL : String := "https://farmpay.africa"

def MERCHANT_CHECKOUT_URL : String := PUBLIC_CHECKOUT_BASE_URL ++ "/merchant-payment/"

/-- The number 1. -/
def one : Numeral := ⟨['1'], rfl⟩

/-- What is relied on: the number 1, that the database reads the ids that it writes, and the URLs of
this shape. A text that begins with a brace has no scheme. -/
structure Platform.Lawful (p : Platform) : Prop where
  number_one : p.number ['1'] = some one
  readUuid_text : ∀ id : Uuid, p.readUuid id.text = some id
  no_scheme : ∀ blanks rest, (∀ c ∈ blanks, isBlank c = true) →
    p.parseUrl (String.ofList (blanks ++ '\x7b' :: rest)) = none
  checkout : ∀ id : Uuid, p.parseUrl (PUBLIC_CHECKOUT_BASE_URL ++ "/checkout/" ++ id.text) =
    some ⟨"/checkout/" ++ id.text, none⟩
  query : ∀ bytes, p.parseUrl (MERCHANT_CHECKOUT_URL ++ "?qr=" ++
    String.ofList (Base64Url.encode bytes)) =
      some ⟨"/merchant-payment/", some (String.ofList (Base64Url.encode bytes))⟩

/-! ### Encodings -/

/-- `Buffer.from(text, 'utf8')`. -/
def utf8 (text : String) : List UInt8 := text.toUTF8.data.toList

def ofUtf8 (bytes : List UInt8) : Option String := String.fromUTF8? ⟨bytes.toArray⟩

/-- `Buffer.from(text, 'utf8').toString('base64url')`. -/
def toBase64Url (text : String) : String := String.ofList (Base64Url.encode (utf8 text))

/-- `Buffer.from(text, 'base64url').toString('utf8')`. -/
def ofBase64Url (p : Platform) (text : String) : String :=
  let bytes := Base64Url.decode text.toList
  (ofUtf8 bytes).getD (p.malformed bytes)

/-- `A-Z a-z 0-9 - _ . ! ~ * ' ( )`. -/
def isUnreserved (c : Char) : Bool :=
  ('A' ≤ c && c ≤ 'Z') || ('a' ≤ c && c ≤ 'z') || ('0' ≤ c && c ≤ '9') ||
    ['-', '_', '.', '!', '~', '*', '\'', '(', ')'].contains c

def percent (byte : UInt8) : List Char :=
  let digit (n : ℕ) : Char := "0123456789ABCDEF".toList.getD n '0'
  ['%', digit (byte.toNat / 16), digit (byte.toNat % 16)]

def encodeURIComponent (text : String) : String :=
  String.ofList (text.toList.flatMap fun c =>
    if isUnreserved c then [c] else (utf8 (String.singleton c)).flatMap percent)

def percentDecode : List Char → Option (List UInt8)
  | [] => some []
  | c :: rest =>
    if c = '%' then
      match rest with
      | high :: low :: rest => do
        let high ← hexValue high
        let low ← hexValue low
        (percentDecode rest).map (UInt8.ofNat (high * 16 + low) :: ·)
      | _ => none
    else (percentDecode rest).map (utf8 (String.singleton c) ++ ·)

/-- It throws on what is no UTF-8. -/
def decodeURIComponent (text : String) : Option String :=
  (percentDecode text.toList).bind ofUtf8

/-! ## The rows -/

inductive MerchantStatus where
  | pending
  | approved
  | rejected
  | suspended
  deriving DecidableEq

/-- The fee and the limit are what `Number` makes of the columns, or 0. -/
structure Merchant where
  businessName : String
  qrCode : Option String
  qrSecret : Option String
  status : MerchantStatus
  transactionFeePercent : ℚ
  dailyLimit : ℚ

/-- `user` finds the user with a name or a phone number, and the address of the first active wallet;
`qrHmacSecret` is the setting. -/
structure Db where
  merchants : Uuid → Option Merchant
  user : String → String → Option (Option String)
  hasWallet : String → Bool
  qrHmacSecret : String

/-- `merchants.findUnique({ where: { id } })`, which throws on what is no id. -/
def Db.findMerchant (p : Platform) (db : Db) (id : String) : Option (Option (Uuid × Merchant)) :=
  (p.readUuid id).map fun id => (db.merchants id).map fun m => (id, m)

def Db.Approved (db : Db) (id : Uuid) : Prop :=
  ∃ m, db.merchants id = some m ∧ m.status = .approved

/-- `merchant.qr_secret || QR_HMAC_SECRET`. -/
def Db.secret (db : Db) (m : Merchant) : String := (truthy m.qrSecret).getD db.qrHmacSecret

/-! ## Giving out -/

/-- The key of the HMAC. -/
def keyOf (secret : String) : String := if secret = "" then "fallback" else secret

def sign (p : Platform) (data secret : String) : String := p.hmac (keyOf secret) data

def isTruthy : Json → Bool
  | .null => false
  | .bool b => b
  | .num n => n.text ≠ ['0']
  | .str s => s ≠ ""
  | .infinite _ | .arr _ | .obj _ => true

def legacyUrl (signedPayload : String) : String :=
  MERCHANT_CHECKOUT_URL ++ "?qr=" ++ toBase64Url signedPayload

/-- `payload.merchant_id` as `checkoutUrl` goes on with it. -/
def checkoutId (parsed : Json) : String :=
  match parsed with
  | .obj fields =>
    match fields.get "merchant_id" with
    | some (.str id) => trim (String.ofList (id.toList.filter fun c => c != '\x7b' && c != '\x7d'))
    | _ => ""
  | _ => ""

def checkoutUrl (p : Platform) (signedPayload : String) : String :=
  match parse p.number signedPayload with
  | none => legacyUrl signedPayload
  | some parsed =>
    if checkoutId parsed = "" then legacyUrl signedPayload
    else PUBLIC_CHECKOUT_BASE_URL ++ "/checkout/" ++ encodeURIComponent (checkoutId parsed)

def payload (id : Uuid) (businessName : String) : Fields :=
  .cons "merchant_id" (.str id.text)
    (.cons "business_name" (.str businessName) (.cons "v" (.num one) .nil))

/-- `{ ...payload, sig }`. -/
def signed (p : Platform) (secret : String) (id : Uuid) (businessName : String) : Fields :=
  (payload id businessName).append
    (.cons "sig" (.str (sign p (stringify (.obj (payload id businessName))) secret)) .nil)

/-- What is given out for a merchant. -/
structure Emission where
  merchantId : Uuid
  qrPayload : String
  checkoutUrl : String

inductive Form where
  | qrPayload
  | checkoutUrl
  | legacyUrl
  deriving DecidableEq

def Emission.text (e : Emission) : Form → String
  | .qrPayload => e.qrPayload
  | .checkoutUrl => e.checkoutUrl
  | .legacyUrl => QrCodes.legacyUrl e.qrPayload

/-- `emitted` and `signatures`, the keys with what was signed, are history. -/
structure State where
  db : Db
  emitted : List Emission
  signatures : List (String × String)

inductive Action where
  | generateMerchantQr (id : Uuid)
  | getMerchantQr (id : Uuid)
  | apply (id : Uuid) (businessName qrSecret : String)
  | rename (id : Uuid) (businessName : String)
  | review (id : Uuid) (status : MerchantStatus)

def Db.setMerchant (db : Db) (id : Uuid) (m : Merchant) : Db :=
  { db with merchants := Function.update db.merchants id (some m) }

@[simp] theorem Db.merchants_setMerchant_self (db : Db) (id : Uuid) (m : Merchant) :
    (db.setMerchant id m).merchants id = some m :=
  Function.update_self ..

theorem Db.merchants_setMerchant_of_ne {db : Db} {id other : Uuid} {m : Merchant} (h : other ≠ id) :
    (db.setMerchant id m).merchants other = db.merchants other :=
  Function.update_of_ne h ..

@[simp] theorem Db.secret_setMerchant (db : Db) (id : Uuid) (m other : Merchant) :
    (db.setMerchant id m).secret other = db.secret other :=
  rfl

def emission (p : Platform) (id : Uuid) (qrPayload : String) : Emission :=
  ⟨id, qrPayload, checkoutUrl p qrPayload⟩

theorem checkoutUrl_emission (p : Platform) (id : Uuid) (qrPayload : String) :
    (emission p id qrPayload).checkoutUrl = checkoutUrl p qrPayload :=
  rfl

def generateMerchantQr (p : Platform) (id : Uuid) (m : Merchant) (s : State) : State :=
  let secret := s.db.secret m
  let code := stringify (.obj (signed p secret id m.businessName))
  { db := s.db.setMerchant id { m with qrCode := some code }
    emitted := emission p id code :: s.emitted
    signatures := (keyOf secret, stringify (.obj (payload id m.businessName))) :: s.signatures }

def getMerchantQr (p : Platform) (id : Uuid) (m : Merchant) (s : State) : State :=
  match truthy m.qrCode with
  | none => generateMerchantQr p id m s
  | some code => { s with emitted := emission p id code :: s.emitted }

/-- The services answer with an error where there is no merchant. -/
def step (p : Platform) (s : State) : Action → State
  | .generateMerchantQr id =>
    match s.db.merchants id with
    | none => s
    | some m => generateMerchantQr p id m s
  | .getMerchantQr id =>
    match s.db.merchants id with
    | none => s
    | some m => getMerchantQr p id m s
  | .apply id businessName qrSecret =>
    match s.db.merchants id with
    | none => { s with db := s.db.setMerchant id ⟨businessName, none, some qrSecret, .pending, 0, 0⟩ }
    | some _ => s
  | .rename id businessName =>
    match s.db.merchants id with
    | none => s
    | some m => { s with db := s.db.setMerchant id { m with businessName := businessName } }
  | .review id status =>
    match s.db.merchants id with
    | none => s
    | some m => { s with db := s.db.setMerchant id { m with status := status } }

def run (p : Platform) (actions : List Action) (s : State) : State := actions.foldl (step p) s

/-! ## Scanning -/

/-- The text that a scanned URL carries. -/
def decodeQr (p : Platform) (qrValue : String) : Option String :=
  let base64Decoded := ofBase64Url p qrValue
  if (base64Decoded.toList.dropWhile isSpace).head? = some '\x7b' then some base64Decoded
  else decodeURIComponent qrValue

def unwrap (p : Platform) : ℕ → String → String
  | 0, payload => payload
  | depth + 1, payload =>
    if (parse p.number payload).isSome then payload
    else
      match truthy ((p.parseUrl payload).bind Url.qr) with
      | none => payload
      | some qrValue =>
        match decodeQr p qrValue with
        | none => payload
        | some decoded => if decoded = payload then payload else unwrap p depth (trim decoded)

section
-- Its equations are derived once, before the proofs that unfold it.
attribute [local simp] unwrap
end

def unwrapQrPayload (p : Platform) (scannedPayload : String) : String :=
  unwrap p 3 (trim scannedPayload)

/-- What `validate` answers; `refused` is an error of its own, `failed` another one. -/
inductive Answer where
  | merchant (id : Uuid) (businessName : Json) (feePercent dailyLimit : ℚ)
  | peer (walletAddress : String) (suggestedAmount : Option Json)
  | refused (message : String)
  | failed

def Answer.merchantId : Answer → Option Uuid
  | .merchant id _ _ _ => some id
  | .peer _ _ | .refused _ | .failed => none

def answerMerchant (id : Uuid) (m : Merchant) (businessName : Json) : Answer :=
  .merchant id businessName m.transactionFeePercent m.dailyLimit

/-- `/\/pay\/([^/]+)\/?$/`. -/
def directPayId (pathname : String) : Option String :=
  let reversed := pathname.toList.reverse
  let reversed := if reversed.head? = some '/' then reversed.tail else reversed
  let segment := reversed.takeWhile (· != '/')
  if !segment.isEmpty && "/yap/".toList.isPrefixOf (reversed.dropWhile (· != '/')) then
    some (String.ofList segment.reverse)
  else none

/-- The answer to a direct link; any error that is not its own is swallowed. -/
def validateDirectPay (p : Platform) (db : Db) (normalizedPayload : String) : Option Answer := do
  let url ← p.parseUrl normalizedPayload
  let segment ← directPayId url.pathname
  let id ← decodeURIComponent segment
  let found ← db.findMerchant p id
  match found with
  | none => return .refused "Merchant is not approved to accept payments"
  | some (id, m) =>
    if m.status = .approved then return answerMerchant id m (.str m.businessName)
    else return .refused "Merchant is not approved to accept payments"

def validateIdentifier (p : Platform) (db : Db) (identifier : String) : Answer :=
  if identifier = "" then .refused "Invalid QR payload"
  else
    let normalizedUsername :=
      match identifier.toList with
      | '@' :: name => p.toLowerCase (trim (String.ofList name))
      | _ => p.toLowerCase identifier
    match db.user normalizedUsername identifier with
    | some (some walletAddress) => .peer walletAddress none
    | _ => .refused "User not found or wallet unavailable"

def isText (value : Option Json) (text : String) : Bool :=
  match value with
  | some (.str s) => s == text
  | _ => false

/-- `merchant.business_name || parsed.business_name || 'Merchant'`. -/
def shownName (m : Merchant) (parsed : Fields) : Json :=
  if m.businessName ≠ "" then .str m.businessName
  else ((parsed.get "business_name").filter isTruthy).getD (.str "Merchant")

def validateSigned (p : Platform) (db : Db) (parsed : Fields) (id : Json) : Answer :=
  match id with
  | .str id =>
    match db.findMerchant p id with
    | none => .failed
    | some none => .refused "Merchant not found"
    | some (some (id, m)) =>
      if m.status ≠ .approved then .refused "Merchant is not approved to accept payments"
      else if isText (parsed.get "sig") (sign p (stringify (.obj (parsed.remove "sig"))) (db.secret m))
      then answerMerchant id m (shownName m parsed)
      else .refused "QR signature invalid"
  | _ => .failed

def validateWallet (db : Db) (parsed : Fields) (address : Json) : Answer :=
  match address with
  | .str address =>
    if db.hasWallet address then .peer address (parsed.get "amount")
    else .refused "Invalid wallet address"
  | _ => .failed

def validateParsed (p : Platform) (db : Db) : Json → Answer
  | .null => .failed
  | .obj parsed =>
    match (parsed.get "merchant_id").filter isTruthy with
    | some id => validateSigned p db parsed id
    | none =>
      match (parsed.get "wallet_address").filter isTruthy with
      | some address => validateWallet db parsed address
      | none => .refused "Unknown QR type"
  | _ => .refused "Unknown QR type"

def validate (p : Platform) (db : Db) (scannedPayload : String) : Answer :=
  let normalizedPayload := unwrapQrPayload p scannedPayload
  match validateDirectPay p db normalizedPayload with
  | some answer => answer
  | none =>
    match parse p.number normalizedPayload with
    | none => validateIdentifier p db normalizedPayload
    | some parsed => validateParsed p db parsed

/-! ## The claim's terms -/

/-- Nothing has been given out. -/
structure Fresh (s : State) : Prop where
  emitted : s.emitted = []
  signatures : s.signatures = []
  unstored : ∀ id m, s.db.merchants id = some m → truthy m.qrCode = none

/-- None of the payloads that were given out has these four members. -/
def Altered (p : Platform) (s : State) (parsed : Fields) : Prop :=
  ∀ e ∈ s.emitted, ∀ fields, parse p.number e.qrPayload = some (.obj fields) →
    ∃ key ∈ ["merchant_id", "business_name", "v", "sig"], parsed.get key ≠ fields.get key

/-- The HMAC is not forged: what a merchant's key verifies was signed with it by the service. -/
def Unforged (p : Platform) (s : State) (parsed : Fields) : Prop :=
  ∀ id m, s.db.merchants id = some m →
    let data := stringify (.obj (parsed.remove "sig"))
    parsed.get "sig" = some (.str (sign p data (s.db.secret m))) →
      (keyOf (s.db.secret m), data) ∈ s.signatures

end FarmBackend.QrCodes
