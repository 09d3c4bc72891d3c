import FarmBackend.QrCodes

/-!
# Which QR codes are scanned back

The signed payload and the URL that carries it lead back to the merchant whatever the business is
called by then; the checkout URL is read by nobody. A payload that was altered is refused.
-/

namespace FarmBackend.QrCodes
open JsonText
open WithdrawCalls (trim trim_eq_self isSpace truthy)

set_option autoImplicit false

/-! ### Encodings -/

theorem ofUtf8_utf8 (text : String) : ofUtf8 (utf8 text) = some text := by
  have hBytes : (⟨(utf8 text).toArray⟩ : ByteArray) = text.toUTF8 := by
    rw [utf8, Array.toArray_toList]
  rw [ofUtf8, hBytes]
  exact dif_pos text.isValidUTF8

theorem ofBase64Url_toBase64Url (p : Platform) (text : String) :
    ofBase64Url p (toBase64Url text) = text := by
  rw [ofBase64Url, toBase64Url, String.toList_ofList, Base64Url.decode_encode]
  simp only [ofUtf8_utf8, Option.getD_some]

theorem encodeURIComponent_eq_self {text : String} (h : ∀ c ∈ text.toList, isUnreserved c = true) :
    encodeURIComponent text = text := by
  have hKept : ∀ l : List Char, (∀ c ∈ l, isUnreserved c = true) →
      (l.flatMap fun c => if isUnreserved c then [c] else
        (utf8 (String.singleton c)).flatMap percent) = l := by
    intro l hAll
    induction l with
    | nil => rfl
    | cons c l ih =>
      rw [List.forall_mem_cons] at hAll
      rw [List.flatMap_cons, if_pos hAll.1, ih hAll.2]
      rfl
  rw [encodeURIComponent, hKept _ h, String.ofList_toList]

theorem trim_of_dense {text : String} (h : ∀ c ∈ text.toList, isSpace c = false) : trim text = text :=
  trim_eq_self (fun c hHead => h c (List.mem_of_mem_head? hHead))
    (fun c hLast => h c (List.mem_of_getLast? hLast))

/-- Characters are tried one by one only as far as a list has them. -/
theorem forall_mem_of_all {P : Char → Prop} [DecidablePred P] {l : List Char}
    (h : l.all (fun c => decide (P c)) = true) : ∀ c ∈ l, P c :=
  fun c hMem => of_decide_eq_true (List.all_eq_true.mp h c hMem)

/-! ### Ids -/

namespace Uuid

theorem mem_text (id : Uuid) : ∀ c ∈ id.text.toList, c ∈ "0123456789abcdef-".toList := by
  have hValid := id.valid
  simp only [isUuid, Bool.and_eq_true, List.all_eq_true] at hValid
  exact fun c hMem => List.contains_iff_mem.mp (hValid.2 c hMem)

theorem text_ne_nil (id : Uuid) : id.text.toList ≠ [] := by
  intro hNil
  have hValid := id.valid
  rw [hNil] at hValid
  exact absurd hValid (by decide)

theorem text_ne_empty (id : Uuid) : id.text ≠ "" := by
  intro hEmpty
  exact id.text_ne_nil (by rw [hEmpty]; rfl)

/-- What holds of all characters that an id may have. -/
theorem forall_text {P : Char → Prop} [DecidablePred P]
    (h : "0123456789abcdef-".toList.all (fun c => decide (P c)) = true) (id : Uuid) :
    ∀ c ∈ id.text.toList, P c :=
  fun c hMem => forall_mem_of_all h c (id.mem_text c hMem)

theorem encode_text (id : Uuid) : encodeURIComponent id.text = id.text :=
  encodeURIComponent_eq_self (forall_text (by decide) id)

theorem trim_text (id : Uuid) : trim id.text = id.text :=
  trim_of_dense (forall_text (by decide) id)

theorem bare_text (id : Uuid) :
    String.ofList (id.text.toList.filter fun c => c != '\x7b' && c != '\x7d') = id.text := by
  rw [List.filter_eq_self.mpr (forall_text (by decide) id), String.ofList_toList]

end Uuid

/-! ### Objects as they are given out -/

section Objects
variable {p : Platform} {fields : Fields}

theorem toList_stringify (fields : Fields) :
    (stringify (.obj fields)).toList = (Json.obj fields).text :=
  String.toList_ofList

theorem head_stringify (fields : Fields) : (stringify (.obj fields)).toList.head? = some '\x7b' := by
  rw [toList_stringify, Json.head?_obj]

theorem trim_stringify (fields : Fields) :
    trim (stringify (.obj fields)) = stringify (.obj fields) := by
  apply trim_eq_self
  · intro c hHead
    rw [head_stringify] at hHead
    cases hHead
    decide
  · intro c hLast
    rw [toList_stringify, Json.getLast?_obj] at hLast
    cases hLast
    decide

theorem unwrap_of_parse {text : String} {value : Json} (h : parse p.number text = some value)
    (depth : ℕ) : unwrap p depth text = text := by
  cases depth with
  | zero => rfl
  | succ depth =>
    rw [unwrap, h]
    rfl

theorem unwrapQrPayload_stringify {value : Json}
    (h : parse p.number (stringify (.obj fields)) = some value) :
    unwrapQrPayload p (stringify (.obj fields)) = stringify (.obj fields) := by
  rw [unwrapQrPayload, trim_stringify, unwrap_of_parse h]

/-- The four members of a payload. -/
def members (id name sig : String) : Fields :=
  .cons "merchant_id" (.str id)
    (.cons "business_name" (.str name) (.cons "v" (.num one) (.cons "sig" (.str sig) .nil)))

theorem normalize_members (id name sig : String) :
    (members id name sig).normalize = members id name sig := by
  have hKeys : index "merchant_id" = none ∧ index "business_name" = none ∧ index "v" = none ∧
      index "sig" = none := by decide +kernel
  obtain ⟨hId, hName, hVersion, hSig⟩ := hKeys
  simp [Fields.normalize, members, Fields.append, Fields.setAll, Fields.set, Fields.keep, hId, hName,
    hVersion, hSig, Fields.sortIndices]

theorem parse_members (hLawful : p.Lawful) (id name sig : String) :
    parse p.number (stringify (.obj (members id name sig))) = some (.obj (members id name sig)) := by
  refine parse_stringify ⟨trivial, trivial, trivial, trivial, trivial⟩ ?_ (normalize_members ..)
  exact ⟨trivial, trivial, hLawful.number_one, trivial, trivial⟩

end Objects

/-! ### The signed payload -/

section Payloads
variable {p : Platform} {secret name : String} {id : Uuid} {db : Db} {m : Merchant}

/-- A signed payload as text. -/
def code (p : Platform) (secret : String) (id : Uuid) (name : String) : String :=
  stringify (.obj (signed p secret id name))

theorem flat_payload : (payload id name).Flat := ⟨trivial, trivial, trivial, trivial⟩

theorem parse_code (hLawful : p.Lawful) :
    parse p.number (code p secret id name) = some (.obj (signed p secret id name)) :=
  parse_members hLawful ..

theorem checkoutUrl_code (hLawful : p.Lawful) : checkoutUrl p (code p secret id name) =
    PUBLIC_CHECKOUT_BASE_URL ++ "/checkout/" ++ id.text := by
  have hId : checkoutId (.obj (signed p secret id name)) = id.text := by
    have hGet : (signed p secret id name).get "merchant_id" = some (.str id.text) := rfl
    simp only [checkoutId, hGet]
    rw [id.bare_text, id.trim_text]
  rw [checkoutUrl, parse_code hLawful]
  simp only [hId, if_neg id.text_ne_empty, id.encode_text]

/-! ### Validating it -/

theorem remove_sig : (signed p secret id name).remove "sig" = payload id name := by
  simp [signed, payload, Fields.append, Fields.remove]

theorem get_sig : (signed p secret id name).get "sig" =
    some (.str (sign p (stringify (.obj (payload id name))) secret)) := by
  simp [signed, payload, Fields.append, Fields.get]

theorem validateParsed_signed (hLawful : p.Lawful) (hRow : db.merchants id = some m)
    (hApproved : m.status = .approved) (hSecret : db.secret m = secret) :
    (validateParsed p db (.obj (signed p secret id name))).merchantId = some id := by
  have hId : (signed p secret id name).get "merchant_id" = some (.str id.text) := rfl
  have hTruthy : isTruthy (.str id.text) = true := by
    simpa [isTruthy] using id.text_ne_empty
  have hFound : db.findMerchant p id.text = some (some (id, m)) := by
    rw [Db.findMerchant, hLawful.readUuid_text, Option.map_some, hRow, Option.map_some]
  simp only [validateParsed, hId, Option.filter_some, hTruthy, if_true, validateSigned, hFound,
    hApproved, hSecret, remove_sig, get_sig]
  simp [isText, answerMerchant, Answer.merchantId]

/-- A text of an object is no direct link. -/
theorem validate_object {scanned : String} {fields : Fields} (hLawful : p.Lawful)
    (h : parse p.number (unwrapQrPayload p scanned) = some (.obj fields)) :
    validate p db scanned = validateParsed p db (.obj fields) := by
  obtain ⟨blanks, rest, hText, hBlanks⟩ := brace_of_parse h
  have hUrl : p.parseUrl (unwrapQrPayload p scanned) = none := by
    rw [← String.ofList_toList (s := unwrapQrPayload p scanned), hText]
    exact hLawful.no_scheme blanks rest hBlanks
  have hDirect : validateDirectPay p db (unwrapQrPayload p scanned) = none := by
    rw [validateDirectPay, hUrl]
    rfl
  rw [validate]
  simp only [hDirect, h]

theorem eq_of_isText {value : Option Json} {text : String} (h : isText value text = true) :
    value = some (.str text) := by
  unfold isText at h
  split at h
  · rw [beq_iff_eq.mp h]
  · cases h

/-- Only a payload that the merchant's key verifies names a merchant. -/
theorem verified_of_merchantId {parsed : Fields} {id : Uuid}
    (h : (validateParsed p db (.obj parsed)).merchantId = some id) :
    ∃ m, db.merchants id = some m ∧ parsed.get "sig" =
      some (.str (sign p (stringify (.obj (parsed.remove "sig"))) (db.secret m))) := by
  simp only [validateParsed] at h
  split at h
  · unfold validateSigned at h
    split at h
    · split at h
      · cases h
      · cases h
      · rename_i text id' m hFound
        split_ifs at h with hStatus hSig
        · cases h
        · cases h
          refine ⟨m, ?_, eq_of_isText hSig⟩
          obtain ⟨read, -, hRow⟩ := Option.map_eq_some_iff.mp hFound
          obtain ⟨m', hRow, hSame⟩ := Option.map_eq_some_iff.mp hRow
          cases hSame
          exact hRow
        · cases h
    · cases h
  · split at h
    · unfold validateWallet at h
      split at h
      · split_ifs at h <;> cases h
      · cases h
    · cases h

/-! ### Unwrapping what is given out -/

theorem parse_of_h {text : String} {rest : List Char} (h : text.toList = 'h' :: rest) :
    parse p.number text = none :=
  parse_eq_none h (by decide) (by decide) (by decide)

theorem toList_legacyUrl (text : String) : (legacyUrl text).toList =
    'h' :: "ttps://farmpay.africa/merchant-payment/?qr=".toList ++ Base64Url.encode (utf8 text) := by
  simp [legacyUrl, MERCHANT_CHECKOUT_URL, PUBLIC_CHECKOUT_BASE_URL, toBase64Url]

theorem legacyUrl_dense (text : String) : ∀ c ∈ (legacyUrl text).toList, isSpace c = false := by
  intro c hMem
  rw [toList_legacyUrl, List.mem_append] at hMem
  rcases hMem with hFixed | hSymbol
  · have hAll : ∀ c ∈ 'h' :: "ttps://farmpay.africa/merchant-payment/?qr=".toList,
        isSpace c = false := forall_mem_of_all (by decide)
    exact hAll c hFixed
  · have hAll : ∀ c ∈ Base64Url.ALPHABET, isSpace c = false :=
      forall_mem_of_all (by decide +kernel)
    exact hAll c (Base64Url.mem_alphabet hSymbol)

theorem toBase64Url_ne_empty (p : Platform) (fields : Fields) :
    toBase64Url (stringify (.obj fields)) ≠ "" := by
  intro hEmpty
  have hDecoded := ofBase64Url_toBase64Url p (stringify (.obj fields))
  have hBlank := ofBase64Url_toBase64Url p ""
  have hSame : toBase64Url "" = "" := by decide +kernel
  rw [hEmpty] at hDecoded
  rw [hSame, hDecoded] at hBlank
  have hHead := head_stringify fields
  rw [hBlank] at hHead
  cases hHead

theorem decodeQr_toBase64Url (fields : Fields) :
    decodeQr p (toBase64Url (stringify (.obj fields))) = some (stringify (.obj fields)) := by
  obtain ⟨rest, hRest⟩ := List.head?_eq_some_iff.mp (head_stringify fields)
  rw [decodeQr, ofBase64Url_toBase64Url, hRest, List.dropWhile_cons_of_neg (by decide),
    List.head?_cons, if_pos rfl]

theorem unwrapQrPayload_legacyUrl {fields : Fields} {value : Json} (hLawful : p.Lawful)
    (h : parse p.number (stringify (.obj fields)) = some value) :
    unwrapQrPayload p (legacyUrl (stringify (.obj fields))) = stringify (.obj fields) := by
  have hUrl : truthy ((p.parseUrl (legacyUrl (stringify (.obj fields)))).bind Url.qr) =
      some (toBase64Url (stringify (.obj fields))) := by
    rw [legacyUrl, toBase64Url, hLawful.query, Option.bind_some, ← toBase64Url, truthy,
      Option.filter_some, if_pos (by simpa using toBase64Url_ne_empty p fields)]
  have hOther : stringify (.obj fields) ≠ legacyUrl (stringify (.obj fields)) := by
    intro hSame
    have hHead := head_stringify fields
    rw [hSame, toList_legacyUrl] at hHead
    cases hHead
  rw [unwrapQrPayload, trim_of_dense (legacyUrl_dense _), unwrap, parse_of_h (toList_legacyUrl _)]
  simp only [Option.isSome_none, Bool.false_eq_true, if_false, hUrl, decodeQr_toBase64Url,
    if_neg hOther, trim_stringify, unwrap_of_parse h]

theorem unwrapQrPayload_code (hLawful : p.Lawful) :
    unwrapQrPayload p (code p secret id name) = code p secret id name :=
  unwrapQrPayload_stringify (parse_code hLawful)

/-! ### The checkout URL -/

theorem toList_checkout (id : Uuid) : (PUBLIC_CHECKOUT_BASE_URL ++ "/checkout/" ++ id.text).toList =
    'h' :: "ttps://farmpay.africa/checkout/".toList ++ id.text.toList := by
  simp [PUBLIC_CHECKOUT_BASE_URL]

theorem unwrapQrPayload_checkout (hLawful : p.Lawful) :
    unwrapQrPayload p (PUBLIC_CHECKOUT_BASE_URL ++ "/checkout/" ++ id.text) =
      PUBLIC_CHECKOUT_BASE_URL ++ "/checkout/" ++ id.text := by
  have hDense : ∀ c ∈ (PUBLIC_CHECKOUT_BASE_URL ++ "/checkout/" ++ id.text).toList,
      isSpace c = false := by
    intro c hMem
    rw [toList_checkout, List.mem_append] at hMem
    rcases hMem with hFixed | hId
    · have hAll : ∀ c ∈ 'h' :: "ttps://farmpay.africa/checkout/".toList, isSpace c = false :=
        forall_mem_of_all (by decide)
      exact hAll c hFixed
    · exact Uuid.forall_text (P := fun c => isSpace c = false) (by decide) id c hId
  rw [unwrapQrPayload, trim_of_dense hDense, unwrap, parse_of_h (toList_checkout id),
    hLawful.checkout]
  rfl

/-- Its path is not the one that is looked for. -/
theorem directPayId_checkout : directPayId ("/checkout/" ++ id.text) = none := by
  have hReversed : ("/checkout/" ++ id.text).toList.reverse =
      id.text.toList.reverse ++ '/' :: "tuokcehc/".toList := by
    simp
  have hInner : ∀ c ∈ id.text.toList.reverse, (c != '/') = true := by
    intro c hMem
    exact Uuid.forall_text (P := fun c => (c != '/') = true) (by decide) id c
      (List.mem_reverse.mp hMem)
  have hHead : (id.text.toList.reverse ++ '/' :: "tuokcehc/".toList).head? ≠ some '/' := by
    intro hSlash
    rw [List.head?_append_of_ne_nil _ (by simpa using id.text_ne_nil)] at hSlash
    exact absurd (hInner _ (List.mem_of_mem_head? hSlash)) (by decide)
  have hOther : "/yap/".toList.isPrefixOf
      (('/' :: "tuokcehc/".toList).dropWhile (· != '/')) = false := by decide
  simp only [directPayId, hReversed, if_neg hHead, List.dropWhile_append_of_pos hInner, hOther,
    Bool.and_false, Bool.false_eq_true, if_false]

theorem merchantId_validateIdentifier (identifier : String) :
    (validateIdentifier p db identifier).merchantId = none := by
  rw [validateIdentifier]
  split_ifs
  · rfl
  · simp only
    split <;> rfl

theorem validate_checkout (hLawful : p.Lawful) :
    (validate p db (PUBLIC_CHECKOUT_BASE_URL ++ "/checkout/" ++ id.text)).merchantId = none := by
  have hDirect : validateDirectPay p db (PUBLIC_CHECKOUT_BASE_URL ++ "/checkout/" ++ id.text) =
      none := by
    rw [validateDirectPay, hLawful.checkout]
    simp [directPayId_checkout]
  rw [validate, unwrapQrPayload_checkout hLawful]
  simp only [hDirect, parse_of_h (toList_checkout id), merchantId_validateIdentifier]

end Payloads

/-! ### What a run gives out -/

/-- What is given out and what is stored is signed with the merchant's key; what was signed was given
out. -/
structure Sound (p : Platform) (s : State) : Prop where
  given : ∀ e ∈ s.emitted, ∃ m name, s.db.merchants e.merchantId = some m ∧
    e = emission p e.merchantId (code p (s.db.secret m) e.merchantId name)
  stored : ∀ id m text, s.db.merchants id = some m → truthy m.qrCode = some text →
    ∃ name, text = code p (s.db.secret m) id name
  signed : ∀ key data, (key, data) ∈ s.signatures → ∃ e ∈ s.emitted, ∃ secret name,
    keyOf secret = key ∧ data = stringify (.obj (payload e.merchantId name)) ∧
      e.qrPayload = code p secret e.merchantId name

section Runs
variable {p : Platform} {s : State} {id : Uuid} {m : Merchant}

theorem sound_of_fresh (h : Fresh s) : Sound p s where
  given := by simp [h.emitted]
  stored id m text hRow hText := by
    rw [h.unstored id m hRow] at hText
    cases hText
  signed := by simp [h.signatures]

namespace Sound

/-- A row that is written keeps its key, and what it stores is signed with it. -/
theorem setMerchant (id : Uuid) (m : Merchant) (h : Sound p s)
    (hSecret : ∀ old, s.db.merchants id = some old → s.db.secret m = s.db.secret old)
    (hStored : ∀ text, truthy m.qrCode = some text →
      ∃ name, text = code p (s.db.secret m) id name) :
    Sound p { s with db := s.db.setMerchant id m } where
  given e hMem := by
    obtain ⟨old, name, hRow, hCode⟩ := h.given e hMem
    by_cases hId : e.merchantId = id
    · refine ⟨m, name, by rw [hId, Db.merchants_setMerchant_self], ?_⟩
      rw [Db.secret_setMerchant, hSecret old (hId ▸ hRow)]
      exact hCode
    · refine ⟨old, name, by rw [Db.merchants_setMerchant_of_ne hId, hRow], ?_⟩
      rw [Db.secret_setMerchant]
      exact hCode
  stored other m' text hRow hText := by
    rw [Db.secret_setMerchant]
    by_cases hId : other = id
    · rw [hId, Db.merchants_setMerchant_self, Option.some.injEq] at hRow
      rw [← hRow] at hText ⊢
      rw [hId]
      exact hStored text hText
    · rw [Db.merchants_setMerchant_of_ne hId] at hRow
      exact h.stored other m' text hRow hText
  signed := h.signed

theorem emit (h : Sound p s) (name : String) (hRow : s.db.merchants id = some m) :
    Sound p { s with emitted := emission p id (code p (s.db.secret m) id name) :: s.emitted } where
  given e hMem := by
    rcases List.mem_cons.mp hMem with rfl | hOld
    · exact ⟨m, name, hRow, rfl⟩
    · exact h.given e hOld
  stored := h.stored
  signed key data hMem := by
    obtain ⟨e, hOld, hForm⟩ := h.signed key data hMem
    exact ⟨e, List.mem_cons_of_mem _ hOld, hForm⟩

theorem generate (h : Sound p s) (hRow : s.db.merchants id = some m) :
    Sound p (generateMerchantQr p id m s) := by
  have hStored := h.setMerchant id
    { m with qrCode := some (code p (s.db.secret m) id m.businessName) }
    (by rintro old hOld; cases hRow.symm.trans hOld; rfl) (by
      intro text hText
      obtain ⟨hText, -⟩ := Option.filter_eq_some_iff.mp hText
      exact ⟨m.businessName, (Option.some.inj hText).symm⟩)
  have hEmitted := hStored.emit m.businessName (s.db.merchants_setMerchant_self ..)
  refine ⟨hEmitted.given, hEmitted.stored, ?_⟩
  intro key data hMem
  rcases List.mem_cons.mp hMem with hNew | hOld
  · cases hNew
    exact ⟨_, List.mem_cons_self, s.db.secret m, m.businessName, rfl, rfl, rfl⟩
  · exact hEmitted.signed key data hOld

theorem step (h : Sound p s) (action : Action) : Sound p (step p s action) := by
  cases action with
  | generateMerchantQr id =>
    cases hRow : s.db.merchants id with
    | none => simpa only [QrCodes.step, hRow] using h
    | some m => simpa only [QrCodes.step, hRow] using h.generate hRow
  | getMerchantQr id =>
    cases hRow : s.db.merchants id with
    | none => simpa only [QrCodes.step, hRow] using h
    | some m =>
      simp only [QrCodes.step, hRow, getMerchantQr]
      cases hCode : truthy m.qrCode with
      | none => exact h.generate hRow
      | some text =>
        obtain ⟨name, rfl⟩ := h.stored id m text hRow hCode
        exact h.emit name hRow
  | apply id businessName qrSecret =>
    cases hRow : s.db.merchants id with
    | some m => simpa only [QrCodes.step, hRow] using h
    | none =>
      simp only [QrCodes.step, hRow]
      apply h.setMerchant id
      · intro old hOld
        rw [hRow] at hOld
        cases hOld
      · intro text hText
        cases hText
  | rename id businessName =>
    cases hRow : s.db.merchants id with
    | none => simpa only [QrCodes.step, hRow] using h
    | some m =>
      simp only [QrCodes.step, hRow]
      exact h.setMerchant id _ (by rintro old hOld; cases hRow.symm.trans hOld; rfl)
        (fun text hText => h.stored id m text hRow hText)
  | review id status =>
    cases hRow : s.db.merchants id with
    | none => simpa only [QrCodes.step, hRow] using h
    | some m =>
      simp only [QrCodes.step, hRow]
      exact h.setMerchant id _ (by rintro old hOld; cases hRow.symm.trans hOld; rfl)
        (fun text hText => h.stored id m text hRow hText)

theorem run {actions : List Action} (h : Sound p s) : Sound p (run p actions s) := by
  induction actions generalizing s with
  | nil => exact h
  | cons action actions ih => exact ih (h.step action)

end Sound

/-! ### An altered payload names nobody -/

theorem merchantId_of_altered {scanned : String} {parsed : Fields} (hLawful : p.Lawful)
    (hSound : Sound p s) (hText : parse p.number (unwrapQrPayload p scanned) = some (.obj parsed))
    (hUnforged : Unforged p s parsed) (hAltered : Altered p s parsed) :
    (validate p s.db scanned).merchantId = none := by
  rw [validate_object hLawful hText]
  by_contra hNamed
  obtain ⟨id, hId⟩ := Option.ne_none_iff_exists'.mp hNamed
  obtain ⟨m, hRow, hSig⟩ := verified_of_merchantId hId
  obtain ⟨e, hMem, secret, name, hKey, hData, hCode⟩ :=
    hSound.signed _ _ (hUnforged id m hRow hSig)
  have hMembers : parsed.remove "sig" = payload e.merchantId name :=
    Fields.eq_of_stringify_eq flat_payload hData
  obtain ⟨key, hKeys, hOther⟩ := hAltered e hMem _ (by rw [hCode]; exact parse_code hLawful)
  apply hOther
  by_cases hSigKey : key = "sig"
  · rw [hSigKey, hSig, get_sig, hMembers, sign, sign, hKey]
  · rw [← Fields.get_remove hSigKey, ← Fields.get_remove hSigKey (signed _ _ _ _), hMembers,
      remove_sig]

end Runs

/-! ### The forms that are scanned back -/

theorem merchant_qr_scanned_back_iff {p : Platform} (hLawful : p.Lawful) {start : State}
    (hFresh : Fresh start) (actions : List Action) :
    (∀ e ∈ (run p actions start).emitted, (run p actions start).db.Approved e.merchantId →
      ∀ form, (validate p (run p actions start).db (e.text form)).merchantId = some e.merchantId ↔
        form ≠ .checkoutUrl) ∧
      ∀ scanned parsed, parse p.number (unwrapQrPayload p scanned) = some (.obj parsed) →
        Unforged p (run p actions start) parsed → Altered p (run p actions start) parsed →
          (validate p (run p actions start).db scanned).merchantId = none := by
  have hSound : Sound p (run p actions start) := (sound_of_fresh hFresh).run
  refine ⟨?_, fun scanned parsed hText hUnforged hAltered =>
    merchantId_of_altered hLawful hSound hText hUnforged hAltered⟩
  rintro e hMem ⟨m, hRow, hApproved⟩ form
  obtain ⟨m', name, hRow', hForm⟩ := hSound.given e hMem
  cases hRow.symm.trans hRow'
  have hPayload : e.qrPayload = code p ((run p actions start).db.secret m) e.merchantId name :=
    congrArg Emission.qrPayload hForm
  have hScanned : ∀ scanned, unwrapQrPayload p scanned =
      code p ((run p actions start).db.secret m) e.merchantId name →
        (validate p (run p actions start).db scanned).merchantId = some e.merchantId := by
    intro scanned hUnwrapped
    rw [validate_object hLawful (by rw [hUnwrapped]; exact parse_code hLawful)]
    exact validateParsed_signed hLawful hRow hApproved rfl
  cases form with
  | qrPayload =>
    refine iff_of_true (hScanned _ ?_) (by decide)
    rw [Emission.text, hPayload, unwrapQrPayload_code hLawful]
  | legacyUrl =>
    refine iff_of_true (hScanned _ ?_) (by decide)
    rw [Emission.text, hPayload]
    exact unwrapQrPayload_legacyUrl hLawful (parse_code hLawful)
  | checkoutUrl =>
    refine iff_of_false ?_ (by simp)
    have hUrl : e.text .checkoutUrl =
        PUBLIC_CHECKOUT_BASE_URL ++ "/checkout/" ++ e.merchantId.text := by
      have hGiven := congrArg Emission.checkoutUrl hForm
      rw [checkoutUrl_emission, checkoutUrl_code hLawful] at hGiven
      rw [Emission.text, hGiven]
    rw [hUrl, validate_checkout hLawful]
    simp

/-! A platform, and a merchant whose business is renamed. -/

def queryValue : List Char → Option String
  | '?' :: 'q' :: 'r' :: '=' :: value => some (String.ofList value)
  | _ => none

/-- URLs of the form that is given out. -/
def plainUrl (text : String) : Option Url :=
  if "https://".toList.isPrefixOf text.toList then
    let path := (text.toList.drop 8).dropWhile (· != '/')
    some ⟨String.ofList (path.takeWhile (· != '?')), queryValue (path.dropWhile (· != '?'))⟩
  else none

def node : Platform where
  hmac := fun secret data => secret ++ "/" ++ data
  parseUrl := plainUrl
  number := fun literal => if h : isNumber literal then some ⟨literal, h⟩ else none
  malformed := fun _ => ""
  readUuid := fun text => if h : isUuid text.toList then some ⟨text, h⟩ else none
  toLowerCase := String.toLower

theorem plainUrl_https {text : String} (path query : List Char)
    (hText : text.toList = "https://farmpay.africa".toList ++ (path ++ query))
    (hPath : ∀ c ∈ path, (c != '?') = true) (hSlash : path.head? = some '/')
    (hQuery : query.takeWhile (· != '?') = []) :
    plainUrl text = some ⟨String.ofList path, queryValue query⟩ := by
  obtain ⟨rest, rfl⟩ := List.head?_eq_some_iff.mp hSlash
  have hHost : (text.toList.drop 8).dropWhile (· != '/') = ('/' :: rest) ++ query := by
    rw [hText]
    rfl
  have hPrefix : "https://".toList.isPrefixOf text.toList = true := by
    rw [hText]
    rfl
  have hKept : query.dropWhile (· != '?') = query := by
    have hSplit := query.takeWhile_append_dropWhile (p := (· != '?'))
    rwa [hQuery, List.nil_append] at hSplit
  rw [plainUrl, if_pos hPrefix]
  simp only [hHost, List.takeWhile_append_of_pos hPath, List.dropWhile_append_of_pos hPath, hQuery,
    hKept, List.append_nil]

theorem node_lawful : node.Lawful where
  number_one := rfl
  readUuid_text id := dif_pos id.valid
  no_scheme blanks rest hBlanks := by
    have hText : (String.ofList (blanks ++ '\x7b' :: rest)).toList = blanks ++ '\x7b' :: rest :=
      String.toList_ofList
    have hOther : "https://".toList.isPrefixOf (blanks ++ '\x7b' :: rest) = false := by
      cases blanks with
      | nil => rfl
      | cons c blanks =>
        have hBlank := hBlanks c List.mem_cons_self
        have hNot : ('h' == c) = false := by
          rw [beq_eq_false_iff_ne]
          rintro rfl
          exact absurd hBlank (by decide)
        simp [List.isPrefixOf, hNot]
    have hNone : ¬ "https://".toList.isPrefixOf
        (String.ofList (blanks ++ '\x7b' :: rest)).toList = true := by
      rw [hText, hOther]
      exact Bool.false_ne_true
    exact if_neg hNone
  checkout id := by
    have hPath : ∀ c ∈ "/checkout/".toList ++ id.text.toList, (c != '?') = true := by
      rw [List.forall_mem_append]
      exact ⟨forall_mem_of_all (by decide),
        Uuid.forall_text (P := fun c => (c != '?') = true) (by decide) id⟩
    have hUrl := plainUrl_https _ [] (by rw [List.append_nil, toList_checkout]; rfl) hPath rfl rfl
    rwa [String.ofList_append, String.ofList_toList, String.ofList_toList] at hUrl
  query bytes := by
    have hText : (MERCHANT_CHECKOUT_URL ++ "?qr=" ++
        String.ofList (Base64Url.encode bytes)).toList = "https://farmpay.africa".toList ++
          ("/merchant-payment/".toList ++ ("?qr=".toList ++ Base64Url.encode bytes)) := by
      simp [MERCHANT_CHECKOUT_URL, PUBLIC_CHECKOUT_BASE_URL]
    exact plainUrl_https _ _ hText (forall_mem_of_all (by decide)) rfl rfl

def shop : Uuid := ⟨"3f2b8c1e-9a4d-4e7b-8c21-5d6f7a8b9c0d", by decide +kernel⟩

def blank : State := ⟨⟨fun _ => none, fun _ _ => none, fun _ => false, ""⟩, [], []⟩

/-- The business is renamed after its code was given out. -/
def renamed : State :=
  run node [.apply shop "Shop" "k", .review shop .approved, .generateMerchantQr shop,
    .rename shop "Café"] blank

theorem fresh_blank : Fresh blank where
  emitted := rfl
  signatures := rfl
  unstored _ _ hRow := by cases hRow

theorem truthy_key : truthy (some "k") = some "k" := rfl

theorem emitted_renamed :
    renamed.emitted = [emission node shop (code node "k" shop "Shop")] := by
  simp [renamed, run, step, blank, generateMerchantQr, Db.secret, truthy_key, code]

theorem merchants_renamed (id : Uuid) : renamed.db.merchants id =
    if id = shop then some ⟨"Café", some (code node "k" shop "Shop"), some "k", .approved, 0, 0⟩
    else none := by
  by_cases hId : id = shop
  · rw [if_pos hId, hId]
    simp [renamed, run, step, blank, generateMerchantQr, Db.secret, truthy_key, code]
  · rw [if_neg hId]
    simp [renamed, run, step, blank, generateMerchantQr, hId, Db.merchants_setMerchant_of_ne]

theorem approved_renamed : renamed.db.Approved shop :=
  ⟨_, by rw [merchants_renamed, if_pos rfl], rfl⟩

/-- The code with another name on it. -/
def relabelled : Fields :=
  members shop.text "Bank" (sign node (stringify (.obj (payload shop "Shop"))) "k")

theorem parse_relabelled : parse node.number (stringify (.obj relabelled)) = some (.obj relabelled) :=
  parse_members node_lawful ..

theorem remove_relabelled : relabelled.remove "sig" = payload shop "Bank" := by
  simp [relabelled, members, payload, Fields.remove]

theorem get_relabelled : relabelled.get "sig" =
    some (.str (sign node (stringify (.obj (payload shop "Shop"))) "k")) := by
  simp [relabelled, members, Fields.get]

theorem altered_relabelled : Altered node renamed relabelled := by
  intro e hMem fields hFields
  rw [emitted_renamed, List.mem_singleton] at hMem
  rw [hMem] at hFields
  cases (parse_code node_lawful).symm.trans hFields
  refine ⟨"business_name", by simp, ?_⟩
  simp [relabelled, members, signed, payload, Fields.append, Fields.get]

theorem unforged_relabelled : Unforged node renamed relabelled := by
  intro id m hRow data hSig
  rw [merchants_renamed] at hRow
  split_ifs at hRow with hId
  cases hRow
  have hSigned : sign node (stringify (.obj (payload shop "Shop"))) "k" =
      sign node (stringify (.obj (payload shop "Bank"))) "k" := by
    simp only [data, get_relabelled, remove_relabelled, Option.some.injEq, Json.str.injEq] at hSig
    exact hSig
  have hSame : stringify (.obj (payload shop "Shop")) = stringify (.obj (payload shop "Bank")) :=
    String.append_right_inj _ |>.mp hSigned
  have hFields := Fields.eq_of_stringify_eq flat_payload hSame
  simp [payload] at hFields

theorem renamed_merchant_scanned_back :
    (∀ form, (validate node renamed.db
      ((emission node shop (code node "k" shop "Shop")).text form)).merchantId = some shop ↔
        form ≠ .checkoutUrl) ∧
      (validate node renamed.db (stringify (.obj relabelled))).merchantId = none := by
  have hBoth := merchant_qr_scanned_back_iff node_lawful fresh_blank
    [.apply shop "Shop" "k", .review shop .approved, .generateMerchantQr shop, .rename shop "Café"]
  refine ⟨hBoth.1 (emission node shop (code node "k" shop "Shop")) ?_ approved_renamed,
    hBoth.2 _ relabelled ?_ unforged_relabelled altered_relabelled⟩
  · exact emitted_renamed ▸ List.mem_singleton_self _
  · rw [unwrapQrPayload_stringify parse_relabelled]
    exact parse_relabelled

/-- The URL that is drawn into the image is looked up as the name of a user. -/
theorem checkout_url_not_scanned :
    ∃ e ∈ renamed.emitted, renamed.db.Approved e.merchantId ∧
      e.checkoutUrl = "https://farmpay.africa/checkout/3f2b8c1e-9a4d-4e7b-8c21-5d6f7a8b9c0d" ∧
        (validate node renamed.db e.checkoutUrl).merchantId = none := by
  refine ⟨emission node shop (code node "k" shop "Shop"), ?_, approved_renamed, ?_, ?_⟩
  · rw [emitted_renamed]
    exact List.mem_singleton_self _
  · rw [checkoutUrl_emission, checkoutUrl_code node_lawful]
    decide +kernel
  · rw [checkoutUrl_emission, checkoutUrl_code node_lawful]
    exact validate_checkout node_lawful

end FarmBackend.QrCodes
