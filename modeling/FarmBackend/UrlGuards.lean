import FarmBackend.IpAddresses

/-!
# `assertSafeWebhookUrl` and `assertSafeUrl`

The parser of URLs, `dns.lookup` and `isIPv6` are parameters. The host of a parsed URL is an address
in its canonical text or a domain name, and a lookup answers addresses in that text.
-/

namespace FarmBackend.UrlGuards
open IpAddresses

set_option autoImplicit false

/-- `s.startsWith(p)`. -/
def startsWith (s : List Char) (p : String) : Bool := p.toList.isPrefixOf s

/-- `s.endsWith(p)`. -/
def endsWith (s : List Char) (p : String) : Bool := p.toList.isSuffixOf s

def toLowerCase (s : List Char) : List Char := s.map Char.toLower

/-- `Number` of a part of a dotted text: digits, or no number. -/
def number (part : List Char) : Option ℕ :=
  if part.all Char.isDigit then some (Nat.ofDigitChars 10 part 0) else none

/-- `lo <= p && p <= hi`, which no number is not. -/
def within (p : Option ℕ) (lo hi : ℕ) : Bool := p.any fun n => decide (lo ≤ n) && decide (n ≤ hi)

/-- A byte in decimal digits, without leading zeros. -/
def isByte (part : List Char) : Bool :=
  !part.isEmpty && part.all Char.isDigit && (part.length == 1 || part.head? != some '0') &&
    decide (Nat.ofDigitChars 10 part 0 < 256)

/-- `isIP(s) === 4`. -/
def isIPv4 (s : List Char) : Bool :=
  match s.splitOn '.' with
  | [a, b, c, d] => isByte a && isByte b && isByte c && isByte d
  | _ => false

/-! ## The guard of the webhooks -/

def privateAddress (ip : List Char) : Bool :=
  if ip == "::1".toList || ip == "::".toList || startsWith ip "fe80" || startsWith ip "fc" ||
      startsWith ip "fd" then
    true
  else
    let v4 := if startsWith ip "::ffff:" then ip.drop 7 else ip
    match (v4.splitOn '.').map number with
    | [p₀, p₁, _, _] =>
      p₀ == some 10 || p₀ == some 127 || p₀ == some 0 || (p₀ == some 169 && p₁ == some 254) ||
        (p₀ == some 172 && within p₁ 16 31) || (p₀ == some 192 && p₁ == some 168) ||
        (p₀ == some 100 && within p₁ 64 127)
    | _ => false

/-! ## The guard of the upstreams -/

/-- The version 4 part of `isPublicIp`, on the first two numbers. -/
def isPublicV4 (a b : ℕ) : Bool :=
  if a = 0 ∨ a = 10 ∨ a = 127 ∨ 224 ≤ a then false
  else if a = 169 ∧ b = 254 then false
  else if a = 172 ∧ 16 ≤ b ∧ b ≤ 31 then false
  else if a = 192 ∧ b = 168 then false
  else if a = 100 ∧ 64 ≤ b ∧ b ≤ 127 then false
  else if a = 192 ∧ b = 0 then false
  else if a = 198 ∧ (b = 18 ∨ b = 19) then false
  else true

/-- `/^f[cd]/.test(v) || /^fe[89ab]/.test(v) || v.startsWith('ff')`. -/
def isReserved (v : List Char) : Bool :=
  ["fc", "fd", "fe8", "fe9", "fea", "feb", "ff"].any (startsWith v)

def isPublicIp (ip : List Char) : Bool :=
  if isIPv4 ip then
    match (ip.splitOn '.').map number with
    | some a :: some b :: _ => isPublicV4 a b
    | _ => true
  else if toLowerCase ip == "::".toList || toLowerCase ip == "::1".toList then
    false
  else if startsWith (toLowerCase ip) "::ffff:" then
    isPublicIp ((toLowerCase ip).drop 7)
  else
    !isReserved (toLowerCase ip)
termination_by ip.length
decreasing_by
  rename_i hMapped
  have hLong := (List.isPrefixOf_iff_prefix.mp hMapped).length_le
  have hLower : (toLowerCase ip).length = ip.length := List.length_map _
  rw [List.length_drop]
  have hSeven : "::ffff:".toList.length = 7 := rfl
  omega

/-! ## URLs -/

/-- A name is no address, and has none of the characters that stand around one. -/
structure DomainName where
  name : List Char
  not_v4 : isIPv4 name = false
  no_colon : ':' ∉ name
  no_bracket : '[' ∉ name ∧ ']' ∉ name

inductive Host where
  | address (address : Address)
  | domain (domain : DomainName)

/-- What the guards read of a parsed URL. -/
structure Url where
  protocol : String
  username : String
  password : String
  host : Host

def Host.hostname : Host → List Char
  | .address (.v4 a b c d) => (Address.v4 a b c d).text
  | .address (.v6 groups) => '[' :: ((Address.v6 groups).text ++ [']'])
  | .domain d => d.name

/-- `hostname.replace(/^\[|\]$/g, '')`. -/
def unbracket (hostname : List Char) : List Char :=
  let opened := if hostname.head? = some '[' then hostname.tail else hostname
  if opened.getLast? = some ']' then opened.dropLast else opened

/-- `localhost`, or a name that ends in `.local` or `.internal`. -/
def isLocalName (host : List Char) : Bool :=
  host == "localhost".toList || endsWith host ".local" || endsWith host ".internal"

section Guards
variable (isIPv6 : List Char → Bool) (parse : String → Option Url)
  (lookup : List Char → Option (List Address))

/-- `isIP(host)` is not 0. -/
def isIP (host : List Char) : Bool := isIPv4 host || isIPv6 host

/-- The texts that the guards check: the host itself or what a lookup of it gives, none if that
fails. -/
def ipsOf (host : List Char) : List (List Char) :=
  if isIP isIPv6 host then [host] else ((lookup host).getD []).map Address.text

def assertSafeWebhookUrl (raw : String) : Except String Unit :=
  match parse raw with
  | none => .error "Webhook URL is not valid"
  | some u =>
    let host := unbracket u.host.hostname
    if u.protocol ≠ "https:" then
      .error "Webhook URL must use https"
    else if isLocalName host then
      .error "Webhook URL must be a public host"
    else if (ipsOf isIPv6 lookup host).isEmpty then
      .error "Webhook host could not be resolved"
    else if (ipsOf isIPv6 lookup host).any privateAddress then
      .error "Webhook URL must be a public host"
    else
      .ok ()

def assertSafeUrl (raw : String) : Except String Url :=
  match parse raw with
  | none => .error "Invalid URL"
  | some u =>
    let host := unbracket u.host.hostname
    if u.protocol ≠ "https:" then
      .error "Upstream URL must be https"
    else if u.username ≠ "" ∨ u.password ≠ "" then
      .error "Upstream URL must not contain credentials"
    else if isLocalName (toLowerCase host) then
      .error "Upstream host is not public"
    else if (ipsOf isIPv6 lookup host).isEmpty then
      .error "Upstream host does not resolve"
    else if (ipsOf isIPv6 lookup host).any fun a => !isPublicIp a then
      .error "Upstream host is not public"
    else
      .ok u

end Guards

/-- The addresses of a host. -/
def Host.addresses (lookup : List Char → Option (List Address)) : Host → List Address
  | .address a => [a]
  | .domain d => (lookup d.name).getD []

/-- What `isIPv6` is known for: it takes the canonical texts, and nothing without a colon. -/
structure KnowsIPv6 (isIPv6 : List Char → Bool) : Prop where
  accepts : ∀ groups, isIPv6 (Address.v6 groups).text = true
  colon : ∀ s, ':' ∉ s → isIPv6 s = false

/-! ## Texts -/

theorem startsWith_cons_of_ne {c d : Char} {s cs : List Char} {p : String}
    (hPrefix : p.toList = d :: cs) (hNe : d ≠ c) : startsWith (c :: s) p = false := by
  rw [startsWith, hPrefix, List.isPrefixOf, beq_false_of_ne hNe, Bool.false_and]

theorem text_v4_cons (a b c d : Fin 256) :
    ∃ e s, (Address.v4 a b c d).text = e :: s ∧ e.isDigit := by
  rw [Address.text]
  cases hFirst : decimal a with
  | nil => exact absurd hFirst (decimal_ne_nil a)
  | cons e s => exact ⟨e, _, rfl, isDigit_of_mem_decimal (by rw [hFirst]; exact List.mem_cons_self)⟩

theorem isDigit_ne {c d : Char} (hDigit : c.isDigit) (hNot : d.isDigit = false) : d ≠ c := by
  rintro rfl
  rw [hNot] at hDigit
  cases hDigit

theorem point_not_mem_decimal (n : ℕ) : '.' ∉ decimal n := by
  intro hMem
  exact absurd rfl (isDigit_ne (d := '.') (isDigit_of_mem_decimal hMem) rfl)

theorem splitOn_v4 (a b c d : Fin 256) :
    (Address.v4 a b c d).text.splitOn '.' = [decimal a, decimal b, decimal c, decimal d] := by
  rw [Address.text, List.splitOn_append_cons_self_of_not_mem (point_not_mem_decimal a),
    List.splitOn_append_cons_self_of_not_mem (point_not_mem_decimal b),
    List.splitOn_append_cons_self_of_not_mem (point_not_mem_decimal c),
    List.splitOn_eq_singleton (point_not_mem_decimal d)]

theorem number_decimal (n : ℕ) : number (decimal n) = some n := by
  have hDigits : (decimal n).all Char.isDigit = true := by
    rw [List.all_eq_true]
    intro c hc
    exact isDigit_of_mem_decimal hc
  rw [number, if_pos hDigits, decimal, Nat.ofDigitChars_ten_toDigits]

theorem isByte_decimal : ∀ n : Fin 256, isByte (decimal n) = true := by decide +kernel

theorem isIPv4_v4 (a b c d : Fin 256) : isIPv4 (Address.v4 a b c d).text = true := by
  rw [isIPv4, splitOn_v4]
  simp only [isByte_decimal, Bool.and_self]

/-- A text without a point has one part. -/
theorem splitOn_of_no_point {s : List Char} (hText : ∀ c ∈ s, c ≠ '.' ∧ c.toLower = c) :
    s.splitOn '.' = [s] := by
  apply List.splitOn_eq_singleton
  intro hMem
  exact (hText '.' hMem).1 rfl

theorem isIPv4_of_no_point {s : List Char} (hText : ∀ c ∈ s, c ≠ '.' ∧ c.toLower = c) :
    isIPv4 s = false := by
  rw [isIPv4, splitOn_of_no_point hText]

theorem toLowerCase_eq {s : List Char} (hText : ∀ c ∈ s, c ≠ '.' ∧ c.toLower = c) :
    toLowerCase s = s := by
  rw [toLowerCase]
  exact (List.map_congr_left fun c hc => (hText c hc).2).trans (List.map_id s)

/-- `isPublicIp` of a small hexadecimal text. -/
theorem isPublicIp_of_no_point {s : List Char} (hText : ∀ c ∈ s, c ≠ '.' ∧ c.toLower = c) :
    isPublicIp s =
      if s == "::".toList || s == "::1".toList then false
      else if startsWith s "::ffff:" then isPublicIp (s.drop 7)
      else !isReserved s := by
  rw [isPublicIp, isIPv4_of_no_point hText, toLowerCase_eq hText]
  rfl

/-! ## The first group -/

/-- The digits of a group of four digits, from those of its first two. -/
theorem hex_of_high {g high : ℕ} (hHigh : g / 256 = high) (hZero : high ≠ 0) :
    ∃ c d, hex g = hex high ++ [c, d] := by
  have hLong : 16 ≤ g := by omega
  have hMiddle : 16 ≤ g / 16 := by omega
  have hTwice : g / 16 / 16 = high := by omega
  rw [hex_of_le hLong, hex_of_le hMiddle, hTwice, List.append_assoc]
  exact ⟨_, _, rfl⟩

theorem hex_uniqueLocal {g : ℕ} (hFrom : 0xfc00 ≤ g) (hTo : g ≤ 0xfdff) :
    ∃ c d, hex g = ['f', 'c', c, d] ∨ hex g = ['f', 'd', c, d] := by
  have hHigh : g / 256 = 0xfc ∨ g / 256 = 0xfd := by omega
  rcases hHigh with hHigh | hHigh
  · obtain ⟨c, d, hHex⟩ := hex_of_high hHigh (by decide)
    exact ⟨c, d, .inl hHex⟩
  · obtain ⟨c, d, hHex⟩ := hex_of_high hHigh (by decide)
    exact ⟨c, d, .inr hHex⟩

/-- Of the link-local groups only the first is written `fe80`. -/
theorem hex_linkLocal : ∀ k < 64, ∃ c ∈ ['8', '9', 'a', 'b'], ∃ d,
    hex (0xfe80 + k) = ['f', 'e', c, d] ∧ ((c = '8' ∧ d = '0') ↔ k = 0) := by
  have hDigits : ∀ k < 64, hex (0xfe80 + k) =
      ['f', 'e', (8 + k / 16).digitChar, (k % 16).digitChar] := by decide +kernel
  have hKinds : ∀ k < 64, (8 + k / 16).digitChar ∈ ['8', '9', 'a', 'b'] ∧
      (((8 + k / 16).digitChar = '8' ∧ (k % 16).digitChar = '0') ↔ k = 0) := by decide +kernel
  intro k hk
  exact ⟨_, (hKinds k hk).1, _, hDigits k hk, (hKinds k hk).2⟩

/-! ## Which internal addresses the guards catch -/

/-- A mapped address that embeds an internal one, and link-local addresses beyond the first group. -/
def WebhookMisses (a : Address) : Prop :=
  ∃ groups, a = .v6 groups ∧
    ((∃ x y, groups.Mapped x y ∧ InternalV4 (x / 256) (x % 256)) ∨
      ∃ g rest, groups.list = g :: rest ∧ 0xfe80 < g ∧ g ≤ 0xfebf)

/-- A mapped address that embeds an internal one; what is left of the text of those that embed
0.252, 0.253 and 0.255 looks reserved. -/
def SafeUrlMisses (a : Address) : Prop :=
  ∃ groups x y, a = .v6 groups ∧ groups.Mapped x y ∧ InternalV4 (x / 256) (x % 256) ∧
    x ∉ [0xfc, 0xfd, 0xff]

theorem privateAddress_v4 (a b c d : Fin 256) :
    privateAddress (Address.v4 a b c d).text = true ↔ InternalV4 a b := by
  obtain ⟨e, s, hText, hDigit⟩ := text_v4_cons a b c d
  have hColon : ':' ≠ e := isDigit_ne hDigit rfl
  have hF : 'f' ≠ e := isDigit_ne hDigit rfl
  have hSplit := splitOn_v4 a b c d
  rw [hText] at hSplit ⊢
  have hOne : (e :: s == "::1".toList) = false := by
    rw [beq_eq_false_iff_ne]
    intro hEq
    exact hColon (List.cons.inj hEq).1.symm
  have hTwo : (e :: s == "::".toList) = false := by
    rw [beq_eq_false_iff_ne]
    intro hEq
    exact hColon (List.cons.inj hEq).1.symm
  rw [privateAddress, hOne, hTwo, startsWith_cons_of_ne (p := "fe80") rfl hF,
    startsWith_cons_of_ne (p := "fc") rfl hF, startsWith_cons_of_ne (p := "fd") rfl hF,
    startsWith_cons_of_ne (p := "::ffff:") rfl hColon]
  simp only [Bool.or_self, Bool.false_eq_true, if_false, hSplit, List.map_cons, List.map_nil,
    number_decimal, within, Option.any_some, InternalV4]
  simp only [Bool.or_eq_true, Bool.and_eq_true, beq_iff_eq, Option.some.injEq, decide_eq_true_eq]
  omega

/-- A text without a point is private by its first letters alone. -/
theorem privateAddress_of_no_point {s : List Char} (hText : ∀ c ∈ s, c ≠ '.' ∧ c.toLower = c) :
    privateAddress s = (s == "::1".toList || s == "::".toList || startsWith s "fe80" ||
      startsWith s "fc" || startsWith s "fd") := by
  have hRest : ∀ c ∈ s.drop 7, c ≠ '.' ∧ c.toLower = c := by
    intro c hc
    exact hText c (List.mem_of_mem_drop hc)
  rw [privateAddress]
  split
  · rename_i hCaught
    exact hCaught.symm
  · rename_i hNot
    rw [Bool.not_eq_true] at hNot
    rw [hNot]
    split
    · simp only [splitOn_of_no_point hRest, List.map_cons, List.map_nil]
    · simp only [splitOn_of_no_point hText, List.map_cons, List.map_nil]

/-- The text of a version 6 address whose first group is not zero. -/
theorem text_of_first {groups : Groups} {g : ℕ} {rest : List ℕ} (hList : groups.list = g :: rest)
    (hFirst : g ≠ 0) : ∃ tail, (Address.v6 groups).text = hex g ++ ':' :: tail := by
  cases rest with
  | nil =>
    have hLength := groups.length_eq
    rw [hList] at hLength
    cases hLength
  | cons h rest =>
    rw [Address.text, hList]
    exact hexText_of_first hFirst

theorem text_mapped {groups : Groups} {x y : ℕ} (hMapped : groups.Mapped x y) :
    (Address.v6 groups).text = "::ffff:".toList ++ (hex x ++ ':' :: hex y) := by
  rw [Address.text, hMapped, hexText_mapped]
  rfl

theorem no_point_text (groups : Groups) :
    ∀ c ∈ (Address.v6 groups).text, c ≠ '.' ∧ c.toLower = c := mem_hexText groups.list

theorem privateAddress_linkLocal {groups : Groups} {g : ℕ} {rest : List ℕ}
    (hList : groups.list = g :: rest) (hFrom : 0xfe80 ≤ g) (hTo : g ≤ 0xfebf) :
    privateAddress (Address.v6 groups).text = true ↔ g = 0xfe80 := by
  obtain ⟨k, rfl⟩ := Nat.exists_eq_add_of_le hFrom
  obtain ⟨tail, hText⟩ := text_of_first hList (by omega)
  obtain ⟨c, -, d, hHex, hFirst⟩ := hex_linkLocal k (by omega)
  rw [privateAddress_of_no_point (no_point_text groups), hText, hHex]
  have hSelf : 0xfe80 + k = 0xfe80 ↔ k = 0 := by omega
  rw [hSelf, ← hFirst]
  -- Of the five tests only `fe80` looks beyond the first two letters.
  change (false || false || ('8' == c && ('0' == d && true)) || false || false) = true ↔ _
  simp only [Bool.or_false, Bool.false_or, Bool.and_true, Bool.and_eq_true, beq_iff_eq]
  rw [eq_comm, @eq_comm _ '0']

theorem privateAddress_mapped {groups : Groups} {x y : ℕ} (hMapped : groups.Mapped x y) :
    privateAddress (Address.v6 groups).text = false := by
  rw [privateAddress_of_no_point (no_point_text groups), text_mapped hMapped]
  rfl

/-- The first group tells a mapped address from the others. -/
theorem not_misses_of_first {groups : Groups} {g : ℕ} {rest : List ℕ}
    (hList : groups.list = g :: rest) (hFirst : g ≠ 0) (hOther : g ≤ 0xfe80 ∨ 0xfebf < g) :
    ¬ WebhookMisses (.v6 groups) := by
  rintro ⟨_, hSame, ⟨x, y, hMapped, -⟩ | ⟨g', rest', hList', hFrom, hTo⟩⟩
  · cases hSame
    rw [Groups.Mapped, hList] at hMapped
    exact hFirst (List.cons.inj hMapped).1
  · cases hSame
    rw [hList] at hList'
    obtain ⟨rfl, -⟩ := List.cons.inj hList'
    omega

/-- The guard of the webhooks catches the internal addresses that it does not miss. -/
theorem privateAddress_iff {a : Address} (hInternal : Internal a) :
    privateAddress a.text = true ↔ ¬ WebhookMisses a := by
  cases hInternal with
  | v4 hRange =>
    constructor
    · rintro - ⟨groups, hSame, -⟩
      cases hSame
    · intro _
      exact (privateAddress_v4 _ _ _ _).mpr hRange
  | @loopback groups hList =>
    constructor
    · rintro - ⟨_, hSame, ⟨x, y, hMapped, -⟩ | ⟨g, rest, hFirst, hFrom, -⟩⟩
      · cases hSame
        rw [Groups.Mapped, hList] at hMapped
        simp at hMapped
      · cases hSame
        rw [hList] at hFirst
        have hZero := (List.cons.inj hFirst).1
        omega
    · intro _
      rw [Address.text, hList, hexText_loopback]
      rfl
  | @unspecified groups hList =>
    constructor
    · rintro - ⟨_, hSame, ⟨x, y, hMapped, -⟩ | ⟨g, rest, hFirst, hFrom, -⟩⟩
      · cases hSame
        rw [Groups.Mapped, hList] at hMapped
        simp at hMapped
      · cases hSame
        rw [hList] at hFirst
        have hZero := (List.cons.inj hFirst).1
        omega
    · intro _
      rw [Address.text, hList, hexText_unspecified]
      rfl
  | @uniqueLocal groups g rest hList hFrom hTo =>
    constructor
    · intro _
      exact not_misses_of_first hList (by omega) (.inl (by omega))
    · intro _
      obtain ⟨tail, hText⟩ := text_of_first hList (by omega)
      obtain ⟨c, d, hHex⟩ := hex_uniqueLocal hFrom hTo
      rw [privateAddress_of_no_point (no_point_text groups), hText]
      rcases hHex with hHex | hHex
      · rw [hHex]
        rfl
      · rw [hHex]
        rfl
  | @linkLocal groups g rest hList hFrom hTo =>
    rw [privateAddress_linkLocal hList hFrom hTo]
    constructor
    · rintro rfl
      exact not_misses_of_first hList (by decide) (.inl (by decide))
    · intro hKept
      by_contra hOther
      exact hKept ⟨groups, rfl, .inr ⟨g, rest, hList, by omega, hTo⟩⟩
  | @mapped groups x y hMapped hRange =>
    rw [privateAddress_mapped hMapped]
    constructor
    · intro hFalse
      cases hFalse
    · intro hKept
      exact absurd ⟨groups, rfl, .inl ⟨x, y, hMapped, hRange⟩⟩ hKept

theorem isPublicIp_v4 {a b c d : Fin 256} (hRange : InternalV4 a b) :
    isPublicIp (Address.v4 a b c d).text = false := by
  rw [isPublicIp, if_pos (isIPv4_v4 a b c d), splitOn_v4]
  simp only [List.map_cons, number_decimal, isPublicV4]
  rw [InternalV4] at hRange
  rcases hRange with h | h | h | ⟨h, hLow, hHigh⟩ | ⟨h, hb⟩ | ⟨h, hb⟩ | ⟨h, hLow, hHigh⟩
  · simp [h]
  · simp [h]
  · simp [h]
  · simp [h, hLow, hHigh]
  · simp [h, hb]
  · simp [h, hb]
  · simp [h, hLow, hHigh]

/-- A text that begins with a digit other than a colon is public unless it looks reserved. -/
theorem isPublicIp_of_first {c : Char} {s : List Char} (hColon : c ≠ ':')
    (hText : ∀ d ∈ c :: s, d ≠ '.' ∧ d.toLower = d) :
    isPublicIp (c :: s) = !isReserved (c :: s) := by
  have hOne : (c :: s == "::".toList) = false := by
    rw [beq_eq_false_iff_ne]
    intro hEq
    exact hColon (List.cons.inj hEq).1
  have hTwo : (c :: s == "::1".toList) = false := by
    rw [beq_eq_false_iff_ne]
    intro hEq
    exact hColon (List.cons.inj hEq).1
  rw [isPublicIp_of_no_point hText, hOne, hTwo,
    startsWith_cons_of_ne (p := "::ffff:") rfl (Ne.symm hColon)]
  rfl

theorem isReserved_of_prefix {s : List Char} {p : String}
    (hPrefix : p ∈ ["fc", "fd", "fe8", "fe9", "fea", "feb", "ff"]) (hStarts : startsWith s p = true) :
    isReserved s = true :=
  List.any_eq_true.mpr ⟨p, hPrefix, hStarts⟩

theorem isReserved_cons_of_ne {c : Char} {s : List Char} (hFirst : 'f' ≠ c) :
    isReserved (c :: s) = false := by
  simp only [isReserved, List.any_cons, List.any_nil, startsWith_cons_of_ne (p := "fc") rfl hFirst,
    startsWith_cons_of_ne (p := "fd") rfl hFirst, startsWith_cons_of_ne (p := "fe8") rfl hFirst,
    startsWith_cons_of_ne (p := "fe9") rfl hFirst, startsWith_cons_of_ne (p := "fea") rfl hFirst,
    startsWith_cons_of_ne (p := "feb") rfl hFirst, startsWith_cons_of_ne (p := "ff") rfl hFirst,
    Bool.or_self]

/-- Two digits and a colon look reserved in three cases, one digit and a colon in none. -/
theorem isReserved_short : ∀ x < 256, ∀ tail,
    isReserved (hex x ++ ':' :: tail) = decide (x ∈ [0xfc, 0xfd, 0xff]) := by
  intro x hx tail
  rcases Nat.lt_or_ge x 16 with hOne | hTwo
  · rw [hex_of_lt hOne]
    have hDigit : ∀ d < 16, (∀ t, isReserved (d.digitChar :: ':' :: t) = false) ∧
        d ∉ [0xfc, 0xfd, 0xff] := by
      intro d hd
      interval_cases d <;> exact ⟨fun t => rfl, by decide⟩
    rw [decide_eq_false (hDigit x hOne).2]
    exact (hDigit x hOne).1 tail
  · rw [hex_of_le hTwo, hex_of_lt (by omega)]
    by_cases hHigh : x / 16 = 15
    · have hDigit : ∀ d < 16, ∀ t, isReserved ((15 : ℕ).digitChar :: d.digitChar :: ':' :: t) =
          decide (240 + d ∈ [0xfc, 0xfd, 0xff]) := by
        intro d hd t
        interval_cases d <;> rfl
      have hSum : x = 240 + x % 16 := by omega
      rw [hHigh]
      have hLast := hDigit (x % 16) (by omega) tail
      rw [← hSum] at hLast
      exact hLast
    · have hDigit : ∀ d < 15, 'f' ≠ d.digitChar := by decide
      have hFirst : 'f' ≠ (x / 16).digitChar := hDigit (x / 16) (by omega)
      rw [decide_eq_false (by simp only [List.mem_cons, List.not_mem_nil, or_false]; omega)]
      exact isReserved_cons_of_ne hFirst

/-- What is left of the text of a mapped address that embeds an internal one. -/
theorem isReserved_mapped {x : ℕ} {tail : List Char} (hRange : InternalV4 (x / 256) (x % 256)) :
    isReserved (hex x ++ ':' :: tail) = decide (x ∈ [0xfc, 0xfd, 0xff]) := by
  rcases Nat.lt_or_ge x 256 with hShort | hLong
  · exact isReserved_short x hShort tail
  · obtain ⟨c, d, hHex⟩ := hex_of_high (rfl : x / 256 = x / 256) (by omega)
    have hFirst : ∀ high ∈ [127, 10, 172, 192, 169, 100],
        ∃ e s, hex high = e :: s ∧ 'f' ≠ e := by
      intro high hHigh
      simp only [List.mem_cons, List.not_mem_nil, or_false] at hHigh
      rcases hHigh with rfl | rfl | rfl | rfl | rfl | rfl <;> exact ⟨_, _, rfl, by decide⟩
    have hHigh : x / 256 ∈ [127, 10, 172, 192, 169, 100] := by
      simp only [List.mem_cons, List.not_mem_nil, or_false]
      rw [InternalV4] at hRange
      omega
    obtain ⟨e, s, hText, hNe⟩ := hFirst _ hHigh
    rw [hHex, hText, decide_eq_false (by
      simp only [List.mem_cons, List.not_mem_nil, or_false]
      omega)]
    exact isReserved_cons_of_ne hNe

theorem isPublicIp_mapped {groups : Groups} {x y : ℕ} (hMapped : groups.Mapped x y) :
    isPublicIp (Address.v6 groups).text = !isReserved (hex x ++ ':' :: hex y) := by
  have hText := no_point_text groups
  rw [text_mapped hMapped] at hText ⊢
  have hRest : ∀ c ∈ hex x ++ ':' :: hex y, c ≠ '.' ∧ c.toLower = c := by
    intro c hc
    exact hText c (List.mem_append_right _ hc)
  have hStep : isPublicIp ("::ffff:".toList ++ (hex x ++ ':' :: hex y)) =
      isPublicIp (hex x ++ ':' :: hex y) := by
    rw [isPublicIp_of_no_point hText]
    rfl
  rw [hStep]
  cases hFirst : hex x with
  | nil => exact absurd hFirst (hex_ne_nil x)
  | cons c s =>
    have hColon := (mem_hex x c (by rw [hFirst]; exact List.mem_cons_self)).1
    rw [hFirst] at hRest
    exact isPublicIp_of_first hColon hRest

theorem isPublicIp_linkLocal {groups : Groups} {g : ℕ} {rest : List ℕ}
    (hList : groups.list = g :: rest) (hFrom : 0xfe80 ≤ g) (hTo : g ≤ 0xfebf) :
    isPublicIp (Address.v6 groups).text = false := by
  obtain ⟨k, rfl⟩ := Nat.exists_eq_add_of_le hFrom
  obtain ⟨tail, hText⟩ := text_of_first hList (by omega)
  obtain ⟨c, hc, d, hHex, -⟩ := hex_linkLocal k (by omega)
  have hKeep := no_point_text groups
  rw [hText, hHex] at hKeep ⊢
  rw [List.cons_append] at hKeep ⊢
  rw [isPublicIp_of_first (by decide) hKeep, Bool.not_eq_false']
  simp only [List.mem_cons, List.not_mem_nil, or_false] at hc
  rcases hc with rfl | rfl | rfl | rfl
  · exact isReserved_of_prefix (p := "fe8") (by decide) rfl
  · exact isReserved_of_prefix (p := "fe9") (by decide) rfl
  · exact isReserved_of_prefix (p := "fea") (by decide) rfl
  · exact isReserved_of_prefix (p := "feb") (by decide) rfl

theorem isPublicIp_uniqueLocal {groups : Groups} {g : ℕ} {rest : List ℕ}
    (hList : groups.list = g :: rest) (hFrom : 0xfc00 ≤ g) (hTo : g ≤ 0xfdff) :
    isPublicIp (Address.v6 groups).text = false := by
  obtain ⟨tail, hText⟩ := text_of_first hList (by omega)
  have hKeep := no_point_text groups
  obtain ⟨c, d, hHex | hHex⟩ := hex_uniqueLocal hFrom hTo
  · rw [hText, hHex] at hKeep ⊢
    rw [List.cons_append] at hKeep ⊢
    rw [isPublicIp_of_first (by decide) hKeep, Bool.not_eq_false']
    exact isReserved_of_prefix (p := "fc") (by decide) rfl
  · rw [hText, hHex] at hKeep ⊢
    rw [List.cons_append] at hKeep ⊢
    rw [isPublicIp_of_first (by decide) hKeep, Bool.not_eq_false']
    exact isReserved_of_prefix (p := "fd") (by decide) rfl

theorem not_safeUrlMisses {groups : Groups} {rest : List ℕ} {g : ℕ}
    (hList : groups.list = g :: rest) (hOther : ∀ x y, g :: rest ≠ [0, 0, 0, 0, 0, 65535, x, y]) :
    ¬ SafeUrlMisses (.v6 groups) := by
  rintro ⟨_, x, y, hSame, hMapped, -, -⟩
  cases hSame
  rw [Groups.Mapped, hList] at hMapped
  exact hOther x y hMapped

/-- The guard of the upstreams catches the internal addresses that it does not miss. -/
theorem isPublicIp_iff {a : Address} (hInternal : Internal a) :
    isPublicIp a.text = false ↔ ¬ SafeUrlMisses a := by
  cases hInternal with
  | v4 hRange =>
    constructor
    · rintro - ⟨groups, x, y, hSame, -⟩
      cases hSame
    · intro _
      exact isPublicIp_v4 hRange
  | @loopback groups hList =>
    refine iff_of_true ?_ (not_safeUrlMisses hList (by simp))
    rw [isPublicIp_of_no_point (no_point_text groups), Address.text, hList, hexText_loopback]
    rfl
  | @unspecified groups hList =>
    refine iff_of_true ?_ (not_safeUrlMisses hList (by simp))
    rw [isPublicIp_of_no_point (no_point_text groups), Address.text, hList, hexText_unspecified]
    rfl
  | @uniqueLocal groups g rest hList hFrom hTo =>
    refine iff_of_true (isPublicIp_uniqueLocal hList hFrom hTo) (not_safeUrlMisses hList ?_)
    intro x y hSame
    have hZero := (List.cons.inj hSame).1
    omega
  | @linkLocal groups g rest hList hFrom hTo =>
    refine iff_of_true (isPublicIp_linkLocal hList hFrom hTo) (not_safeUrlMisses hList ?_)
    intro x y hSame
    have hZero := (List.cons.inj hSame).1
    omega
  | @mapped groups x y hMapped hRange =>
    rw [isPublicIp_mapped hMapped, isReserved_mapped hRange, Bool.not_eq_false',
      decide_eq_true_eq]
    constructor
    · rintro hReserved ⟨_, x', y', hSame, hMapped', -, hNot⟩
      cases hSame
      rw [Groups.Mapped] at hMapped hMapped'
      rw [hMapped] at hMapped'
      simp only [List.cons.injEq, true_and] at hMapped'
      rw [← hMapped'.1] at hNot
      exact hNot hReserved
    · intro hKept
      by_contra hNot
      exact hKept ⟨groups, x, y, rfl, hMapped, hRange, hNot⟩

/-! ## The calls -/

/-- The host without the brackets of an address. -/
def Host.bare : Host → List Char
  | .address a => a.text
  | .domain d => d.name

theorem unbracket_of_not_mem {s : List Char} (hOpen : '[' ∉ s) (hClose : ']' ∉ s) :
    unbracket s = s := by
  have hFirst : s.head? ≠ some '[' := fun h => hOpen (List.mem_of_head? h)
  have hLast : s.getLast? ≠ some ']' := fun h => hClose (List.mem_of_getLast? h)
  rw [unbracket]
  simp only [if_neg hFirst, if_neg hLast]

theorem bracket_not_mem_v4 (a b c d : Fin 256) {e : Char} (hDigit : e.isDigit = false)
    (hPoint : e ≠ '.') : e ∉ (Address.v4 a b c d).text := by
  have hDecimal : ∀ n, e ∉ decimal n := by
    intro n hMem
    exact absurd rfl (isDigit_ne (isDigit_of_mem_decimal hMem) hDigit)
  intro hMem
  rw [Address.text] at hMem
  simp only [List.mem_append, List.mem_cons, hDecimal, hPoint, or_false] at hMem

theorem unbracket_hostname (host : Host) : unbracket host.hostname = host.bare := by
  rcases host with (⟨a, b, c, d⟩ | groups) | d
  · exact unbracket_of_not_mem (bracket_not_mem_v4 a b c d rfl (by decide))
      (bracket_not_mem_v4 a b c d rfl (by decide))
  · rw [Host.hostname, unbracket, Host.bare]
    simp only [List.head?_cons, List.tail_cons, if_true, List.getLast?_append,
      List.getLast?_singleton, Option.some_or, List.dropLast_concat]
  · exact unbracket_of_not_mem d.no_bracket.1 d.no_bracket.2

section Calls
variable {isIPv6 : List Char → Bool} {parse : String → Option Url}
  {lookup : List Char → Option (List Address)}

/-- What the guards check are the texts of the addresses of the host. -/
theorem ipsOf_bare (hNode : KnowsIPv6 isIPv6) (host : Host) :
    ipsOf isIPv6 lookup host.bare = (host.addresses lookup).map Address.text := by
  rcases host with (⟨a, b, c, d⟩ | groups) | d
  · have hIs : isIP isIPv6 (Address.v4 a b c d).text = true := by
      rw [isIP, isIPv4_v4, Bool.true_or]
    exact if_pos hIs
  · have hIs : isIP isIPv6 (Address.v6 groups).text = true := by
      rw [isIP, hNode.accepts, Bool.or_true]
    exact if_pos hIs
  · have hIs : isIP isIPv6 d.name = false := by
      rw [isIP, d.not_v4, hNode.colon d.name d.no_colon, Bool.or_self]
    rw [Host.bare, ipsOf, hIs]
    rfl

theorem assertSafeWebhookUrl_eq_ok (hNode : KnowsIPv6 isIPv6) {raw : String} :
    assertSafeWebhookUrl isIPv6 parse lookup raw = .ok () ↔
      ∃ u, parse raw = some u ∧ u.protocol = "https:" ∧ isLocalName u.host.bare = false ∧
        u.host.addresses lookup ≠ [] ∧
        ∀ a ∈ u.host.addresses lookup, privateAddress a.text = false := by
  rw [assertSafeWebhookUrl]
  cases hParse : parse raw with
  | none => simp
  | some u =>
    simp only [unbracket_hostname, ipsOf_bare hNode, Option.some.injEq, exists_eq_left']
    split_ifs with hProtocol hLocal hEmpty hPrivate
    · simp [hProtocol]
    · simp [hLocal]
    · simp only [List.isEmpty_iff, List.map_eq_nil_iff] at hEmpty
      simp [hEmpty]
    · simp only [List.any_map, List.any_eq_true, Function.comp_apply] at hPrivate
      obtain ⟨a, hMem, hCaught⟩ := hPrivate
      refine iff_of_false (by simp) ?_
      rintro ⟨-, -, -, hAll⟩
      rw [hAll a hMem] at hCaught
      cases hCaught
    · simp only [List.isEmpty_iff, List.map_eq_nil_iff] at hEmpty
      simp only [List.any_map, List.any_eq_true, Function.comp_apply, not_exists, not_and,
        Bool.not_eq_true] at hPrivate
      exact iff_of_true rfl ⟨by simpa using hProtocol, by simpa using hLocal, hEmpty, hPrivate⟩

theorem assertSafeUrl_eq_ok (hNode : KnowsIPv6 isIPv6) {raw : String} {url : Url} :
    assertSafeUrl isIPv6 parse lookup raw = .ok url ↔
      parse raw = some url ∧ url.protocol = "https:" ∧ (url.username = "" ∧ url.password = "") ∧
        isLocalName (toLowerCase url.host.bare) = false ∧ url.host.addresses lookup ≠ [] ∧
        ∀ a ∈ url.host.addresses lookup, isPublicIp a.text = true := by
  rw [assertSafeUrl]
  cases hParse : parse raw with
  | none => simp
  | some u =>
    simp only [unbracket_hostname, ipsOf_bare hNode, Option.some.injEq]
    split_ifs with hProtocol hCredentials hLocal hEmpty hPrivate
    · refine iff_of_false (by simp) ?_
      rintro ⟨rfl, hSame, -⟩
      exact hProtocol hSame
    · refine iff_of_false (by simp) ?_
      rintro ⟨rfl, -, ⟨hUser, hPassword⟩, -⟩
      exact hCredentials.elim (absurd hUser) (absurd hPassword)
    · refine iff_of_false (by simp) ?_
      rintro ⟨rfl, -, -, hNot, -⟩
      rw [hLocal] at hNot
      cases hNot
    · refine iff_of_false (by simp) ?_
      rintro ⟨rfl, -, -, -, hSome, -⟩
      rw [List.isEmpty_iff, List.map_eq_nil_iff] at hEmpty
      exact hSome hEmpty
    · simp only [List.any_map, List.any_eq_true, Function.comp_apply, Bool.not_eq_true'] at hPrivate
      obtain ⟨a, hMem, hCaught⟩ := hPrivate
      refine iff_of_false (by simp) ?_
      rintro ⟨rfl, -, -, -, -, hAll⟩
      rw [hAll a hMem] at hCaught
      cases hCaught
    · simp only [List.isEmpty_iff, List.map_eq_nil_iff] at hEmpty
      simp only [List.any_map, List.any_eq_true, Function.comp_apply, not_exists, not_and,
        Bool.not_eq_true', Bool.not_eq_false] at hPrivate
      rw [not_not] at hProtocol
      rw [not_or, not_not, not_not] at hCredentials
      rw [Bool.not_eq_true] at hLocal
      rw [Except.ok.injEq]
      constructor
      · rintro rfl
        exact ⟨rfl, hProtocol, hCredentials, hLocal, hEmpty, hPrivate⟩
      · rintro ⟨rfl, -⟩
        rfl

end Calls

/-- A guard that catches all but what it misses lets an internal address through exactly when the
host has one that it misses and none that it catches. -/
theorem lets_none_through_iff {addresses : List Address} (caught : Address → Bool)
    {Missed : Address → Prop} (hCatches : ∀ a, Internal a → (caught a = true ↔ ¬ Missed a))
    (hMissed : ∀ a, Missed a → Internal a) :
    ((∀ a ∈ addresses, caught a = false) → ∀ a ∈ addresses, ¬ Internal a) ↔
      ((∃ a ∈ addresses, Missed a) → ∃ a ∈ addresses, caught a = true) := by
  constructor
  · rintro hSound ⟨a, hMem, hMiss⟩
    by_contra hNone
    push Not at hNone
    have hAll : ∀ b ∈ addresses, caught b = false := fun b hb => Bool.eq_false_iff.mpr (hNone b hb)
    exact hSound hAll a hMem (hMissed a hMiss)
  · intro hHelp hAll a hMem hInternal
    have hMiss : Missed a := by
      by_contra hNot
      have hCaught := (hCatches a hInternal).mpr hNot
      rw [hAll a hMem] at hCaught
      cases hCaught
    obtain ⟨b, hb, hCaught⟩ := hHelp ⟨a, hMem, hMiss⟩
    rw [hAll b hb] at hCaught
    cases hCaught

theorem internal_of_webhookMisses (a : Address) (hMiss : WebhookMisses a) : Internal a := by
  rcases hMiss with ⟨groups, rfl, ⟨x, y, hMapped, hRange⟩ | ⟨g, rest, hList, hFrom, hTo⟩⟩
  · exact .mapped hMapped hRange
  · exact .linkLocal hList (by omega) hTo

theorem internal_of_safeUrlMisses (a : Address) (hMiss : SafeUrlMisses a) : Internal a := by
  rcases hMiss with ⟨groups, x, y, rfl, hMapped, hRange, -⟩
  exact .mapped hMapped hRange

/-- Each guard lets no internal address through exactly when the URL is refused for its protocol,
its credentials or its name, or the host has no address that the guard misses, or it has another
that the guard catches. -/
theorem guards_sound_iff (isIPv6 : List Char → Bool) (hNode : KnowsIPv6 isIPv6)
    (parse : String → Option Url) (lookup : List Char → Option (List Address)) (raw : String) :
    ((assertSafeWebhookUrl isIPv6 parse lookup raw = .ok () →
        ∀ u, parse raw = some u → ∀ a ∈ u.host.addresses lookup, ¬ Internal a) ↔
      ∀ u, parse raw = some u → u.protocol = "https:" → isLocalName u.host.bare = false →
        (∃ a ∈ u.host.addresses lookup, WebhookMisses a) →
          ∃ a ∈ u.host.addresses lookup, privateAddress a.text = true) ∧
    ((∀ u, assertSafeUrl isIPv6 parse lookup raw = .ok u →
        ∀ a ∈ u.host.addresses lookup, ¬ Internal a) ↔
      ∀ u, parse raw = some u → u.protocol = "https:" → (u.username = "" ∧ u.password = "") →
        isLocalName (toLowerCase u.host.bare) = false →
        (∃ a ∈ u.host.addresses lookup, SafeUrlMisses a) →
          ∃ a ∈ u.host.addresses lookup, isPublicIp a.text = false) := by
  constructor
  · rw [assertSafeWebhookUrl_eq_ok hNode]
    constructor
    · intro hSound u hParse hProtocol hLocal hMissed
      have hSome : u.host.addresses lookup ≠ [] := by
        obtain ⟨a, hMem, -⟩ := hMissed
        exact List.ne_nil_of_mem hMem
      refine (lets_none_through_iff (fun a => privateAddress a.text)
        (fun a => privateAddress_iff) internal_of_webhookMisses).mp ?_ hMissed
      intro hAll
      exact hSound ⟨u, hParse, hProtocol, hLocal, hSome, hAll⟩ u hParse
    · rintro hHelp ⟨u, hParse, hProtocol, hLocal, -, hAll⟩ v hSame
      rw [hParse] at hSame
      cases hSame
      exact (lets_none_through_iff (fun a => privateAddress a.text)
        (fun a => privateAddress_iff) internal_of_webhookMisses).mpr
          (hHelp u hParse hProtocol hLocal) hAll
  · have hCatches : ∀ a, Internal a → ((!isPublicIp a.text) = true ↔ ¬ SafeUrlMisses a) := by
      intro a hInternal
      rw [Bool.not_eq_true']
      exact isPublicIp_iff hInternal
    constructor
    · intro hSound u hParse hProtocol hCredentials hLocal hMissed
      have hSome : u.host.addresses lookup ≠ [] := by
        obtain ⟨a, hMem, -⟩ := hMissed
        exact List.ne_nil_of_mem hMem
      have hHelp := (@lets_none_through_iff (u.host.addresses lookup) (fun a => !isPublicIp a.text) _
        hCatches internal_of_safeUrlMisses).mp
      simp only [Bool.not_eq_true', Bool.not_eq_false'] at hHelp
      apply hHelp ?_ hMissed
      intro hAll
      exact hSound u ((assertSafeUrl_eq_ok hNode).mpr
        ⟨hParse, hProtocol, hCredentials, hLocal, hSome, hAll⟩)
    · intro hHelp u hOk
      obtain ⟨hParse, hProtocol, hCredentials, hLocal, -, hAll⟩ := (assertSafeUrl_eq_ok hNode).mp hOk
      have hSound := (@lets_none_through_iff (u.host.addresses lookup) (fun a => !isPublicIp a.text) _
        hCatches internal_of_safeUrlMisses).mpr
      simp only [Bool.not_eq_true', Bool.not_eq_false'] at hSound
      exact hSound (hHelp u hParse hProtocol hCredentials hLocal) hAll

/-- Every text of eight groups has a colon. -/
theorem colon_mem_text (groups : Groups) : ':' ∈ (Address.v6 groups).text := by
  have hJoined : ':' ∈ joined groups.list := by
    have hLength := groups.length_eq
    rcases hList : groups.list with _ | ⟨g, _ | ⟨h, rest⟩⟩
    · rw [hList] at hLength
      cases hLength
    · rw [hList] at hLength
      cases hLength
    · rw [joined_cons_cons]
      exact List.mem_append_right _ List.mem_cons_self
  rw [Address.text, hexText]
  split
  · exact List.mem_append_right _ List.mem_cons_self
  · exact hJoined

def hasColon (s : List Char) : Bool := s.contains ':'

theorem knows_hasColon : KnowsIPv6 hasColon where
  accepts groups := List.contains_iff_mem.mpr (colon_mem_text groups)
  colon s hNone := by
    rw [hasColon, ← Bool.not_eq_true]
    exact fun hSome => hNone (List.contains_iff_mem.mp hSome)

/-- A host of one version 4 address is safe with both. -/
theorem v4_host_safe :
    (assertSafeWebhookUrl hasColon
        (fun _ => some ⟨"https:", "", "", .address (.v4 93 184 216 34)⟩) (fun _ => none)
        "https://93.184.216.34/hook" = .ok () →
      ∀ u, some (⟨"https:", "", "", .address (.v4 93 184 216 34)⟩ : Url) = some u →
        ∀ a ∈ u.host.addresses fun _ => none, ¬ Internal a) ∧
    ∀ u, assertSafeUrl hasColon
        (fun _ => some ⟨"https:", "", "", .address (.v4 93 184 216 34)⟩) (fun _ => none)
        "https://93.184.216.34/hook" = .ok u →
      ∀ a ∈ u.host.addresses fun _ => none, ¬ Internal a := by
  obtain ⟨hWebhook, hSafeUrl⟩ := guards_sound_iff hasColon knows_hasColon
    (fun _ => some ⟨"https:", "", "", .address (.v4 93 184 216 34)⟩) (fun _ => none)
    "https://93.184.216.34/hook"
  constructor
  · apply hWebhook.mpr
    rintro u hUrl - - ⟨a, hMem, groups, rfl, -⟩
    cases hUrl
    cases List.mem_singleton.mp hMem
  · apply hSafeUrl.mpr
    rintro u hUrl - - - ⟨a, hMem, groups, x, y, rfl, -⟩
    cases hUrl
    cases List.mem_singleton.mp hMem

/-- `::ffff:127.0.0.1`. -/
def mappedLoopback : Groups := ⟨[0, 0, 0, 0, 0, 65535, 0x7f00, 1], rfl, by decide⟩

/-- `https://[::ffff:127.0.0.1]/`, parsed. -/
def mappedUrl : Url := ⟨"https:", "", "", .address (.v6 mappedLoopback)⟩

/-- Both guards accept the loopback address in its mapped form. -/
theorem mapped_loopback_accepted :
    ∃ (isIPv6 : List Char → Bool) (parse : String → Option Url)
      (lookup : List Char → Option (List Address)) (raw : String) (u : Url) (a : Address),
      KnowsIPv6 isIPv6 ∧ parse raw = some u ∧ a ∈ u.host.addresses lookup ∧ Internal a ∧
        assertSafeWebhookUrl isIPv6 parse lookup raw = .ok () ∧
        assertSafeUrl isIPv6 parse lookup raw = .ok u := by
  have hMapped : mappedLoopback.Mapped 0x7f00 1 := rfl
  refine ⟨hasColon, fun _ => some mappedUrl, fun _ => none, "https://[::ffff:127.0.0.1]/", mappedUrl,
    .v6 mappedLoopback, knows_hasColon, rfl, List.mem_singleton.mpr rfl, .mapped hMapped (.inl rfl),
    ?_, ?_⟩
  · rw [assertSafeWebhookUrl_eq_ok knows_hasColon]
    refine ⟨mappedUrl, rfl, rfl, by decide, by simp [mappedUrl, Host.addresses], ?_⟩
    intro a hMem
    rw [List.mem_singleton.mp hMem]
    exact privateAddress_mapped hMapped
  · rw [assertSafeUrl_eq_ok knows_hasColon]
    refine ⟨rfl, rfl, ⟨rfl, rfl⟩, by decide, by simp [mappedUrl, Host.addresses], ?_⟩
    intro a hMem
    rw [List.mem_singleton.mp hMem, isPublicIp_mapped hMapped]
    decide

end FarmBackend.UrlGuards
