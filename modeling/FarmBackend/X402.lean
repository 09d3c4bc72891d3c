import Mathlib.Data.List.Infix
import Mathlib.Data.List.Basic
import Mathlib.Algebra.BigOperators.Group.List.Basic
import Mathlib.Algebra.GroupWithZero.Nat

/-!
# `X402Service.verify`

The node, algosdk and Node's base64 codec are parameters. What an await answers is an argument; a
stage that ends the verification early is an `Except.error`. The transactions that the fee payer
is asked to sign are part of what a verification does, whatever it answers.
-/

namespace FarmBackend.X402

set_option autoImplicit false

abbrev Address := String
abbrev Bytes := List UInt8
abbrev TxId := String

/-! ## Transactions, as algosdk decodes them -/

inductive TransactionType where
  | pay
  | axfer
  | other
  deriving DecidableEq, Repr

structure Payment where
  receiver : Address
  amount : ℕ
  closeRemainderTo : Option Address
  deriving DecidableEq

structure AssetTransfer where
  assetIndex : ℕ
  amount : ℕ
  receiver : Address
  closeRemainderTo : Option Address
  assetSender : Option Address
  deriving DecidableEq

/-- `remaining` is what the service does not read and the ids depend on. -/
structure Transaction where
  type : TransactionType
  sender : Address
  fee : ℕ
  firstValid : ℕ
  lastValid : ℕ
  genesisHash : Option Bytes
  group : Option Bytes
  rekeyTo : Option Address
  payment : Option Payment
  assetTransfer : Option AssetTransfer
  remaining : Bytes
  deriving DecidableEq

/-- Of the signatures only whether they are there. -/
structure SignedTransaction where
  txn : Transaction
  sig : Bool
  msig : Bool
  lsig : Bool
  pqsig : Bool
  deriving DecidableEq

def signed (s : SignedTransaction) : Bool := s.sig || s.msig || s.lsig || s.pqsig

/-- Group ids are computed over transactions without their `grp` field. -/
def withoutGroup (t : Transaction) : Transaction := { t with group := none }

/-- The parts that are not of this repository. `signTxn` is the fee payer's signature. -/
structure Sdk where
  fromBase64 : String → Bytes
  toBase64 : Bytes → String
  decodeSignedTransaction : Bytes → Option SignedTransaction
  computeGroupID : List Transaction → Bytes
  txID : Transaction → TxId
  signTxn : Transaction → Bytes

/-! ## Requests and answers -/

structure Assets where
  FARM : Option ℕ
  USDC : Option ℕ
  deriving DecidableEq

/-- `Object.entries(c.assets)`. -/
def Assets.entries (a : Assets) : List (String × ℕ) :=
  (a.FARM.map ("FARM", ·)).toList ++ (a.USDC.map ("USDC", ·)).toList

structure X402Config where
  enabled : Bool
  caip2 : String
  genesisHash : String
  assets : Assets
  feePayer : Bool
  maxFeeMicroAlgos : ℕ
  timeoutSeconds : ℕ
  deriving DecidableEq

structure PaymentRequirements where
  scheme : String
  network : String
  amount : String
  asset : String
  payTo : Address
  maxTimeoutSeconds : ℕ
  deriving DecidableEq

/-- The body as it was sent: a field that is absent or of another type is `none`. -/
structure PaymentPayload where
  x402Version : Option ℤ
  accepted : Option PaymentRequirements
  paymentGroup : Option (List (Option String))
  paymentIndex : Option ℤ
  deriving DecidableEq

structure VerifyResult where
  isValid : Bool
  invalidReason : Option String
  invalidMessage : Option String
  payer : Option Address
  group : Option (List Bytes)
  txId : Option TxId
  sponsored : Bool
  deriving DecidableEq

def bad (invalidReason invalidMessage : String) (payer : Option Address) : VerifyResult :=
  ⟨false, some invalidReason, some invalidMessage, payer, none, none, false⟩

inductive PaymentStatus where
  | settling
  | settled
  | pending
  | failed
  deriving DecidableEq, Repr

/-- What the awaits of one verification answer; `none` is a throw. The address is that of the
configured mnemonic. -/
structure VerifyAnswers where
  feePayerAddress : Option Address
  currentRound : Option ℕ
  lookedUp : Bool
  signs : Bool
  simulate : Option (Option String)

/-- How a verification ends before its last stage: an await throws, or the answer is `bad`. -/
inductive Stop where
  | thrown
  | refused (invalidReason invalidMessage : String) (payer : Option Address)
  deriving DecidableEq

/-- `result` is `none` when the verification throws; `signs` is what the fee payer was asked to
sign. -/
structure Verification where
  result : Option VerifyResult
  signs : List Transaction
  deriving DecidableEq

/-! ## The checks -/

section Checks
variable {α β : Type}

def refuseIf (refused : Bool) (stop : Stop) : Except Stop Unit :=
  if refused then .error stop else .ok ()

/-- An await: what it answers, unless it throws. -/
def orThrow (a : Option α) : Except Stop α :=
  match a with
  | none => .error .thrown
  | some a => .ok a

@[simp] theorem refuseIf_eq_ok {refused : Bool} {stop : Stop} {u : Unit} :
    refuseIf refused stop = .ok u ↔ refused = false := by
  cases refused <;> simp [refuseIf]

@[simp] theorem orThrow_eq_ok {a : Option α} {b : α} : orThrow a = .ok b ↔ a = some b := by
  cases a <;> simp [orThrow]

theorem bind_eq_ok {x : Except Stop α} {f : α → Except Stop β} {b : β} :
    x >>= f = .ok b ↔ ∃ a, x = .ok a ∧ f a = .ok b := by
  cases x with
  | error e => simp [bind, Except.bind]
  | ok a => simp [bind, Except.bind]

end Checks

/-- `/^\d+$/.test(s)`. -/
def isDecimal (s : String) : Bool := !s.toList.isEmpty && s.toList.all Char.isDigit

/-- `BigInt(s)` of such a string. -/
def bigInt (s : String) : ℕ := s.toList.foldl (fun n d => 10 * n + (d.toNat - '0'.toNat)) 0

/-- `/a|b|../i.test(s)` for words of small letters. -/
def mentions (words : List String) (s : String) : Bool :=
  words.any fun word => decide (word.toList <:+: s.toList.map Char.toLower)

def checkRequirements (c : X402Config) (p : PaymentPayload) (req : PaymentRequirements)
    (allowedPayTo : Option Address) : Except Stop Unit := do
  refuseIf (p.x402Version != some 2)
    (.refused "invalid_x402_version" "Only x402Version 2 is supported" none)
  match p.accepted with
  | none => .error (.refused "invalid_scheme" "Only the exact scheme is supported" none)
  | some a =>
    refuseIf (a.scheme != "exact" || req.scheme != "exact")
      (.refused "invalid_scheme" "Only the exact scheme is supported" none)
    refuseIf (a.network != req.network || req.network != c.caip2)
      (.refused "invalid_network" ("Network must be " ++ c.caip2) none)
    refuseIf (a.amount != req.amount || a.asset != req.asset || a.payTo != req.payTo)
      (.refused "invalid_payment_requirements" "Accepted requirements do not match" none)
    let assetOk := c.assets.entries.any fun entry => toString entry.2 == req.asset
    refuseIf (!assetOk || !isDecimal req.amount || decide (bigInt req.amount ≤ 0))
      (.refused "invalid_payment_requirements" "Unsupported asset or amount" none)
    refuseIf (allowedPayTo.any fun allowed => req.payTo != allowed)
      (.refused "invalid_payment_requirements" "payTo must be this business’s FARM account" none)

/-- The strings of the group and the index of the payment. -/
def checkPayload (p : PaymentPayload) : Except Stop (List (Option String) × ℕ) :=
  match p.paymentGroup, p.paymentIndex with
  | some g, some idx =>
    if g.length < 1 ∨ 16 < g.length ∨ idx < 0 ∨ g.length ≤ idx then
      .error (.refused "invalid_payload"
        "paymentGroup must have 1-16 txns and a valid paymentIndex" none)
    else .ok (g, idx.toNat)
  | _, _ => .error (.refused "invalid_payload"
      "paymentGroup must have 1-16 txns and a valid paymentIndex" none)

variable (sdk : Sdk)

/-- One element of the group: its text and what it decodes to. -/
def decodeElement (s : Option String) : Option (String × SignedTransaction) :=
  match s with
  | none => none
  | some s =>
    if 8000 < s.length then none
    else (sdk.decodeSignedTransaction (sdk.fromBase64 s)).map (s, ·)

def decodeGroup (g : List (Option String)) : Except Stop (List (String × SignedTransaction)) :=
  match g.mapM (decodeElement sdk) with
  | none => .error (.refused "invalid_payload" "Could not decode paymentGroup" none)
  | some elements => .ok elements

def checkGroup (c : X402Config) (stx : List SignedTransaction) : Except Stop Unit := do
  refuseIf (stx.any fun s => sdk.toBase64 (s.txn.genesisHash.getD []) != c.genesisHash)
    (.refused "invalid_network" "Transactions are for another network" none)
  let want := sdk.toBase64 (sdk.computeGroupID (stx.map fun s => withoutGroup s.txn))
  refuseIf (decide (1 < stx.length) && stx.any fun s =>
      s.txn.group.elim true fun group => sdk.toBase64 group != want)
    (.refused "invalid_payload" "Transactions are not one atomic group" none)

def checkPayment (req : PaymentRequirements) (pay : SignedTransaction) : Except Stop Unit := do
  let t := pay.txn
  let payer := t.sender
  match t.assetTransfer with
  | none => .error (.refused
      "invalid_payload" "Payment txn must be an asset transfer" (some payer))
  | some x =>
    refuseIf (t.type != .axfer)
      (.refused "invalid_payload" "Payment txn must be an asset transfer" (some payer))
    refuseIf (toString x.assetIndex != req.asset)
      (.refused "invalid_payload" "Wrong asset" (some payer))
    refuseIf (toString x.amount != req.amount)
      (.refused "invalid_payload" "Amount does not match exactly" (some payer))
    refuseIf (x.receiver != req.payTo)
      (.refused "invalid_payload" "Receiver does not match payTo" (some payer))
    refuseIf (x.closeRemainderTo.isSome || t.rekeyTo.isSome || x.assetSender.isSome)
      (.refused "invalid_payload" "Close, rekey and clawback are not allowed" (some payer))
    refuseIf (!signed pay)
      (.refused "invalid_payload" "Payment txn is not signed" (some payer))
    refuseIf (payer == req.payTo)
      (.refused "invalid_payload" "Payer and payTo are the same" (some payer))

/-- `if (c.feePayer) feeAddr = this.chain.feePayerAddress()`. -/
def feeAddrOf (c : X402Config) (o : VerifyAnswers) : Except Stop (Option Address) :=
  if c.feePayer then (orThrow o.feePayerAddress).map some else .ok none

/-- `feeAddr && from === feeAddr`. -/
def fromFeePayer (feeAddr : Option Address) (s : SignedTransaction) : Bool :=
  feeAddr.any fun feeAddr => feeAddr != "" && s.txn.sender == feeAddr

/-- What the fee payer does not sign. -/
def badFeePayment (feeAddr : Option Address) (s : SignedTransaction) : Bool :=
  s.txn.type != .pay || s.txn.payment.elim true fun pm =>
    pm.amount != 0 || pm.closeRemainderTo.isSome || s.txn.rekeyTo.isSome ||
      some pm.receiver != feeAddr || signed s

/-- The loop over the group: positions the fee payer signs and the sum of their fees. -/
def feeLoop (feeAddr : Option Address) (payer : Address) :
    ℕ → List SignedTransaction → List ℕ → ℕ → Except Stop (List ℕ × ℕ)
  | _, [], feeIdx, feeTotal => .ok (feeIdx, feeTotal)
  | i, s :: rest, feeIdx, feeTotal =>
    if fromFeePayer feeAddr s then
      if badFeePayment feeAddr s then
        .error (.refused "invalid_payload"
          "Fee-payer txn must be an unsigned 0 ALGO payment to itself" (some payer))
      else feeLoop feeAddr payer (i + 1) rest (feeIdx ++ [i]) (feeTotal + s.txn.fee)
    else if signed s then feeLoop feeAddr payer (i + 1) rest feeIdx feeTotal
    else .error (.refused "invalid_payload"
      "Every non-fee-payer txn must be signed by its sender" (some payer))

def checkRounds (t : Transaction) (round : ℕ) : Except Stop Unit := do
  refuseIf (decide (t.lastValid < round))
    (.refused "invalid_transaction_state" "Payment txn has expired" (some t.sender))
  refuseIf (decide (round + 10 < t.firstValid))
    (.refused "invalid_transaction_state" "Payment txn is not valid yet" (some t.sender))

/-- What the checks before the signature have read off the body. -/
structure Checked where
  elements : List (String × SignedTransaction)
  idx : ℕ
  pay : SignedTransaction
  feeIdx : List ℕ
  feeTotal : ℕ

def Checked.stx (k : Checked) : List SignedTransaction := k.elements.map Prod.snd

/-- `used` is the status of the row under the id, if there is one. -/
def checks (c : X402Config) (o : VerifyAnswers) (used : TxId → Option PaymentStatus)
    (p : PaymentPayload) (req : PaymentRequirements) (allowedPayTo : Option Address) :
    Except Stop Checked := do
  orThrow (if c.enabled then some () else none)
  checkRequirements c p req allowedPayTo
  let (g, idx) ← checkPayload p
  let elements ← decodeGroup sdk g
  let stx := elements.map Prod.snd
  checkGroup sdk c stx
  let pay ← orThrow stx[idx]?
  checkPayment req pay
  let payer := pay.txn.sender
  let feeAddr ← feeAddrOf c o
  let (feeIdx, feeTotal) ← feeLoop feeAddr payer 0 stx [] 0
  refuseIf (decide (c.maxFeeMicroAlgos < feeTotal))
    (.refused "invalid_payload" "Fee-payer fee is too high" (some payer))
  let round ← orThrow o.currentRound
  checkRounds pay.txn round
  orThrow (if o.lookedUp then some () else none)
  refuseIf ((used (sdk.txID pay.txn)).any fun status => status != .failed)
    (.refused "invalid_transaction_state" "This payment was already used" (some payer))
  return ⟨elements, idx, pay, feeIdx, feeTotal⟩

/-- `feeIdx.forEach((i, k) => (group[i] = sigs[k]))`. -/
def replaceAt {α : Type} (group : List α) (feeIdx : List ℕ) (sigs : List α) : List α :=
  (feeIdx.zip sigs).foldl (fun group (i, sig) => group.set i sig) group

/-- The simulation and the answer. -/
def simulated (k : Checked) (group : List Bytes) (fail : Option (Option String)) : VerifyResult :=
  match fail with
  | none => bad "unexpected_verify_error" "Could not reach the Algorand node"
      (some k.pay.txn.sender)
  | some (some fail) =>
    if fail = "" then
      ⟨true, none, none, some k.pay.txn.sender, some group, some (sdk.txID k.pay.txn),
        decide (0 < k.feeIdx.length)⟩
    else bad (if mentions ["overspend", "underflow", "insufficient", "below min"] fail
      then "insufficient_funds" else "invalid_transaction_state") fail (some k.pay.txn.sender)
  | some none =>
    ⟨true, none, none, some k.pay.txn.sender, some group, some (sdk.txID k.pay.txn),
      decide (0 < k.feeIdx.length)⟩

def verify (c : X402Config) (o : VerifyAnswers) (used : TxId → Option PaymentStatus)
    (p : PaymentPayload) (req : PaymentRequirements) (allowedPayTo : Option Address) :
    Verification :=
  match checks sdk c o used p req allowedPayTo with
  | .error .thrown => ⟨none, []⟩
  | .error (.refused invalidReason invalidMessage payer) =>
    ⟨some (bad invalidReason invalidMessage payer), []⟩
  | .ok k =>
    let group := k.elements.map fun element => sdk.fromBase64 element.1
    if k.feeIdx.length = 0 then ⟨some (simulated sdk k group o.simulate), []⟩
    else
      let txns := k.feeIdx.filterMap fun i => k.stx[i]?.map SignedTransaction.txn
      if o.signs then
        ⟨some (simulated sdk k (replaceAt group k.feeIdx (txns.map sdk.signTxn)) o.simulate), txns⟩
      else ⟨none, txns⟩

end FarmBackend.X402
