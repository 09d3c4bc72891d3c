import FarmBackend.QrPayments
import FarmBackend.Rows

/-!
# Payment links, invoices and web checkouts (`business-ops/`)

The rows that in-app payers and web payers share, and the statements on them. The id of a checkout
is drawn before its row is written: it is a place in the table, empty until then. Names, titles,
currencies, e-mail addresses and the amounts in KES are left out.
-/

namespace FarmBackend.Commerce
open Wallets QrPayments

set_option autoImplicit false

abbrev LinkId := ℕ
abbrev InvoiceId := ℕ
abbrev CheckoutId := ℕ

/-- `HOLD_MINUTES`, in milliseconds. -/
def HOLD : Time := 60 * 60000

structure Link where
  isActive : Bool
  expiresAt : Option Time
  maxUses : Option ℤ
  useCount : ℤ
  amount : ℤ
  deriving DecidableEq

inductive LinkState where
  | active
  | disabled
  | expired
  | completed
  deriving DecidableEq, Repr

def linkState (now : Time) (l : Link) : LinkState :=
  if l.isActive = false then .disabled
  else if l.expiresAt.any (fun t => decide (t ≤ now)) then .expired
  else if l.maxUses.any (fun m => decide (m ≤ l.useCount)) then .completed
  else .active

inductive InvoiceStatus where
  | draft
  | sent
  | pending
  | paid
  | overdue
  | cancelled
  deriving DecidableEq, Repr

/-- `PAYABLE`. -/
def InvoiceStatus.isPayable : InvoiceStatus → Bool
  | .sent | .pending | .overdue => true
  | .draft | .paid | .cancelled => false

structure Invoice where
  status : InvoiceStatus
  dueDate : Option Time
  total : ℤ
  paymentHoldRef : Option CheckoutId
  paymentHoldUntil : Option Time
  transactionReference : Option Reference
  deriving DecidableEq

/-- `source` and `source_id`. -/
inductive Target where
  | link (id : LinkId)
  | invoice (id : InvoiceId)
  deriving DecidableEq, Repr

inductive CheckoutStatus where
  | pending
  | expired
  | completed
  | failed
  deriving DecidableEq, Repr

structure Checkout where
  target : Target
  reference : Reference
  amount : ℤ
  status : CheckoutStatus
  reserved : Bool
  expiresAt : Option Time
  deriving DecidableEq

inductive Channel where
  | app
  | web
  deriving DecidableEq, Repr

/-- A row of `business_payments` or of `business_payment_exceptions`. -/
structure Payment where
  target : Target
  reference : Reference
  amount : ℤ
  channel : Channel
  deriving DecidableEq

/-- `references` are those of all `transactions` rows, sales or not. The last three are history:
the targets of the in-app transfers that were committed, the web payments that were applied to
their target, and the references that `verify` has reported failed. -/
structure Store where
  links : LinkId → Option Link
  invoices : InvoiceId → Option Invoice
  checkouts : List (Option Checkout)
  sales : Reference → Option Sale
  till : Till
  references : List Reference
  payments : List Payment
  exceptions : List Payment
  transfers : List Target
  applied : List (Reference × Target)
  reportedFailed : List Reference

namespace Invoice

/-- The claim of `payInvoice`: payable, and not held by a web checkout. -/
def isClaimable (now : Time) (i : Invoice) : Bool :=
  i.status.isPayable && (i.paymentHoldRef.isNone ||
    i.paymentHoldUntil.any fun t => decide (t < now))

/-- The claim of `settle`, for which the checkout's own hold counts as none. -/
def isSettleable (checkoutId : CheckoutId) (now : Time) (i : Invoice) : Bool :=
  i.status.isPayable && (i.paymentHoldRef == some checkoutId || i.paymentHoldRef.isNone ||
    i.paymentHoldUntil.any fun t => decide (t < now))

end Invoice

namespace Store

/-! Updates by id under a condition; `none` when no row is counted. -/

def updateLink (id : LinkId) (which : Link → Bool) (f : Link → Link) (s : Store) :
    Option Store :=
  match s.links id with
  | none => none
  | some l =>
    if which l then some { s with links := Function.update s.links id (some (f l)) } else none

def updateInvoice (id : InvoiceId) (which : Invoice → Bool) (f : Invoice → Invoice) (s : Store) :
    Option Store :=
  match s.invoices id with
  | none => none
  | some i =>
    if which i then some { s with invoices := Function.update s.invoices id (some (f i)) }
    else none

def checkout (s : Store) (id : CheckoutId) : Option Checkout := s.checkouts[id]?.join

def setCheckout (id : CheckoutId) (c : Checkout) (s : Store) : Store :=
  { s with checkouts := s.checkouts.modify id fun _ => some c }

/-- `business_web_checkouts.updateMany({ where: { id, status }, data: { status: after } })`. -/
def moveCheckout (id : CheckoutId) (status after : CheckoutStatus) (s : Store) : Option Store :=
  match s.checkout id with
  | none => none
  | some c => if c.status = status then some (s.setCheckout id { c with status := after }) else none

/-- `findUnique({ where: { transaction_reference } })`. -/
def findCheckout (reference : Reference) (s : Store) : Option (CheckoutId × Checkout) :=
  s.checkouts.zipIdx.findSome? fun (row, id) =>
    (row.filter fun c => c.reference == reference).map fun c => (id, c)

/-- `markOverdue()`, over all invoices. -/
def markOverdue (today : Time) (s : Store) : Store :=
  { s with invoices := fun id => (s.invoices id).map fun i =>
      if (i.status = .sent ∨ i.status = .pending) ∧ i.dueDate.any (fun t => decide (t < today)) then
        { i with status := .overdue }
      else i }

def takeUse (id : LinkId) (maxUses : Option ℤ) : Store → Option Store :=
  updateLink id (fun l => l.isActive && maxUses.all fun m => decide (l.useCount < m))
    fun l => { l with useCount := l.useCount + 1 }

def claimInvoice (id : InvoiceId) (now : Time) : Store → Option Store :=
  updateInvoice id (Invoice.isClaimable now) fun i => { i with status := .paid }

def cancelInvoice (id : InvoiceId) : Store → Option Store :=
  updateInvoice id (fun i => i.status == .draft || i.status.isPayable)
    fun i => { i with status := .cancelled }

/-- `reserve`: one use of the link, or an exclusive hold on the invoice. -/
def reserve (target : Target) (checkoutId : CheckoutId) (now until' : Time) (s : Store) :
    Option Store :=
  match target with
  | .link id =>
    s.updateLink id (fun l => l.isActive && l.expiresAt.all (fun t => decide (now < t)) &&
        l.maxUses.all fun m => decide (l.useCount < m))
      fun l => { l with useCount := l.useCount + 1 }
  | .invoice id =>
    s.updateInvoice id (Invoice.isClaimable now) fun i =>
      { i with paymentHoldRef := some checkoutId, paymentHoldUntil := some until' }

/-- `release`, which may find nothing to give back. -/
def release (target : Target) (checkoutId : CheckoutId) (s : Store) : Store :=
  match target with
  | .link id =>
    (s.updateLink id (fun l => decide (0 < l.useCount))
      fun l => { l with useCount := l.useCount - 1 }).getD s
  | .invoice id =>
    (s.updateInvoice id (fun i => i.paymentHoldRef == some checkoutId) fun i =>
      { i with paymentHoldRef := none, paymentHoldUntil := none }).getD s

/-- What `settle` writes; `none` when it answers `false`. A use taken at the start is kept. -/
def settleTarget (id : CheckoutId) (c : Checkout) (now : Time) (s : Store) : Option Store :=
  match c.target with
  | .link link =>
    if c.reserved = true ∧ c.status ≠ .expired then some s
    else s.updateLink link (fun l => l.maxUses.all fun m => decide (l.useCount < m))
      fun l => { l with useCount := l.useCount + 1 }
  | .invoice invoice =>
    s.updateInvoice invoice (Invoice.isSettleable id now) fun i =>
      { i with
        status := .paid
        transactionReference := some c.reference
        paymentHoldRef := none
        paymentHoldUntil := none }

/-- `settle`, with the history of what was applied. -/
def settle (id : CheckoutId) (c : Checkout) (now : Time) (s : Store) : Option Store :=
  (s.settleTarget id c now).map fun s => { s with applied := s.applied ++ [(c.reference, c.target)] }

/-- `business_payments.create`, whose reference is unique. -/
def recordPayment (p : Payment) (s : Store) : Option Store :=
  if p.reference ∈ s.payments.map Payment.reference then none
  else some { s with payments := s.payments ++ [p] }

/-- `business_payment_exceptions.create`, likewise. -/
def recordException (p : Payment) (s : Store) : Option Store :=
  if p.reference ∈ s.exceptions.map Payment.reference then none
  else some { s with exceptions := s.exceptions ++ [p] }

/-- The rows of a sale as the transactions of `QrPaymentsService` see them. -/
def atSale (reference : Reference) (s : Store) : QrPayments.Store := ⟨s.sales reference, s.till⟩

def putSale (reference : Reference) (q : QrPayments.Store) (s : Store) : Store :=
  { s with sales := Function.update s.sales reference q.sale, till := q.till }

/-- The transaction of `initialize`; references are unique. -/
def createSale (reference : Reference) (sale : Sale) (s : Store) : Option Store :=
  if reference ∈ s.references then none
  else some { s with
    sales := Function.update s.sales reference (some sale)
    references := s.references ++ [reference] }

/-- `sendFunds` has committed under a reference of its own. -/
def transfer (target : Target) (reference : Reference) (s : Store) : Option Store :=
  if reference ∈ s.references then none
  else some { s with
    references := s.references ++ [reference]
    transfers := s.transfers ++ [target] }

end Store

/-- The two rows that `initialize` creates. -/
def newSale (id : ℕ) (merchantId : ℕ) (walletId : WalletId) (amountFarm : ℤ) (m : Metadata) :
    Sale where
  transaction :=
    ⟨id, .merchantPayment, .pending, amountFarm, 0, amountFarm, some walletId,
      { m with isQrSale := true }⟩
  qrPayment := ⟨some merchantId, .pending⟩
  receipt := none

end FarmBackend.Commerce
