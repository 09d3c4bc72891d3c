import FarmBackend.Commerce
import FarmBackend.Interleaving

/-!
# The calls on links, invoices and web checkouts

`payLink`, `payInvoice` and `cancelInvoice` of the app, `start` and `reconcile` of the web checkout
(the cron calls `reconcile`), and what the webhooks make of a sale. Every await may fail: `onThrow`
is where the call goes on then, with what the `catch` blocks around it do.
-/

namespace FarmBackend.Commerce
open Fees Wallets QrPayments Interleaving

set_option autoImplicit false

/-- What an in-app payment pays; `status` is what the `catch` block of `payInvoice` restores. -/
inductive InApp where
  | link (id : LinkId)
  | invoice (id : InvoiceId) (status : InvoiceStatus)
  deriving DecidableEq

def InApp.target : InApp → Target
  | .link id => .link id
  | .invoice id _ => .invoice id

/-- A reservation on its way to a checkout row. -/
structure Hold where
  target : Target
  checkoutId : CheckoutId
  amount : ℤ
  expiresAt : Time
  deriving DecidableEq

/-- A checkout row as `reconcile` has read it. -/
structure Read where
  id : CheckoutId
  row : Checkout
  deriving DecidableEq

def Read.wasExpired (c : Read) : Bool := c.row.status == .expired

inductive Answer where
  | ok
  | thrown
  | status (s : CheckoutStatus)
  deriving DecidableEq, Repr

/-- Where a settlement was asked for: by a webhook, or by the `verify` of a `reconcile`. -/
abbrev Origin := Option Read

inductive Call where
  | payLink (payer : UserId) (id : LinkId)
  | takeUse (id : LinkId) (maxUses : Option ℤ)
  | markOverdue (payer : UserId) (id : InvoiceId)
  | payInvoice (payer : UserId) (id : InvoiceId)
  | claimInvoice (id : InvoiceId) (status : InvoiceStatus)
  | walletFor (p : InApp)
  | sendFunds (p : InApp)
  | recordPayment (p : InApp) (reference : Reference)
  | stampInvoice (id : InvoiceId) (status : InvoiceStatus) (reference : Reference)
  | revert (p : InApp)
  | cancelInvoice (id : InvoiceId)
  | start (target : Target)
  | reserve (h : Hold) (merchantId : ℕ)
  | initializeSale (h : Hold) (merchantId : ℕ)
  | openProvider (h : Hold) (reference : Reference)
  | failInit (h : Hold) (reference : Reference)
  | createCheckout (h : Hold) (reference : Reference)
  | release (target : Target) (id : CheckoutId) (answer : Answer)
  | reconcile (reference : Reference)
  | verify (c : Read)
  | poll (c : Read) (provider : QrProvider)
  | complete (origin : Origin) (reference : Reference) (provider : QrProvider) (v : VerifiedPayment)
  | settleSale (origin : Origin) (reference : Reference) (rule : FeeRule) (p : Settlement)
  | markFailed (origin : Origin) (reference : Reference)
  | saleStatus (c : Read)
  | closeFailed (c : Read)
  | expire (c : Read)
  | readTransaction (c : Read)
  | claim (c : Read) (amount : ℤ)
  | recordWeb (c : Read) (amount : ℤ)
  | settle (c : Read) (amount : ℤ)
  | recordException (c : Read) (amount : ℤ)
  | nowpaymentsWebhook (reference : Reference) (paymentId : String) (v : VerifiedPayment)
  | nowpaymentsFailure (reference : Reference)
  | done (answer : Answer)

inductive Request where
  | payLink (payer : UserId) (id : LinkId)
  | payInvoice (payer : UserId) (id : InvoiceId)
  | cancelInvoice (id : InvoiceId)
  | start (target : Target)
  | reconcile (reference : Reference)
  | complete (reference : Reference) (provider : QrProvider) (v : VerifiedPayment)
  | markFailed (reference : Reference)
  | nowpaymentsWebhook (reference : Reference) (paymentId : String) (v : VerifiedPayment)

/-- The business behind the target, when it is approved. -/
structure Business where
  ownerUserId : UserId
  merchantId : Option ℕ
  deriving DecidableEq

/-- `throws` fails the await, a transaction before it commits. `reference` is what a new row of
`transactions` is given, `sale` the columns of a sale that `initialize` computes. -/
structure Outcome where
  throws : Bool
  now : Time
  today : Time
  business : Option Business
  reference : Reference
  transactionId : ℕ
  walletId : WalletId
  amountFarm : ℤ
  metadata : Metadata
  verified : VerifiedPayment
  rule : FeeRule

def afterSale : Origin → Call
  | none => .done .ok
  | some c => .saleStatus c

/-- Where a call goes on when its await fails. -/
def onThrow : Call → Call
  | .walletFor p | .sendFunds p | .recordPayment p _ => .revert p
  | .stampInvoice id status _ => .revert (.invoice id status)
  | .initializeSale h _ | .failInit h _ | .createCheckout h _ =>
    .release h.target h.checkoutId .thrown
  | .openProvider h reference => .failInit h reference
  -- `reconcile` catches what `verify` throws
  | .verify _ | .poll _ _ | .complete (some _) _ _ _ | .settleSale (some _) _ _ _
  | .markFailed (some _) _ | .saleStatus _ => .done (.status .pending)
  | .recordException _ _ => .done (.status .completed)
  | _ => .done .thrown

/-- `next` where the statement has counted a row, else `none'`. -/
def counted (s : Store) (next none' : Call) : Option Store → Store × Call
  | some s' => (s', next)
  | none => (s, none')

/-- The link or invoice is payable, and for what. -/
def payable (now : Time) (s : Store) : Target → Option ℤ
  | .link id => ((s.links id).filter fun l => linkState now l == .active).map Link.amount
  | .invoice id => ((s.invoices id).filter fun i => i.status.isPayable).map Invoice.total

def afterVerify (o : Outcome) (s : Store) (c : Read) : Store × Call :=
  match QrPayments.saleStatus ((s.sales c.row.reference).map Sale.status) with
  | .failed =>
    ({ s with reportedFailed := s.reportedFailed ++ [c.row.reference] }, .closeFailed c)
  | .completed => (s, .readTransaction c)
  | .pending =>
    if c.wasExpired = false ∧ c.row.expiresAt.any (fun t => decide (t < o.now)) then (s, .expire c)
    else (s, .done (.status c.row.status))

def afterPoll (c : Read) (provider : QrProvider) (v : VerifiedPayment) : Call :=
  match verdict provider v with
  | .complete => .complete (some c) c.row.reference provider v
  | .markFailed => .markFailed (some c) c.row.reference
  | .nothing => .saleStatus c

def Hold.checkout (h : Hold) (reference : Reference) : Checkout :=
  ⟨h.target, reference, h.amount, .pending, true, some h.expiresAt⟩

/-- `business_web_checkouts.create`, whose id and reference are unique. -/
def Store.createCheckout (h : Hold) (reference : Reference) (s : Store) : Option Store :=
  match s.checkout h.checkoutId, s.findCheckout reference with
  | none, none => some (s.setCheckout h.checkoutId (h.checkout reference))
  | _, _ => none

/-- The rest of `payLink` or `payInvoice` once `pay` has returned. -/
def afterPay (reference : Reference) : InApp → Call
  | .link _ => .done .ok
  | .invoice id status => .stampInvoice id status reference

/-- What the `catch` block of `payLink` or `payInvoice` writes. -/
def Store.revert (s : Store) : InApp → Store
  | .link id =>
    (s.updateLink id (fun _ => true) fun l => { l with useCount := l.useCount - 1 }).getD s
  | .invoice id status =>
    (s.updateInvoice id (fun _ => true) fun i => { i with status := status }).getD s

def Store.stampInvoice (id : InvoiceId) (reference : Reference) (s : Store) : Store :=
  (s.updateInvoice id (fun _ => true) fun i =>
    { i with transactionReference := some reference }).getD s

/-- The metadata that the NOWPayments webhook writes back. -/
def Store.linkPayment (reference : Reference) (paymentId : String) (sale : Sale) (s : Store) :
    Store :=
  let t := sale.transaction
  s.putSale reference ⟨some { sale with transaction := { t with
    metadata := { t.metadata with nowpaymentsPaymentId := some paymentId } } }, s.till⟩

def afterWebhook (reference : Reference) (v : VerifiedPayment) : Call :=
  match verdict .nowpayments v with
  | .complete => .complete none reference .nowpayments v
  | .markFailed => .nowpaymentsFailure reference
  | .nothing => .done .ok

/-- One await that is answered. -/
def run (o : Outcome) (s : Store) (call : Call) : Store × Call :=
  match call with
  | .payLink payer id =>
    match s.links id, o.business with
    | some l, some b =>
      if linkState o.now l = .active ∧ b.ownerUserId ≠ payer then (s, .takeUse id l.maxUses)
      else (s, .done .thrown)
    | _, _ => (s, .done .thrown)
  | .takeUse id maxUses =>
    counted s (.walletFor (.link id)) (.done .thrown) (s.takeUse id maxUses)
  | .markOverdue payer id => (s.markOverdue o.today, .payInvoice payer id)
  | .payInvoice payer id =>
    match s.invoices id, o.business with
    | some i, some b =>
      if i.status.isPayable = true ∧ b.ownerUserId ≠ payer then (s, .claimInvoice id i.status)
      else (s, .done .thrown)
    | _, _ => (s, .done .thrown)
  | .claimInvoice id status =>
    counted s (.walletFor (.invoice id status)) (.done .thrown) (s.claimInvoice id o.now)
  | .walletFor p => (s, .sendFunds p)
  | .sendFunds p =>
    counted s (.recordPayment p o.reference) (.revert p) (s.transfer p.target o.reference)
  | .recordPayment p reference =>
    let amount := match p with
      | .link id => (s.links id).elim 0 Link.amount
      | .invoice id _ => (s.invoices id).elim 0 Invoice.total
    counted s (afterPay reference p) (.revert p)
      (s.recordPayment ⟨p.target, reference, amount, .app⟩)
  | .stampInvoice id _ reference => (s.stampInvoice id reference, .done .ok)
  | .revert p => (s.revert p, .done .thrown)
  | .cancelInvoice id => counted s (.done .ok) (.done .thrown) (s.cancelInvoice id)
  | .start target =>
    match payable o.now s target, o.business.bind Business.merchantId with
    | some amount, some merchantId =>
      ({ s with checkouts := s.checkouts ++ [none] },
        .reserve ⟨target, s.checkouts.length, amount, o.now + HOLD⟩ merchantId)
    | _, _ => (s, .done .thrown)
  | .reserve h merchantId =>
    counted s (.initializeSale h merchantId) (.done .thrown)
      (s.reserve h.target h.checkoutId o.now h.expiresAt)
  | .initializeSale h merchantId =>
    counted s (.openProvider h o.reference) (.release h.target h.checkoutId .thrown) <|
      s.createSale o.reference
        (newSale o.transactionId merchantId o.walletId o.amountFarm o.metadata)
  | .openProvider h reference => (s, .createCheckout h reference)
  | .failInit h reference =>
    (s.putSale reference (markFailedTx (s.atSale reference)).1,
      .release h.target h.checkoutId .thrown)
  | .createCheckout h reference =>
    counted s (.done .ok) (.release h.target h.checkoutId .thrown) (s.createCheckout h reference)
  | .release target id answer => (s.release target id, .done answer)
  | .reconcile reference =>
    match s.findCheckout reference with
    | none => (s, .done .thrown)
    | some (id, row) =>
      if row.status = .pending ∨ row.status = .expired then (s, .verify ⟨id, row⟩)
      else (s, .done (.status row.status))
  | .verify c =>
    match (s.sales c.row.reference).filter Sale.isPublicQrSale with
    | none => (s, .done (.status .pending))
    | some sale =>
      match sale.pollProvider with
      | some provider => (s, .poll c provider)
      | none => (s, .saleStatus c)
  | .poll c provider => (s, afterPoll c provider o.verified)
  | .complete origin reference provider v =>
    match settlementOf reference provider v (s.sales reference) with
    | none => (s, afterSale origin)
    | some p => (s, .settleSale origin reference o.rule p)
  | .settleSale origin reference rule p =>
    match completeTx rule p (s.atSale reference) with
    | none => (s, onThrow (.settleSale origin reference rule p))
    | some (q, _) => (s.putSale reference q, afterSale origin)
  | .markFailed origin reference =>
    (s.putSale reference (markFailedTx (s.atSale reference)).1, afterSale origin)
  | .saleStatus c => afterVerify o s c
  | .closeFailed c =>
    counted s
      (if c.wasExpired = false ∧ c.row.reserved = true then
        .release c.row.target c.id (.status .failed) else .done (.status .failed))
      (.done (.status .failed)) (s.moveCheckout c.id c.row.status .failed)
  | .expire c =>
    counted s
      (if c.row.reserved = true then .release c.row.target c.id (.status .expired)
        else .done (.status .expired))
      (.done (.status .expired)) (s.moveCheckout c.id .pending .expired)
  | .readTransaction c =>
    let credited := (s.sales c.row.reference).elim 0 fun sale => sale.transaction.amount
    (s, .claim c (if credited = 0 then c.row.amount else credited))
  | .claim c amount =>
    counted s (.recordWeb c amount) (.done (.status .completed))
      (s.moveCheckout c.id c.row.status .completed)
  | .recordWeb c amount =>
    counted s (.settle c amount) (.done .thrown)
      (s.recordPayment ⟨c.row.target, c.row.reference, amount, .web⟩)
  | .settle c amount =>
    counted s (.done (.status .completed)) (.recordException c amount) (s.settle c.id c.row o.now)
  | .recordException c amount =>
    counted s (.done (.status .completed)) (.done (.status .completed))
      (s.recordException ⟨c.row.target, c.row.reference, amount, .web⟩)
  | .nowpaymentsWebhook reference paymentId v =>
    match (s.sales reference).filter fun sale =>
        nowpaymentsWebhookMatches reference sale.transaction.metadata v paymentId with
    | none => (s, .done .ok)
    | some sale => (s.linkPayment reference paymentId sale, afterWebhook reference v)
  | .nowpaymentsFailure reference =>
    (s.putSale reference (nowpaymentsFailureTx (s.atSale reference)), .done .ok)
  | .done answer => (s, .done answer)

def step (o : Outcome) (s : Store) : Call → Option (Store × Call)
  | .done _ => none
  | call => some (if o.throws then (s, onThrow call) else run o s call)

def program : Program Store Call Request Outcome where
  enter
    | .payLink payer id => .payLink payer id
    | .payInvoice payer id => .markOverdue payer id
    | .cancelInvoice id => .cancelInvoice id
    | .start target => .start target
    | .reconcile reference => .reconcile reference
    | .complete reference provider v => .complete none reference provider v
    | .markFailed reference => .markFailed none reference
    | .nowpaymentsWebhook reference paymentId v => .nowpaymentsWebhook reference paymentId v
  step := step

end FarmBackend.Commerce
