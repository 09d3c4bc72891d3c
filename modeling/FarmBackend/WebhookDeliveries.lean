import FarmBackend.Interleaving

/-!
# One webhook delivery

The row of a delivery and the calls that attempt it: the one that creates it, the cron, and the
dashboard. Each statement and each HTTP post is one step. An attempt reads the row, posts, and writes
what it has computed from the row that it has read. What is thrown before the post is caught with what
the post throws.
-/

namespace FarmBackend.WebhookDeliveries
open Interleaving

set_option autoImplicit false

inductive DeliveryStatus where
  | pending
  | retrying
  | succeeded
  | failed
  deriving DecidableEq

structure Delivery where
  status : DeliveryStatus
  attempts : ℕ
  nextAttemptAt : Option ℕ

/-- Besides the row this is history: the posts, the attempts that have read the row and not written
it, whether a post was answered with 2xx, whether an attempt that started after that has posted, and
whether there was a manual retry. -/
structure Store where
  delivery : Option Delivery
  posts : ℕ
  inFlight : ℕ
  answered : Bool
  reposted : Bool
  retried : Bool

/-- `ready` says that the endpoint is active, its URL safe and its secret readable; `answer` is the
status of the response, unless the post throws. -/
structure Outcome where
  now : ℕ
  ready : Bool
  answer : Option ℕ

inductive Request where
  | enqueue
  | retryDue
  | retryNow

/-- A running call, named after its next step; `late` says that the attempt has started after an
answer with 2xx. -/
inductive Call where
  | enqueue
  | retryDue
  | retryNow
  | attempt
  | post (attempts : ℕ) (late : Bool)
  | record (attempts : ℕ) (ok : Bool)
  | done

/-- `RETRY_DELAYS_MS`. -/
def retryDelays : List ℕ := [60000, 300000, 1800000, 7200000, 21600000]

/-- `MAX_ATTEMPTS`. -/
def maxAttempts : ℕ := retryDelays.length + 1

def DeliveryStatus.isOpen : DeliveryStatus → Bool
  | .pending | .retrying => true
  | .succeeded | .failed => false

/-- No error: the post was answered, with 2xx. -/
def accepted (answer : Option ℕ) : Bool := answer.any fun status => 200 ≤ status && status < 300

/-- What an attempt writes. -/
def recorded (now attempts : ℕ) (ok : Bool) : Delivery :=
  if ok then ⟨.succeeded, attempts, none⟩
  else if maxAttempts ≤ attempts then ⟨.failed, attempts, none⟩
  else ⟨.retrying, attempts, retryDelays[attempts - 1]?.map (now + ·)⟩

def step (o : Outcome) (s : Store) : Call → Option (Store × Call)
  | .enqueue =>
    if s.delivery.isSome then some (s, .done)
    else some ({ s with delivery := some ⟨.pending, 0, some o.now⟩ }, .attempt)
  | .retryDue =>
    some (s, if s.delivery.any fun d => d.status.isOpen && d.nextAttemptAt.any (· ≤ o.now) then
      .attempt else .done)
  | .retryNow =>
    match s.delivery with
    | none => none
    | some d =>
      some ({ s with
        delivery := some { d with status := .retrying, nextAttemptAt := some o.now }
        retried := true }, .attempt)
  | .attempt =>
    match s.delivery with
    | none => some (s, .done)
    | some d =>
      if d.status.isOpen then
        some ({ s with inFlight := s.inFlight + 1 }, .post d.attempts s.answered)
      else some (s, .done)
  | .post attempts late =>
    if o.ready then
      some ({ s with
        posts := s.posts + 1
        answered := s.answered || accepted o.answer
        reposted := s.reposted || late }, .record attempts (accepted o.answer))
    else some (s, .record attempts false)
  | .record attempts ok =>
    some ({ s with
      delivery := s.delivery.map fun _ => recorded o.now (attempts + 1) ok
      inFlight := s.inFlight - 1 }, .done)
  | .done => none

def enter : Request → Call
  | .enqueue => .enqueue
  | .retryDue => .retryDue
  | .retryNow => .retryNow

def program : Program Store Call Request Outcome := ⟨enter, step⟩

def empty : Store := ⟨none, 0, 0, false, false, false⟩

namespace Call

/-- The attempt has read the row and not written it. -/
def inFlight : Call → Bool
  | .post _ _ | .record _ _ => true
  | _ => false

/-- The attempt has been answered with 2xx and is about to write that. -/
def delivers : Call → Bool
  | .record _ ok => ok
  | _ => false

end Call

namespace Store

def status (s : Store) : Option DeliveryStatus := s.delivery.map Delivery.status

def attempts (s : Store) : ℕ := s.delivery.elim 0 Delivery.attempts

end Store

/-- An answer with 2xx is recorded by its own attempt and stays so; nothing that starts later posts;
and without a manual retry the posts are bounded, and are the recorded attempts when nothing is in
flight. -/
structure Consistent (c : Config Store Call) : Prop where
  delivered : c.store.answered = true →
    c.store.status = some .succeeded ∨ ∃ call ∈ c.calls, call.delivers = true
  reposted : c.store.reposted = false
  bounded : c.store.retried = false → c.store.posts ≤ maxAttempts
  counted : c.store.retried = false → (∀ call ∈ c.calls, call.inFlight = false) →
    c.store.posts = c.store.attempts

/-- An attempt goes on only when no other is in flight, it posts, and nobody retries what has
succeeded. -/
def Heeds (o : Outcome) (s : Store) : Call → Prop
  | .attempt => s.status.any DeliveryStatus.isOpen = true → s.inFlight = 0
  | .post _ _ => o.ready = true
  | .retryNow => s.status ≠ some .succeeded
  | _ => True

instance (o : Outcome) (s : Store) (call : Call) : Decidable (Heeds o s call) :=
  match call with
  | .attempt => inferInstanceAs (Decidable (_ → _))
  | .post _ _ => inferInstanceAs (Decidable (_ = _))
  | .retryNow => inferInstanceAs (Decidable (_ ≠ _))
  | .enqueue | .retryDue | .record _ _ | .done => .isTrue trivial

end FarmBackend.WebhookDeliveries
