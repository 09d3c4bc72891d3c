import FarmBackend.Interleaving

/-!
# Async functions as trees of awaits

An async function returns, throws, or awaits an operation and goes on with its answer. `try`/`catch`
is the handler of such a tree. A monitor carries a ghost state
through the awaits of a run: it says which operations are allowed there, and `Ensures` is the
weakest precondition that goes with it. Calls that are such trees interleave over a store as the
calls of a program do.
-/

namespace FarmBackend.Awaiting
open Interleaving

set_option autoImplicit false

universe u v w x
variable {Err : Type} {Op : Type → Type u} {α β γ S : Type}

/-- `Op γ` are the operations that are answered by a `γ`. -/
inductive Async (Err : Type) (Op : Type → Type u) (α : Type) : Type (max 1 u) where
  | pure (a : α)
  | throw (e : Err)
  | await {γ : Type} (op : Op γ) (next : γ → Async Err Op α)

/-- One await and how it was answered. -/
structure Event (Op : Type → Type u) : Type (max 1 u) where
  {γ : Type}
  op : Op γ
  answer : γ

namespace Async

def bind : Async Err Op α → (α → Async Err Op β) → Async Err Op β
  | .pure a, k => k a
  | .throw e, _ => .throw e
  | .await op next, k => .await op fun answer => (next answer).bind k

def handle : Async Err Op α → (Err → Async Err Op α) → Async Err Op α
  | .pure a, _ => .pure a
  | .throw e, handler => handler e
  | .await op next, handler => .await op fun answer => (next answer).handle handler

instance : Monad (Async Err Op) where
  pure := .pure
  bind := .bind

instance : MonadExcept Err (Async Err Op) where
  throw := .throw
  tryCatch := .handle

/-- One await, whatever is answered. -/
def perform (op : Op γ) : Async Err Op γ := .await op .pure

/-- `for (const a of list) await body(a)`. -/
def forEach (body : α → Async Err Op Unit) : List α → Async Err Op Unit
  | [] => .pure ()
  | a :: list => (body a).bind fun _ => forEach body list

def finished : Async Err Op α → Bool
  | .pure _ => true
  | .throw _ => true
  | .await _ _ => false

end Async

/-- `Runs program trace rest`: with the answers in `trace` the program has come to `rest`. -/
inductive Runs (program : Async Err Op α) :
    List (Event Op) → Async Err Op α → Prop where
  | start : Runs program [] program
  | await {trace : List (Event Op)} {γ : Type} {op : Op γ}
      {next : γ → Async Err Op α}
      (h : Runs program trace (.await op next)) (answer : γ) :
      Runs program (trace ++ [⟨op, answer⟩]) (next answer)

theorem Runs.cons {op : Op γ} {next : γ → Async Err Op α} {answer : γ} {trace : List (Event Op)}
    {rest : Async Err Op α} (h : Runs (next answer) trace rest) :
    Runs (.await op next) (⟨op, answer⟩ :: trace) rest := by
  induction h with
  | start => exact .await .start answer
  | await _ answer' ih => exact .await ih answer'

/-- The run in which every operation is answered by an oracle. -/
def Async.follow (oracle : {γ : Type} → Op γ → γ) :
    Async Err Op α → List (Event Op) × Async Err Op α
  | .pure a => ([], .pure a)
  | .throw e => ([], .throw e)
  | .await op next =>
    let (trace, rest) := (next (oracle op)).follow oracle
    (⟨op, oracle op⟩ :: trace, rest)

theorem runs_follow (oracle : {γ : Type} → Op γ → γ) (program : Async Err Op α) :
    Runs program (program.follow oracle).1 (program.follow oracle).2 := by
  induction program with
  | pure a => exact .start
  | throw e => exact .start
  | await op next ih => exact .cons (ih (oracle op))

theorem finished_follow (oracle : {γ : Type} → Op γ → γ) (program : Async Err Op α) :
    (program.follow oracle).2.finished = true := by
  induction program with
  | pure a => rfl
  | throw e => rfl
  | await op next ih => exact ih (oracle op)

/-- A ghost state of type `S` that follows the awaits of one function. -/
structure Monitor (Op : Type → Type u) (S : Type) : Type (max 1 u) where
  allows {γ : Type} : S → Op γ → Prop
  after {γ : Type} : S → Op γ → γ → S

namespace Monitor
variable (M : Monitor Op S)

/-- Every await from here on is allowed, and `Q` holds of the outcome and the last ghost state. -/
def Ensures (Q : Except Err α → S → Prop) : S → Async Err Op α → Prop
  | s, .pure a => Q (.ok a) s
  | s, .throw e => Q (.error e) s
  | s, .await op next =>
    M.allows s op ∧ ∀ answer, Ensures Q (M.after s op answer) (next answer)

/-- The ghost state at the end of a trace. -/
def run (s : S) (trace : List (Event Op)) : S :=
  trace.foldl (fun s event => M.after s event.op event.answer) s

variable {M} {Q R : Except Err α → S → Prop} {s : S}

theorem run_append (trace : List (Event Op)) (event : Event Op) :
    M.run s (trace ++ [event]) = M.after (M.run s trace) event.op event.answer := by
  simp [run]

/-- What was ensured at the start is ensured wherever a run has come to. -/
theorem Ensures.runs {program rest : Async Err Op α} {trace : List (Event Op)}
    (h : M.Ensures Q s program) (hRun : Runs program trace rest) :
    M.Ensures Q (M.run s trace) rest := by
  induction hRun with
  | start => exact h
  | await hRun answer ih =>
    rw [run_append]
    exact ih.2 answer

theorem Ensures.allowed {program : Async Err Op α} {trace : List (Event Op)} {op : Op γ}
    {next : γ → Async Err Op α} (h : M.Ensures Q s program)
    (hRun : Runs program trace (.await op next)) : M.allows (M.run s trace) op :=
  (h.runs hRun).1

theorem Ensures.mono {program : Async Err Op α} (h : M.Ensures Q s program)
    (hImp : ∀ outcome s, Q outcome s → R outcome s) : M.Ensures R s program := by
  induction program generalizing s with
  | pure a => exact hImp _ _ h
  | throw e => exact hImp _ _ h
  | await op next ih => exact ⟨h.1, fun answer => ih answer (h.2 answer)⟩

/-- The monitor that allows what keeps `I`, however it is answered. -/
def keeping (after : {γ : Type} → S → Op γ → γ → S) (I : S → Prop) :
    Monitor Op S where
  allows s op := ∀ answer, I (after s op answer)
  after := after

theorem Ensures.kept {after : {γ : Type} → S → Op γ → γ → S} {I : S → Prop}
    {program rest : Async Err Op α} {trace : List (Event Op)}
    (h : (keeping after I).Ensures Q s program) (hInit : I s) (hRun : Runs program trace rest) :
    I ((keeping after I).run s trace) := by
  cases hRun with
  | start => exact hInit
  | await hRun answer =>
    rw [run_append]
    exact h.allowed hRun answer

/-! The rules. -/

@[simp] theorem ensures_pure (a : α) :
    M.Ensures Q s (Pure.pure a : Async Err Op α) ↔ Q (.ok a) s := Iff.rfl

@[simp] theorem ensures_throw (e : Err) :
    M.Ensures Q s (MonadExcept.throw e : Async Err Op α) ↔ Q (.error e) s := Iff.rfl

@[simp] theorem ensures_bind {Q : Except Err β → S → Prop} (program : Async Err Op α)
    (k : α → Async Err Op β) :
    M.Ensures Q s (program >>= k) ↔ M.Ensures (fun outcome s => match outcome with
      | .ok a => M.Ensures Q s (k a)
      | .error e => Q (.error e) s) s program := by
  change M.Ensures Q s (program.bind k) ↔ _
  induction program generalizing s with
  | pure a => exact Iff.rfl
  | throw e => exact Iff.rfl
  | await op next ih => exact and_congr_right fun _ => forall_congr' fun answer => ih answer

@[simp] theorem ensures_tryCatch (program : Async Err Op α)
    (handler : Err → Async Err Op α) :
    M.Ensures Q s (MonadExcept.tryCatch program handler) ↔
      M.Ensures (fun outcome s => match outcome with
        | .ok a => Q (.ok a) s
        | .error e => M.Ensures Q s (handler e)) s program := by
  change M.Ensures Q s (program.handle handler) ↔ _
  induction program generalizing s with
  | pure a => exact Iff.rfl
  | throw e => exact Iff.rfl
  | await op next ih => exact and_congr_right fun _ => forall_congr' fun answer => ih answer

@[simp] theorem ensures_perform {op : Op γ} {Q : Except Err γ → S → Prop} :
    M.Ensures Q s (Async.perform op) ↔
      M.allows s op ∧ ∀ answer, Q (.ok answer) (M.after s op answer) := Iff.rfl

theorem ensures_ite {c : Prop} [Decidable c] {yes no : Async Err Op α} :
    M.Ensures Q s (if c then yes else no) ↔
      (c → M.Ensures Q s yes) ∧ (¬ c → M.Ensures Q s no) := by
  split <;> simp_all

/-- A loop ensures what every turn keeps. -/
theorem ensures_forEach {body : β → Async Err Op Unit} (I : S → Prop)
    (hBody : ∀ b s, I s → M.Ensures (fun _ => I) s (body b)) (list : List β) {s : S} (h : I s) :
    M.Ensures (fun _ => I) s (Async.forEach body list) := by
  induction list generalizing s with
  | nil => exact h
  | cons b list ih =>
    refine (ensures_bind (body b) _).mpr ((hBody b s h).mono ?_)
    intro outcome s hI
    cases outcome with
    | ok _ => exact ih hI
    | error _ => exact hI

/-! Functions whose awaits are allowed in every ghost state. -/

variable (M) in
def Permits (program : Async Err Op α) : Prop := ∀ s, M.Ensures (fun _ _ => True) s program

section Permits
variable {program : Async Err Op α}

theorem permits_pure (a : α) : M.Permits (Pure.pure a : Async Err Op α) := fun _ => trivial

theorem permits_throw (e : Err) : M.Permits (MonadExcept.throw e : Async Err Op α) :=
  fun _ => trivial

theorem Permits.bind (h : M.Permits program) {k : α → Async Err Op β}
    (hNext : ∀ a, M.Permits (k a)) : M.Permits (program >>= k) := by
  intro s
  refine (ensures_bind program k).mpr ((h s).mono ?_)
  rintro (e | a) s _
  · trivial
  · exact hNext a s

theorem Permits.tryCatch (h : M.Permits program) {handler : Err → Async Err Op α}
    (hHandler : ∀ e, M.Permits (handler e)) :
    M.Permits (MonadExcept.tryCatch program handler) := by
  intro s
  refine (ensures_tryCatch program handler).mpr ((h s).mono ?_)
  rintro (e | a) s _
  · exact hHandler e s
  · trivial

theorem Permits.forEach {body : β → Async Err Op Unit} (hBody : ∀ b, M.Permits (body b))
    (list : List β) : M.Permits (Async.forEach body list) :=
  fun _ => ensures_forEach (fun _ => True) (fun b s _ => hBody b s) list trivial

end Permits

end Monitor

/-! Async functions as calls over a store. -/

/-- A call with the awaits it has behind it. -/
structure Running (Err : Type) (Op : Type → Type u) : Type (max 1 u) where
  history : List (Event Op)
  rest : Async Err Op Unit

variable {Store : Type v} {Outcome : Type w} {Request : Type x}

/-- `exec` runs one operation on the store and answers it. -/
def asyncProgram (entry : Request → Async Err Op Unit)
    (exec : Outcome → Store → {γ : Type} → Op γ → Store × γ) :
    Program Store (Running Err Op) Request Outcome where
  enter request := ⟨[], entry request⟩
  step outcome store call :=
    match call.rest with
    | .pure _ => none
    | .throw _ => none
    | .await op next =>
      let (store', answer) := exec outcome store op
      some (store', ⟨call.history ++ [⟨op, answer⟩], next answer⟩)

section Interleaved
variable {entry : Request → Async Err Op Unit}
  {exec : Outcome → Store → {γ : Type} → Op γ → Store × γ}
  {ok : Guard Store (Running Err Op) Outcome}

theorem asyncProgram_step {outcome : Outcome} {store store' : Store}
    {call call' : Running Err Op}
    (h : (asyncProgram entry exec).step outcome store call = some (store', call')) :
    ∃ (γ : Type) (op : Op γ) (next : γ → _), call.rest = .await op next ∧ store' = (exec outcome store op).1 ∧
      call' = ⟨call.history ++ [⟨op, (exec outcome store op).2⟩],
        next (exec outcome store op).2⟩ := by
  obtain ⟨history, rest⟩ := call
  cases rest with
  | pure a => cases h
  | throw e => cases h
  | await op next =>
    simp only [asyncProgram, Option.some.injEq, Prod.mk.injEq] at h
    exact ⟨_, op, next, rfl, h.1.symm, h.2.symm⟩

/-- Whatever the others do, every call is a run of the function it entered. -/
theorem calls_run {start : Store} {c : Config Store (Running Err Op)}
    (h : (asyncProgram entry exec).Reaches ok (Program.idle start) c) :
    ∀ call ∈ c.calls, ∃ request, Runs (entry request) call.history call.rest := by
  refine (h.assertions (fun _ => True)
    (fun _ call => ∃ request, Runs (entry request) call.history call.rest)
    ⟨trivial, by simp [Program.idle]⟩ ?_ ?_ ?_).2
  · intro request _ _
    exact ⟨request, .start⟩
  · rintro outcome store store' call call' _ ⟨request, hRun⟩ _ hStep
    obtain ⟨_, op, next, hRest, _, rfl⟩ := asyncProgram_step hStep
    rw [hRest] at hRun
    exact ⟨trivial, request, hRun.await _⟩
  · intro _ _ _ _ _ _ _ _ hOther _ _
    exact hOther

end Interleaved

end FarmBackend.Awaiting
