import Mathlib.Data.List.Nodup

/-!
# Provisioning a custodial wallet (`ChainWalletService.provision`)

Attempts on one wallet, one after the other, in which every await may throw. An attempt claims the
wallet, sends the transactions that the row does not have and writes all their ids at its end. When
one of them throws, only the status and the message are written.
-/

namespace FarmBackend.ChainProvisioning

set_option autoImplicit false

abbrev TxId := ℕ

inductive WalletStatus where
  | created
  | provisioning
  | ready
  | failed
  deriving DecidableEq

inductive Leg where
  | fund
  | usdcOptIn
  | farmOptIn
  deriving DecidableEq

structure UserChainWallet where
  status : WalletStatus
  error : Option String
  fundedTxId : Option TxId
  usdcOptInTx : Option TxId
  farmOptInTx : Option TxId
  deriving DecidableEq

/-- `succeeded` is history: the calls of `fund` and `optIn` that have returned, with their ids. -/
structure Store where
  wallet : UserChainWallet
  succeeded : List (Leg × TxId)

/-- A database write returns, or throws with what it wrote or without it. -/
inductive Reply where
  | returned
  | lost
  | failed
  deriving DecidableEq

/-- What the awaits of an attempt come to. A call that throws has no id; `signer` is `walletSigner`,
which may throw too. -/
structure Attempt where
  claim : Reply
  found : Bool
  call : Leg → Option TxId
  signer : Bool
  update : Reply
  updateFailed : Reply
  message : String

namespace UserChainWallet

def txId (w : UserChainWallet) : Leg → Option TxId
  | .fund => w.fundedTxId
  | .usdcOptIn => w.usdcOptInTx
  | .farmOptIn => w.farmOptInTx

def setTxId (w : UserChainWallet) (d : Leg × TxId) : UserChainWallet :=
  match d.1 with
  | .fund => { w with fundedTxId := some d.2 }
  | .usdcOptIn => { w with usdcOptInTx := some d.2 }
  | .farmOptIn => { w with farmOptInTx := some d.2 }

def claimable (w : UserChainWallet) : Bool := w.status == .created || w.status == .failed

def claimed (w : UserChainWallet) : UserChainWallet :=
  { w with status := .provisioning, error := none }

/-- `{ ...data, status: 'ready' }`. -/
def setReady (data : List (Leg × TxId)) (w : UserChainWallet) : UserChainWallet :=
  { data.foldl setTxId w with status := .ready }

def setFailed (message : String) (w : UserChainWallet) : UserChainWallet :=
  { w with status := .failed, error := some (message.take 300).toString }

end UserChainWallet

/-- One of the calls, left out when the row has its transaction. The flag says that nothing has
thrown. -/
def take (a : Attempt) (w : UserChainWallet) (leg : Leg) (r : List (Leg × TxId) × Bool) :
    List (Leg × TxId) × Bool :=
  if r.2 = true ∧ w.txId leg = none then
    match a.call leg with
    | none => (r.1, false)
    | some id => (r.1 ++ [(leg, id)], true)
  else r

/-- The `try` up to its update: `data`, and whether nothing has thrown. -/
def calls (a : Attempt) (w : UserChainWallet) : List (Leg × TxId) × Bool :=
  let funded := take a w .fund ([], true)
  take a w .farmOptIn (take a w .usdcOptIn (funded.1, funded.2 && a.signer))

namespace Store

def update (f : UserChainWallet → UserChainWallet) (s : Store) : Store :=
  { s with wallet := f s.wallet }

def caught (a : Attempt) (s : Store) : Store :=
  if a.updateFailed = .failed then s else s.update (UserChainWallet.setFailed a.message)

end Store

/-- From the `try` on, in the store after the claim. -/
def attemptClaimed (a : Attempt) (s : Store) : Store :=
  let (data, ok) := calls a s.wallet
  let s := { s with succeeded := s.succeeded ++ data }
  if ok = false then s.caught a
  else
    match a.update with
    | .returned => s.update (UserChainWallet.setReady data)
    | .lost => (s.update (UserChainWallet.setReady data)).caught a
    | .failed => s.caught a

def provision (a : Attempt) (s : Store) : Store :=
  if a.claim = .failed ∨ s.wallet.claimable = false then s
  else
    let s := s.update UserChainWallet.claimed
    if a.claim = .lost ∨ a.found = false then s else attemptClaimed a s

def provisions (attempts : List Attempt) (s : Store) : Store :=
  attempts.foldl (fun s a => provision a s) s

/-! ### The claim and its condition -/

/-- The wallet is ready or can be claimed again, the row has the id of every call that returned, and
no call has returned twice. -/
structure Remembers (s : Store) : Prop where
  settled : s.wallet.status = .ready ∨ s.wallet.claimable = true
  remembered : ∀ d ∈ s.succeeded, s.wallet.txId d.1 = some d.2
  once : (s.succeeded.map Prod.fst).Nodup

/-- Every call that the row still needs returns. -/
def Completes (a : Attempt) (w : UserChainWallet) : Prop :=
  a.signer = true ∧ ∀ leg, w.txId leg = none → (a.call leg).isSome = true

/-- The first call that the row still needs throws, or the signer before it. -/
def Quiet (a : Attempt) (w : UserChainWallet) : Prop :=
  (w.fundedTxId = none → a.call .fund = none) ∧
    (w.fundedTxId ≠ none → a.signer = true →
      (w.usdcOptInTx = none → a.call .usdcOptIn = none) ∧
      (w.usdcOptInTx ≠ none → w.farmOptInTx = none → a.call .farmOptIn = none))

/-- The attempt claims nothing; or it goes on after its claim, and either every call returns and the
update is committed, or no call returns and the status `failed` is written. -/
def Heeds (a : Attempt) (w : UserChainWallet) : Prop :=
  w.claimable = true → a.claim ≠ .failed → a.claim = .returned ∧ a.found = true ∧
    (Completes a w ∧ a.update ≠ .failed ∨ Quiet a w ∧ a.updateFailed ≠ .failed)

/-- Every attempt heeds the row that it starts from. -/
def AllHeed : List Attempt → Store → Prop
  | [], _ => True
  | a :: attempts, s => Heeds a s.wallet ∧ AllHeed attempts (provision a s)

section Attempts
variable {a : Attempt} {w : UserChainWallet} {s : Store}

theorem txId_setTxId (w : UserChainWallet) (d : Leg × TxId) (leg : Leg) :
    (w.setTxId d).txId leg = if d.1 = leg then some d.2 else w.txId leg := by
  obtain ⟨done, id⟩ := d
  cases done <;> cases leg <;> rfl

/-! The calls of an attempt. -/

theorem take_ok {leg : Leg} {r : List (Leg × TxId) × Bool} :
    (take a w leg r).2 = true ↔ r.2 = true ∧ (w.txId leg = none → (a.call leg).isSome = true) := by
  unfold take
  split
  · rename_i hMissing
    cases hCall : a.call leg <;> simp [hMissing]
  · rename_i hSkipped
    by_cases hOk : r.2 = true <;> simp_all

theorem take_sublist (leg : Leg) (r : List (Leg × TxId) × Bool) :
    ((take a w leg r).1.map Prod.fst).Sublist (r.1.map Prod.fst ++ [leg]) := by
  unfold take
  split
  · cases a.call leg with
    | none => exact List.sublist_append_left _ _
    | some id => rw [List.map_append, List.map_singleton]
  · exact List.sublist_append_left _ _

theorem take_missing {leg : Leg} {r : List (Leg × TxId) × Bool}
    (h : ∀ d ∈ r.1, w.txId d.1 = none) : ∀ d ∈ (take a w leg r).1, w.txId d.1 = none := by
  unfold take
  split
  · rename_i hMissing
    cases a.call leg with
    | none => exact h
    | some id =>
      intro d hMem
      rcases List.mem_append.mp hMem with hOld | hNew
      · exact h d hOld
      · rw [List.mem_singleton.mp hNew]
        exact hMissing.2
  · exact h

theorem calls_missing : ∀ d ∈ (calls a w).1, w.txId d.1 = none := by
  have hFund : ∀ d ∈ (take a w .fund ([], true)).1, w.txId d.1 = none :=
    take_missing (List.forall_mem_nil _)
  exact take_missing (take_missing hFund)

theorem calls_nodup (a : Attempt) (w : UserChainWallet) : ((calls a w).1.map Prod.fst).Nodup := by
  have hFund := take_sublist (a := a) (w := w) .fund ([], true)
  have hUsdc := take_sublist (a := a) (w := w) .usdcOptIn
    ((take a w .fund ([], true)).1, (take a w .fund ([], true)).2 && a.signer)
  have hFarm := take_sublist (a := a) (w := w) .farmOptIn (take a w .usdcOptIn
    ((take a w .fund ([], true)).1, (take a w .fund ([], true)).2 && a.signer))
  have hAll : ((calls a w).1.map Prod.fst).Sublist [.fund, .usdcOptIn, .farmOptIn] :=
    hFarm.trans ((hUsdc.trans (hFund.append_right _)).append_right _)
  exact hAll.nodup (by decide)

theorem completes_iff : Completes a w ↔ (calls a w).2 = true := by
  simp only [calls, take_ok, Bool.and_eq_true, true_and]
  constructor
  · rintro ⟨hSigner, hLegs⟩
    exact ⟨⟨⟨hLegs .fund, hSigner⟩, hLegs .usdcOptIn⟩, hLegs .farmOptIn⟩
  · rintro ⟨⟨⟨hFund, hSigner⟩, hUsdc⟩, hFarm⟩
    refine ⟨hSigner, fun leg => ?_⟩
    cases leg with
    | fund => exact hFund
    | usdcOptIn => exact hUsdc
    | farmOptIn => exact hFarm

theorem take_nil {leg : Leg} {r : List (Leg × TxId) × Bool} :
    (take a w leg r).1 = [] ↔
      r.1 = [] ∧ (r.2 = true → w.txId leg = none → a.call leg = none) := by
  unfold take
  split
  · rename_i hMissing
    cases hCall : a.call leg <;> simp [hMissing]
  · rename_i hSkipped
    simp only [iff_self_and]
    intro _ hOk hMissing
    exact absurd ⟨hOk, hMissing⟩ hSkipped

theorem quiet_iff : Quiet a w ↔ (calls a w).1 = [] := by
  simp only [calls, take_nil, take_ok, Bool.and_eq_true, true_and, and_assoc, UserChainWallet.txId,
    Quiet]
  cases w.fundedTxId <;> cases w.usdcOptInTx <;> cases a.call .fund <;> cases a.call .usdcOptIn <;>
    cases a.signer <;> simp

/-! What the row keeps. -/

theorem txId_foldl_of_notMem {data : List (Leg × TxId)} {leg : Leg}
    (h : leg ∉ data.map Prod.fst) :
    (data.foldl UserChainWallet.setTxId w).txId leg = w.txId leg := by
  induction data generalizing w with
  | nil => rfl
  | cons d data ih =>
    rw [List.map_cons, List.mem_cons, not_or] at h
    rw [List.foldl_cons, ih h.2, txId_setTxId, if_neg (Ne.symm h.1)]

theorem txId_foldl_of_mem {data : List (Leg × TxId)} (hNodup : (data.map Prod.fst).Nodup)
    {d : Leg × TxId} (h : d ∈ data) :
    (data.foldl UserChainWallet.setTxId w).txId d.1 = some d.2 := by
  induction data generalizing w with
  | nil => cases h
  | cons e data ih =>
    rw [List.map_cons, List.nodup_cons] at hNodup
    rw [List.foldl_cons]
    rcases List.mem_cons.mp h with rfl | hTail
    · rw [txId_foldl_of_notMem hNodup.1, txId_setTxId, if_pos rfl]
    · exact ih hNodup.2 hTail

@[simp] theorem txId_status (status : WalletStatus) (error : Option String) (leg : Leg) :
    ({ w with status := status, error := error } : UserChainWallet).txId leg = w.txId leg := by
  cases leg <;> rfl

theorem known_notMem {d : Leg × TxId} (h : w.txId d.1 = some d.2) :
    d.1 ∉ (calls a w).1.map Prod.fst := by
  intro hMem
  obtain ⟨e, hIn, hSame⟩ := List.mem_map.mp hMem
  have hMissing := calls_missing e hIn
  rw [hSame, h] at hMissing
  cases hMissing

/-- What remains to be said of an attempt is its row, once its calls are counted. -/
theorem once_calls (hRemembered : ∀ d ∈ s.succeeded, s.wallet.txId d.1 = some d.2)
    (hOnce : (s.succeeded.map Prod.fst).Nodup) :
    ((s.succeeded ++ (calls a s.wallet).1).map Prod.fst).Nodup := by
  rw [List.map_append]
  refine List.nodup_append.mpr ⟨hOnce, calls_nodup a s.wallet, ?_⟩
  intro leg hOld other hNew
  obtain ⟨d, hIn, rfl⟩ := List.mem_map.mp hOld
  rintro rfl
  exact known_notMem (hRemembered d hIn) hNew

/-- A store in which the attempt has written its ids. -/
theorem remembers_written (hRemembered : ∀ d ∈ s.succeeded, s.wallet.txId d.1 = some d.2)
    (hOnce : (s.succeeded.map Prod.fst).Nodup) {s' : Store}
    (hSucceeded : s'.succeeded = s.succeeded ++ (calls a s.wallet).1)
    (hRow : ∀ leg, s'.wallet.txId leg =
      ((calls a s.wallet).1.foldl UserChainWallet.setTxId s.wallet).txId leg)
    (hSettled : s'.wallet.status = .ready ∨ s'.wallet.claimable = true) : Remembers s' := by
  refine ⟨hSettled, ?_, by rw [hSucceeded]; exact once_calls hRemembered hOnce⟩
  intro d hMem
  rw [hSucceeded, List.mem_append] at hMem
  rw [hRow]
  rcases hMem with hOld | hNew
  · rw [txId_foldl_of_notMem (known_notMem (hRemembered d hOld)), hRemembered d hOld]
  · exact txId_foldl_of_mem (calls_nodup a s.wallet) hNew

/-- A store in which the attempt has written no id. -/
theorem remembers_unwritten_iff (s' : Store)
    (hRemembered : ∀ d ∈ s.succeeded, s.wallet.txId d.1 = some d.2)
    (hOnce : (s.succeeded.map Prod.fst).Nodup)
    (hSucceeded : s'.succeeded = s.succeeded ++ (calls a s.wallet).1)
    (hRow : ∀ leg, s'.wallet.txId leg = s.wallet.txId leg) :
    Remembers s' ↔ Quiet a s.wallet ∧
      (s'.wallet.status = .ready ∨ s'.wallet.claimable = true) := by
  constructor
  · intro h
    refine ⟨?_, h.settled⟩
    rw [quiet_iff, List.eq_nil_iff_forall_not_mem]
    intro d hMem
    have hKnown := h.remembered d (by rw [hSucceeded]; exact List.mem_append_right _ hMem)
    rw [hRow, calls_missing d hMem] at hKnown
    cases hKnown
  · rintro ⟨hQuiet, hSettled⟩
    rw [quiet_iff.mp hQuiet, List.append_nil] at hSucceeded
    refine ⟨hSettled, ?_, by rw [hSucceeded]; exact hOnce⟩
    intro d hMem
    rw [hSucceeded] at hMem
    rw [hRow, hRemembered d hMem]

/-- The `catch` forgets every id. -/
theorem remembers_caught_iff (hStatus : s.wallet.status = .provisioning)
    (hRemembered : ∀ d ∈ s.succeeded, s.wallet.txId d.1 = some d.2)
    (hOnce : (s.succeeded.map Prod.fst).Nodup) :
    Remembers (Store.caught a { s with succeeded := s.succeeded ++ (calls a s.wallet).1 }) ↔
      Quiet a s.wallet ∧ a.updateFailed ≠ .failed := by
  let called : Store := { s with succeeded := s.succeeded ++ (calls a s.wallet).1 }
  unfold Store.caught
  split
  · rename_i hFailed
    have hCalled : called.wallet.status = .provisioning := hStatus
    refine (remembers_unwritten_iff called hRemembered hOnce rfl fun _ => rfl).trans ?_
    simp [hCalled, UserChainWallet.claimable, hFailed]
  · rename_i hWritten
    refine (remembers_unwritten_iff (called.update (UserChainWallet.setFailed a.message)) hRemembered
      hOnce rfl fun leg => txId_status _ _ leg).trans ?_
    simp [Store.update, UserChainWallet.setFailed, UserChainWallet.claimable, hWritten]

theorem remembers_attemptClaimed_iff (hStatus : s.wallet.status = .provisioning)
    (hRemembered : ∀ d ∈ s.succeeded, s.wallet.txId d.1 = some d.2)
    (hOnce : (s.succeeded.map Prod.fst).Nodup) :
    Remembers (attemptClaimed a s) ↔ Completes a s.wallet ∧ a.update ≠ .failed ∨
      Quiet a s.wallet ∧ a.updateFailed ≠ .failed := by
  have hCaught := remembers_caught_iff (a := a) hStatus hRemembered hOnce
  unfold attemptClaimed
  rw [completes_iff]
  by_cases hOk : (calls a s.wallet).2 = true
  · simp only [hOk, Bool.true_eq_false, if_false, true_and]
    cases hUpdate : a.update with
    | returned =>
      have hReady : Remembers (Store.update (UserChainWallet.setReady (calls a s.wallet).1)
          { s with succeeded := s.succeeded ++ (calls a s.wallet).1 }) :=
        remembers_written hRemembered hOnce rfl (fun leg => txId_status _ _ leg) (.inl rfl)
      simpa using hReady
    | lost =>
      -- the ids are written, whether or not the status is written over
      have hEither : Remembers (Store.caught a (Store.update
          (UserChainWallet.setReady (calls a s.wallet).1)
          { s with succeeded := s.succeeded ++ (calls a s.wallet).1 })) := by
        unfold Store.caught
        split
        · exact remembers_written hRemembered hOnce rfl (fun leg => txId_status _ _ leg) (.inl rfl)
        · exact remembers_written hRemembered hOnce rfl (fun leg => txId_status _ _ leg) (.inr rfl)
      simpa using hEither
    | failed => simpa using hCaught
  · have hThrew : (calls a s.wallet).2 = false := by simpa using hOk
    simpa [hThrew] using hCaught

/-- After an attempt the ids are remembered and the wallet is not stuck exactly when the attempt heeds
its row. -/
theorem remembers_provision_iff (h : Remembers s) : Remembers (provision a s) ↔ Heeds a s.wallet := by
  unfold provision Heeds
  by_cases hIdle : a.claim = .failed ∨ s.wallet.claimable = false
  · rw [if_pos hIdle]
    refine iff_of_true h ?_
    intro hClaimable hClaim
    rcases hIdle with hFailed | hNot
    · exact absurd hFailed hClaim
    · rw [hNot] at hClaimable
      cases hClaimable
  · obtain ⟨hClaim, hClaimable⟩ := not_or.mp hIdle
    have hStatus : (s.update UserChainWallet.claimed).wallet.status = .provisioning := rfl
    have hStuck : ¬Remembers (s.update UserChainWallet.claimed) := by
      intro hKept
      simpa [hStatus, UserChainWallet.claimable] using hKept.settled
    have hRow : ∀ leg, (s.update UserChainWallet.claimed).wallet.txId leg = s.wallet.txId leg :=
      fun leg => txId_status _ _ leg
    have hClaimed := remembers_attemptClaimed_iff (a := a) hStatus
      (fun d hMem => (hRow d.1).trans (h.remembered d hMem)) h.once
    have hSame : Completes a (s.update UserChainWallet.claimed).wallet ↔ Completes a s.wallet := by
      simp only [Completes, hRow]
    rw [if_neg hIdle]
    have hCan : s.wallet.claimable = true := by simpa using hClaimable
    simp only [hCan, ne_eq, hClaim, not_false_eq_true, forall_const]
    by_cases hDropped : a.claim = .lost ∨ a.found = false
    · rw [if_pos hDropped]
      refine iff_of_false hStuck ?_
      rintro ⟨hReturned, hFound, -⟩
      rcases hDropped with hLost | hMissing
      · rw [hReturned] at hLost
        cases hLost
      · rw [hFound] at hMissing
        cases hMissing
    · obtain ⟨hLost, hFound⟩ := not_or.mp hDropped
      have hReturned : a.claim = .returned := by
        cases hReply : a.claim with
        | returned => rfl
        | lost => exact absurd hReply hLost
        | failed => exact absurd hReply hClaim
      have hSeen : a.found = true := by simpa using hFound
      rw [if_neg hDropped, hClaimed, hSame]
      simp only [hReturned, hSeen, true_and]
      rfl

end Attempts

section Runs
variable {attempts : List Attempt} {s : Store}

/-- However many attempts: after every one of them the ids are remembered, no call has returned twice
and the wallet is not stuck, exactly when every attempt heeds the row it starts from. -/
theorem provisions_remember_iff (h : Remembers s) :
    (∀ n, Remembers (provisions (attempts.take n) s)) ↔ AllHeed attempts s := by
  induction attempts generalizing s with
  | nil =>
    refine iff_of_true ?_ trivial
    intro n
    rw [List.take_nil]
    exact h
  | cons a attempts ih =>
    constructor
    · intro hAll
      have hFirst : Remembers (provision a s) := by simpa [provisions] using hAll 1
      refine ⟨(remembers_provision_iff h).mp hFirst, (ih hFirst).mp ?_⟩
      intro n
      simpa [provisions] using hAll (n + 1)
    · rintro ⟨hHeeds, hRest⟩ n
      have hFirst := (remembers_provision_iff h).mpr hHeeds
      cases n with
      | zero => exact h
      | succ n => exact (ih hFirst).mpr hRest n

end Runs

/-- A wallet that `mine` has just created. -/
def fresh : Store := ⟨⟨.created, none, none, none, none⟩, []⟩

theorem fresh_remembers : Remembers fresh := ⟨.inr rfl, List.forall_mem_nil _, List.nodup_nil⟩

/-- An attempt in which the calls return `funded`, `usdc` and `farm`, and nothing else throws. -/
def attempting (funded usdc farm : Option TxId) : Attempt where
  claim := .returned
  found := true
  call
    | .fund => funded
    | .usdcOptIn => usdc
    | .farmOptIn => farm
  signer := true
  update := .returned
  updateFailed := .returned
  message := "algod is not reachable"

/-- The funder cannot be reached at first; then all three calls return. -/
theorem provisioned_in_two : Remembers (provisions
    [attempting none none none, attempting (some 1) (some 2) (some 3)] fresh) := by
  have hFirst : Heeds (attempting none none none) fresh.wallet := by
    intro _ _
    exact ⟨rfl, rfl, .inr ⟨⟨fun _ => rfl, fun hKnown => absurd rfl hKnown⟩, by decide⟩⟩
  have hSecond : Heeds (attempting (some 1) (some 2) (some 3))
      (provision (attempting none none none) fresh).wallet := by
    intro _ _
    refine ⟨rfl, rfl, .inl ⟨⟨rfl, ?_⟩, by decide⟩⟩
    intro leg _
    cases leg <;> rfl
  have hBoth : AllHeed [attempting none none none, attempting (some 1) (some 2) (some 3)] fresh :=
    ⟨hFirst, hSecond, trivial⟩
  exact (provisions_remember_iff fresh_remembers).mpr hBoth 2

/-- The first opt-in throws after the wallet has been funded, so the next attempt funds it again; and
when the `catch` cannot write either, or the row is not read after the claim, the wallet stays in
`provisioning`. -/
theorem funded_twice :
    ((provisions [attempting (some 1) none none, attempting (some 2) (some 3) (some 4)]
      fresh).succeeded.filter fun d => decide (d.1 = .fund)) = [(.fund, 1), (.fund, 2)] ∧
    (provision { attempting (some 1) none none with updateFailed := .failed } fresh).wallet.status =
      .provisioning ∧
    (provision { attempting (some 1) (some 2) (some 3) with found := false } fresh).wallet.status =
      .provisioning := by
  decide

end FarmBackend.ChainProvisioning
