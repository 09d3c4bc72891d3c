import FarmBackend.DepositCursors

/-!
# No deposit is missed

Between two statements a poll knows which external transfers of the rounds it is about to pass are
recorded, and where it will find the others. So its cursor passes no deposit as long as the answers it
gets are complete and a wallet that has been paid is ready.
-/

namespace FarmBackend.ChainDeposits
open Interleaving

set_option autoImplicit false

/-! What a step can do. -/

inductive Took (cfg : Settings) (o : Outcome) (s : Store) : Call → Store → Call → Prop where
  | started : Took cfg o s .pollDeposits s (.findCursor [.usdc, .farm])
  | polled : Took cfg o s (.findCursor []) s .pollAlgo
  | absent {asset : Asset} {assets : List Asset} :
      Took cfg o s (.findCursor (asset :: assets)) s (.currentRound asset assets)
  | found {asset : Asset} {assets : List Asset} {cur : ℕ} (hCursor : s.cursor asset = some cur) :
      Took cfg o s (.findCursor (asset :: assets)) s (.transfersSince asset assets cur)
  | asked {asset : Asset} {assets : List Asset} (hRound : o.round ≤ s.round) :
      Took cfg o s (.currentRound asset assets) s (.createCursor asset assets o.round)
  | created {asset : Asset} {assets : List Asset} {round : ℕ} (hNone : s.cursor asset = none) :
      Took cfg o s (.createCursor asset assets round) (s.createCursor asset round)
        (.transfersSince asset assets round)
  | answered {asset : Asset} {assets : List Asset} {cur : ℕ}
      (hAnswer : s.Answers asset cur 500 o.txs) :
      Took cfg o s (.transfersSince asset assets cur) s (.findOwners asset assets cur o.txs)
  | matched {asset : Asset} {assets : List Asset} {cur : ℕ} {txs : List IncomingTransfer} :
      Took cfg o s (.findOwners asset assets cur txs) s
        (.createMany asset assets cur (maxRound cur txs) (depositRows cfg asset (s.owners txs) txs))
  | recorded {asset : Asset} {assets : List Asset} {cur hi : ℕ} {rows : List ChainDeposit} :
      Took cfg o s (.createMany asset assets cur hi rows) (s.createMany rows)
        (.updateCursor asset assets cur hi)
  | advanced {asset : Asset} {assets : List Asset} {cur hi : ℕ} :
      Took cfg o s (.updateCursor asset assets cur hi) (s.setCursor asset hi) (.findCursor assets)
  | stayed {asset : Asset} {assets : List Asset} {cur hi : ℕ} :
      Took cfg o s (.updateCursor asset assets cur hi) s (.findCursor assets)
  | read : Took cfg o s .pollAlgo s (.head (s.cursor .algo))
  | fresh (hRound : o.round ≤ s.round) : Took cfg o s (.head none) s (.createHead o.round)
  | reached {cur : ℕ} (hRound : o.round ≤ s.round) :
      Took cfg o s (.head (some cur)) s (.findWallets cur o.round)
  | createdHead {head : ℕ} (hNone : s.cursor .algo = none) :
      Took cfg o s (.createHead head) (s.createCursor .algo head) .done
  | nobody {cur head : ℕ} (hEmpty : s.wallets.filter (·.status == .ready) = []) :
      Took cfg o s (.findWallets cur head) (s.setCursor .algo head) .done
  | listed {cur head : ℕ} :
      Took cfg o s (.findWallets cur head) s
        (.paymentsTo cur head (s.wallets.filter (·.status == .ready))
          (s.wallets.filter (·.status == .ready)))
  | allPaid {cur head : ℕ} {wallets : List UserChainWallet} :
      Took cfg o s (.paymentsTo cur head wallets []) s (.updateHead cur head)
  | paid {cur head : ℕ} {wallets : List UserChainWallet} {w : UserChainWallet}
      {rest : List UserChainWallet} (hAnswer : s.Answers .algo cur 200 o.txs) :
      Took cfg o s (.paymentsTo cur head wallets (w :: rest)) s
        (.createPayments cur head wallets rest (paymentRows cfg wallets w o.txs))
  | recordedPayments {cur head : ℕ} {wallets rest : List UserChainWallet}
      {rows : List ChainDeposit} :
      Took cfg o s (.createPayments cur head wallets rest rows) (s.createMany rows)
        (.paymentsTo cur head wallets rest)
  | advancedHead {cur head : ℕ} :
      Took cfg o s (.updateHead cur head) (s.setCursor .algo head) .done
  | stayedHead {cur head : ℕ} : Took cfg o s (.updateHead cur head) s .done
  | known {userId : ℕ} : Took cfg o s (.mine userId) s (.provision userId)
  | opened {userId : ℕ} (hUnused : s.Unused o.address) :
      Took cfg o s (.mine userId) (s.createWallet userId o.address) (.provision userId)
  | claimed {userId : ℕ} :
      Took cfg o s (.provision userId)
        (s.updateWallet userId ({ · with status := .provisioning })) (.fund userId)
  | unclaimed {userId : ℕ} : Took cfg o s (.provision userId) s .done
  | failed {userId : ℕ} :
      Took cfg o s (.fund userId) (s.updateWallet userId ({ · with status := .failed })) .done
  | readied {userId txId : ℕ} (hFunds : s.Funds cfg.funder txId) :
      Took cfg o s (.fund userId) (s.updateWallet userId (.setReady txId)) .done
  | mined {transfers : List IncomingTransfer} (hExtends : s.Extends transfers) :
      Took cfg o s (.block transfers) (s.addBlock transfers) .done

variable {cfg : Settings} {o : Outcome} {s s' start : Store} {call call' : Call} {asset : Asset}
  {t : IncomingTransfer} {cur head hi : ℕ} {rows : List ChainDeposit}
  {wallets : List UserChainWallet} {assets : List Asset} {txs : List IncomingTransfer}
  {c : Config Store Call}

/-! The rows of an answer. -/

theorem of_mem_owners {w : UserChainWallet} (h : w ∈ s.owners txs) : w ∈ s.wallets :=
  (List.mem_filter.mp h).1

theorem tells_depositRows (hTxs : ∀ t ∈ txs, t ∈ s.chain ∧ t.asset = asset) :
    s.Tells (depositRows cfg asset (s.owners txs) txs) := by
  intro row hRow
  obtain ⟨t, ht, hFind⟩ := List.mem_filterMap.mp hRow
  obtain ⟨w, hw, rfl⟩ := Option.map_eq_some_iff.mp hFind
  have hAddress : w.address = t.receiver := by simpa using List.find?_some hw
  have hOwner : w ∈ s.wallets := of_mem_owners (List.mem_of_find?_eq_some hw)
  exact ⟨t, (hTxs t (List.mem_filter.mp ht).1).1, w, hOwner, hAddress, rfl⟩

/-- Every external transfer of an answer has its row. -/
theorem mem_depositRows (hMem : t ∈ txs) (hExternal : s.IsExternal cfg t) :
    ∃ row ∈ depositRows cfg asset (s.owners txs) txs, row.key = (t.txId, t.asset) := by
  obtain ⟨w, hw, hAddress⟩ := isCustodial_iff.mp hExternal.receiver
  have hOwner : w ∈ s.owners txs := by
    refine List.mem_filter.mpr ⟨hw, List.any_eq_true.mpr ⟨t, hMem, ?_⟩⟩
    simp [hAddress]
  have hStranger : ∀ w ∈ s.wallets, w.address ≠ t.sender := by
    intro w hw hSender
    have hCustodial := isCustodial_iff.mpr ⟨w, hw, hSender⟩
    rw [hExternal.sender] at hCustodial
    cases hCustodial
  have hSelf : t.sender ≠ t.receiver := by
    intro hEq
    exact hStranger w hw (hAddress.trans hEq.symm)
  have hSender : (s.owners txs).find? (·.address == t.sender) = none := by
    apply List.find?_eq_none.mpr
    intro w hw
    simpa using hStranger w (of_mem_owners hw)
  obtain ⟨w', hFind⟩ : ∃ w', (s.owners txs).find? (·.address == t.receiver) = some w' := by
    apply Option.isSome_iff_exists.mp
    rw [List.find?_isSome]
    exact ⟨w, hOwner, by simpa using hAddress⟩
  refine ⟨.of w'.userId t, List.mem_filterMap.mpr ⟨t, List.mem_filter.mpr ⟨hMem, ?_⟩, ?_⟩, rfl⟩
  · simp [hExternal.amount, hSelf, hSender, hExternal.reserve]
  · simp [hFind]

theorem tells_paymentRows {w : UserChainWallet} (hRead : s.HasRead cfg wallets) (hw : w ∈ wallets)
    (hTxs : ∀ t ∈ txs, t ∈ s.chain) : s.Tells (paymentRows cfg wallets w txs) := by
  intro row hRow
  obtain ⟨t, ht, rfl⟩ := List.mem_map.mp hRow
  obtain ⟨hMem, hKeep⟩ := List.mem_filter.mp ht
  simp only [Bool.and_eq_true, beq_iff_eq] at hKeep
  obtain ⟨⟨w', hw', hUser, hAddress⟩, -⟩ := hRead w hw
  have hReceiver : t.receiver = w.address := hKeep.1.1.1.1.1.1
  exact ⟨t, hTxs t hMem, w', hw', hAddress.trans hReceiver.symm, by rw [hUser]⟩

/-- A funding payment is the funder's, so no external payment is taken for one. -/
theorem mem_paymentRows {w : UserChainWallet} (hSound : s.Sound cfg) (hRead : s.HasRead cfg wallets)
    (hChain : t ∈ s.chain) (hMem : t ∈ txs) (hReceiver : t.receiver = w.address)
    (hExternal : s.IsExternal cfg t) :
    ∃ row ∈ paymentRows cfg wallets w txs, row.key = (t.txId, t.asset) := by
  have hStranger : s.isCustodial t.sender ≠ true := by
    rw [hExternal.sender]
    exact Bool.false_ne_true
  have hSelf : t.sender ≠ t.receiver := by
    intro hEq
    rw [hEq] at hStranger
    exact hStranger hExternal.receiver
  have hSender : wallets.any (·.address == t.sender) = false := by
    apply List.any_eq_false.mpr
    intro w hw hEq
    obtain ⟨⟨w', hw', -, hAddress⟩, -⟩ := hRead w hw
    exact hStranger (isCustodial_iff.mpr ⟨w', hw', hAddress.trans (beq_iff_eq.mp hEq)⟩)
  have hFunding : wallets.any (·.fundedTxId == some t.txId) = false := by
    apply List.any_eq_false.mpr
    intro w hw hEq
    obtain ⟨t', ht', hId, hFunder⟩ := (hRead w hw).2 t.txId (beq_iff_eq.mp hEq)
    have hSame : t' = t := List.inj_on_of_nodup_map hSound.ids ht' hChain hId
    rw [hSame] at hFunder
    exact hExternal.funder hFunder
  refine ⟨.of w.userId t, List.mem_map_of_mem (List.mem_filter.mpr ⟨hMem, ?_⟩), rfl⟩
  simp [hReceiver, hExternal.amount, hReceiver ▸ hSelf, hSender, hFunding, hExternal.reserve,
    hExternal.funder]

/-! The steps. -/

theorem took_of_step (h : step cfg o s call = some (s', call')) : Took cfg o s call s' call' := by
  cases call with
  | pollDeposits =>
    simp only [step, Option.ite_none_right_eq_some, Option.some.injEq, Prod.mk.injEq] at h
    obtain ⟨-, rfl, rfl⟩ := h
    exact .started
  | findCursor assets =>
    cases assets with
    | nil =>
      cases h
      exact .polled
    | cons asset assets =>
      simp only [step] at h
      split at h
      · cases h
        exact .absent
      · rename_i hCursor
        cases h
        exact .found hCursor
  | currentRound asset assets =>
    simp only [step, Option.ite_none_right_eq_some, Option.some.injEq, Prod.mk.injEq] at h
    obtain ⟨hRound, rfl, rfl⟩ := h
    exact .asked hRound
  | createCursor asset assets round =>
    simp only [step] at h
    split at h
    · rename_i hNone
      cases h
      exact .created hNone
    · cases h
  | transfersSince asset assets cur =>
    simp only [step, Option.ite_none_right_eq_some, Option.some.injEq, Prod.mk.injEq] at h
    obtain ⟨hAnswer, rfl, rfl⟩ := h
    exact .answered hAnswer
  | findOwners asset assets cur txs =>
    cases h
    exact .matched
  | createMany asset assets cur hi rows =>
    cases h
    exact .recorded
  | updateCursor asset assets cur hi =>
    simp only [step, Option.some.injEq, Prod.mk.injEq] at h
    obtain ⟨rfl, rfl⟩ := h
    split
    · exact .advanced
    · exact .stayed
  | pollAlgo =>
    cases h
    exact .read
  | head cur =>
    simp only [step, Option.ite_none_right_eq_some] at h
    obtain ⟨hRound, h⟩ := h
    cases cur with
    | none =>
      cases h
      exact .fresh hRound
    | some cur =>
      cases h
      exact .reached hRound
  | createHead head =>
    simp only [step] at h
    split at h
    · rename_i hNone
      cases h
      exact .createdHead hNone
    · cases h
  | findWallets cur head =>
    simp only [step] at h
    split at h
    · rename_i hEmpty
      cases h
      exact .nobody (List.isEmpty_iff.mp hEmpty)
    · cases h
      exact .listed
  | paymentsTo cur head wallets rest =>
    cases rest with
    | nil =>
      cases h
      exact .allPaid
    | cons w rest =>
      simp only [step, Option.ite_none_right_eq_some, Option.some.injEq, Prod.mk.injEq] at h
      obtain ⟨hAnswer, rfl, rfl⟩ := h
      exact .paid hAnswer
  | createPayments cur head wallets rest rows =>
    cases h
    exact .recordedPayments
  | updateHead cur head =>
    simp only [step, Option.some.injEq, Prod.mk.injEq] at h
    obtain ⟨rfl, rfl⟩ := h
    split
    · exact .advancedHead
    · exact .stayedHead
  | mine userId =>
    simp only [step] at h
    split at h
    · cases h
      exact .known
    · simp only [Option.ite_none_right_eq_some, Option.some.injEq, Prod.mk.injEq] at h
      obtain ⟨hUnused, rfl, rfl⟩ := h
      exact .opened hUnused
  | provision userId =>
    simp only [step] at h
    split at h
    · cases h
      exact .claimed
    · cases h
      exact .unclaimed
  | fund userId =>
    simp only [step] at h
    split at h
    · cases h
      exact .failed
    · simp only [Option.ite_none_right_eq_some, Option.some.injEq, Prod.mk.injEq] at h
      obtain ⟨hFunds, rfl, rfl⟩ := h
      exact .readied hFunds
  | block transfers =>
    simp only [step, Option.ite_none_right_eq_some, Option.some.injEq, Prod.mk.injEq] at h
    obtain ⟨hExtends, rfl, rfl⟩ := h
    exact .mined hExtends
  | done => cases h

theorem setReady_keeps (txId : ℕ) (w : UserChainWallet) :
    (w.setReady txId).userId = w.userId ∧ (w.setReady txId).address = w.address := ⟨rfl, rfl⟩

theorem Took.grows (h : Took cfg o s call s' call') : Store.Grows cfg s s' := by
  cases h with
  | created hNone => exact Store.grows_createCursor hNone
  | createdHead hNone => exact Store.grows_createCursor hNone
  | recorded | recordedPayments => exact Store.grows_createMany
  | advanced | nobody _ | advancedHead => exact Store.grows_setCursor
  | opened hUnused => exact Store.grows_createWallet hUnused
  | claimed | failed => exact Store.grows_updateWallet fun _ => ⟨rfl, rfl⟩
  | readied _ => exact Store.grows_updateWallet (setReady_keeps _)
  | mined _ => exact Store.grows_addBlock
  | _ => exact .refl s

/-! What a poll knows between two statements. -/

/-- The batch has the row of the transaction. -/
def InBatch (rows : List ChainDeposit) (t : IncomingTransfer) : Prop :=
  ∃ row ∈ rows, row.key = (t.txId, t.asset)

/-- One of the wallets was paid. -/
def PaidTo (wallets : List UserChainWallet) (t : IncomingTransfer) : Prop :=
  ∃ w ∈ wallets, w.address = t.receiver

/-- A poll of the payments to the wallets, of which some are still to be asked about. -/
structure Visiting (cfg : Settings) (s : Store) (cur head : ℕ)
    (wallets rest : List UserChainWallet) : Prop where
  covers : s.Covers cfg .algo cur
  head_le : head ≤ s.round
  read : s.HasRead cfg wallets
  rest_subset : ∀ w ∈ rest, w ∈ wallets

theorem Visiting.grows {rest : List UserChainWallet} (h : Visiting cfg s cur head wallets rest)
    (hGrows : Store.Grows cfg s s') : Visiting cfg s' cur head wallets rest :=
  ⟨h.covers.grows hGrows, h.head_le.trans hGrows.round, h.read.grows hGrows, h.rest_subset⟩

def Knows (cfg : Settings) (s : Store) : Call → Prop
  | .createCursor _ _ round => round ≤ s.round
  | .transfersSince asset _ cur => s.Covers cfg asset cur
  | .findOwners asset _ cur txs =>
    s.Covers cfg asset cur ∧ (∀ t ∈ txs, t ∈ s.chain ∧ t.asset = asset) ∧
      maxRound cur txs ≤ s.round ∧ s.Passing cfg asset cur (maxRound cur txs) (· ∈ txs)
  | .createMany asset _ cur hi rows =>
    s.Covers cfg asset cur ∧ s.Tells rows ∧ hi ≤ s.round ∧
      s.Passing cfg asset cur hi (InBatch rows)
  | .updateCursor asset _ _ hi => s.Covers cfg asset hi
  | .head cur => ∀ round ∈ cur, s.Covers cfg .algo round
  | .createHead head => head ≤ s.round
  | .findWallets cur head => s.Covers cfg .algo cur ∧ head ≤ s.round
  | .paymentsTo cur head wallets rest =>
    Visiting cfg s cur head wallets rest ∧ s.Passing cfg .algo cur head (PaidTo rest)
  | .createPayments cur head wallets rest rows =>
    Visiting cfg s cur head wallets rest ∧ s.Tells rows ∧
      s.Passing cfg .algo cur head fun t => InBatch rows t ∨ PaidTo rest t
  | .updateHead _ head => s.Covers cfg .algo head
  | _ => True

theorem Knows.grows (h : Knows cfg s call) (hGrows : Store.Grows cfg s s') :
    Knows cfg s' call := by
  cases call with
  | createCursor asset assets round => exact le_trans h hGrows.round
  | transfersSince asset assets cur => exact Store.Covers.grows h hGrows
  | findOwners asset assets cur txs =>
    obtain ⟨hCovers, hTxs, hMax, hPassing⟩ := h
    refine ⟨hCovers.grows hGrows, ?_, hMax.trans hGrows.round, hPassing.grows hMax hGrows⟩
    intro t ht
    exact ⟨hGrows.chain t (hTxs t ht).1, (hTxs t ht).2⟩
  | createMany asset assets cur hi rows =>
    obtain ⟨hCovers, hTells, hHi, hPassing⟩ := h
    exact ⟨hCovers.grows hGrows, hTells.grows hGrows, hHi.trans hGrows.round,
      hPassing.grows hHi hGrows⟩
  | updateCursor asset assets cur hi => exact Store.Covers.grows h hGrows
  | head cur =>
    intro round hCur
    exact Store.Covers.grows (h round hCur) hGrows
  | createHead head => exact le_trans h hGrows.round
  | findWallets cur head => exact ⟨h.1.grows hGrows, h.2.trans hGrows.round⟩
  | paymentsTo cur head wallets rest =>
    obtain ⟨hVisiting, hPassing⟩ := h
    exact ⟨hVisiting.grows hGrows, hPassing.grows hVisiting.head_le hGrows⟩
  | createPayments cur head wallets rest rows =>
    obtain ⟨hVisiting, hTells, hPassing⟩ := h
    exact ⟨hVisiting.grows hGrows, hTells.grows hGrows, hPassing.grows hVisiting.head_le hGrows⟩
  | updateHead cur head => exact Store.Covers.grows h hGrows
  | _ => exact trivial

/-- What was only in the batch is recorded once the batch is in. -/
theorem passing_createMany {lo : ℕ} {P Q : IncomingTransfer → Prop} (hSound : s.Sound cfg)
    (hTells : s.Tells rows) (hHi : hi ≤ s.round) (h : s.Passing cfg asset lo hi P)
    (hBatch : ∀ t, P t → InBatch rows t ∨ Q t) :
    (s.createMany rows).Passing cfg asset lo hi Q := by
  have hGrows : Store.Grows cfg s (s.createMany rows) := Store.grows_createMany
  refine (h.grows hHi hGrows).imp ?_
  intro t hChain _ _ hP
  rcases hBatch t hP with hIn | hQ
  · exact .inl (Store.isRecorded_createMany hSound hTells hChain hIn)
  · exact .inr hQ

/-- One step keeps the store sound and the cursors where they may be, and tells its call what it
knows next. -/
theorem knows_step (hSound : s.Sound cfg) (hCovered : s.Covered cfg) (hKnows : Knows cfg s call)
    (hHeeds : Heeds cfg o s call) (hTook : Took cfg o s call s' call') :
    s'.Sound cfg ∧ s'.Covered cfg ∧ Knows cfg s' call' := by
  have hGrows := hTook.grows
  cases hTook with
  | started | polled | absent | stayed | stayedHead | known | unclaimed =>
    exact ⟨hSound, hCovered, trivial⟩
  | found hCursor => exact ⟨hSound, hCovered, hCovered _ _ hCursor⟩
  | asked hRound => exact ⟨hSound, hCovered, hRound⟩
  | created hNone =>
    exact ⟨hSound.createCursor hKnows, hCovered.createCursor hNone hKnows,
      Store.covers_createCursor hKnows⟩
  | answered hAnswer =>
    refine ⟨hSound, hCovered, hKnows, ?_, ?_, hHeeds⟩
    · intro t ht
      exact ⟨(hAnswer.2 t ht).1, (hAnswer.2 t ht).2.1⟩
    · exact maxRound_le hKnows.round fun t ht => hSound.rounds t (hAnswer.2 t ht).1
  | matched =>
    obtain ⟨hCovers, hTxs, hMax, hPassing⟩ := hKnows
    refine ⟨hSound, hCovered, hCovers, tells_depositRows hTxs, hMax, hPassing.imp ?_⟩
    intro t _ hExternal _ hMem
    exact .inr (mem_depositRows hMem hExternal)
  | recorded =>
    obtain ⟨hCovers, hTells, hHi, hPassing⟩ := hKnows
    refine ⟨hSound.createMany hTells, hCovered.grows hGrows rfl, ?_⟩
    exact (hCovers.grows hGrows).extend hHi
      (passing_createMany hSound hTells hHi hPassing fun t hIn => .inl hIn)
  | advanced => exact ⟨hSound.setCursor hKnows.round, hCovered.setCursor hKnows, trivial⟩
  | read => exact ⟨hSound, hCovered, fun round hCur => hCovered _ _ hCur⟩
  | fresh hRound => exact ⟨hSound, hCovered, hRound⟩
  | reached hRound => exact ⟨hSound, hCovered, hKnows _ rfl, hRound⟩
  | createdHead hNone =>
    exact ⟨hSound.createCursor hKnows, hCovered.createCursor hNone hKnows, trivial⟩
  | nobody hEmpty =>
    obtain ⟨hCovers, hHead⟩ := hKnows
    have hPassing := Store.Passing.imp hHeeds (Q := fun _ => False) ?_
    · exact ⟨hSound.setCursor hHead, hCovered.setCursor (hCovers.extend hHead hPassing), trivial⟩
    · rintro t - - - ⟨w, hw, hReady, -⟩
      have hMem : w ∈ s.wallets.filter (·.status == .ready) := by simp [hw, hReady]
      rw [hEmpty] at hMem
      cases hMem
  | listed =>
    obtain ⟨hCovers, hHead⟩ := hKnows
    have hRead : s.HasRead cfg (s.wallets.filter (·.status == .ready)) := by
      intro w hw
      have hMem := List.mem_of_mem_filter hw
      exact ⟨⟨w, hMem, rfl, rfl⟩, hSound.funded w hMem⟩
    refine ⟨hSound, hCovered, ⟨hCovers, hHead, hRead, fun _ h => h⟩, ?_⟩
    refine Store.Passing.imp hHeeds ?_
    rintro t - - - ⟨w, hw, hReady, hAddress⟩
    exact .inr ⟨w, by simp [hw, hReady], hAddress⟩
  | allPaid =>
    obtain ⟨hVisiting, hPassing⟩ := hKnows
    refine ⟨hSound, hCovered, hVisiting.covers.extend hVisiting.head_le (hPassing.imp ?_)⟩
    rintro t - - - ⟨w, hw, -⟩
    cases hw
  | @paid cur head wallets w rest hAnswer =>
    obtain ⟨hVisiting, hPassing⟩ := hKnows
    have hw : w ∈ wallets := hVisiting.rest_subset w List.mem_cons_self
    refine ⟨hSound, hCovered, ⟨hVisiting.covers, hVisiting.head_le, hVisiting.read, ?_⟩, ?_, ?_⟩
    · exact fun w' hw' => hVisiting.rest_subset w' (List.mem_cons_of_mem w hw')
    · exact tells_paymentRows hVisiting.read hw fun t ht => (hAnswer.2 t ht).1
    · intro t hChain hExternal hAsset hLo hHi
      rcases hPassing t hChain hExternal hAsset hLo hHi with hRecorded | ⟨w', hw', hAddress⟩
      · exact .inl hRecorded
      · rcases List.mem_cons.mp hw' with rfl | hLater
        · rcases hHeeds t hChain hExternal hAsset hLo hHi with hRecorded | hAnswered
          · exact .inl hRecorded
          · exact .inr (.inl (mem_paymentRows hSound hVisiting.read hChain
              (hAnswered hAddress.symm) hAddress.symm hExternal))
        · exact .inr (.inr ⟨w', hLater, hAddress⟩)
  | recordedPayments =>
    obtain ⟨hVisiting, hTells, hPassing⟩ := hKnows
    refine ⟨hSound.createMany hTells, hCovered.grows hGrows rfl, hVisiting.grows hGrows, ?_⟩
    exact passing_createMany hSound hTells hVisiting.head_le hPassing fun t h => h
  | advancedHead => exact ⟨hSound.setCursor hKnows.round, hCovered.setCursor hKnows, trivial⟩
  | opened _ => exact ⟨hSound.createWallet, hCovered.grows hGrows rfl, trivial⟩
  | claimed | failed =>
    refine ⟨hSound.updateWallet (fun _ => ⟨rfl, rfl⟩) fun _ _ h => .inl h, ?_, trivial⟩
    exact hCovered.grows hGrows rfl
  | @readied userId txId hFunds =>
    refine ⟨hSound.updateWallet (setReady_keeps txId) ?_, hCovered.grows hGrows rfl, trivial⟩
    intro w txId' hTx
    unfold UserChainWallet.setReady at hTx
    cases hOld : w.fundedTxId with
    | none =>
      simp only [hOld, Option.none_or, Option.mem_some_iff] at hTx
      exact .inr (hTx ▸ hFunds)
    | some old =>
      simp only [hOld, Option.some_or] at hTx
      exact .inl hTx
  | mined hExtends => exact ⟨hSound.addBlock hExtends, hCovered.grows hGrows rfl, trivial⟩

theorem covered_reaches (hSound : start.Sound cfg) (hFirst : start.firstRound = start.cursor)
    (h : (program cfg).Reaches (Heeds cfg) (Program.idle start) c) :
    c.store.Sound cfg ∧ c.store.Covered cfg := by
  have hCovered : start.Covered cfg := by
    intro asset cur hCur
    refine ⟨Option.isSome_of_mem hCur, hSound.cursors asset cur hCur, ?_⟩
    intro first hMem t _ _ _ hLo hHi
    rw [hFirst] at hMem
    have hEq : first = cur := Option.mem_unique hMem hCur
    omega
  have hAll := h.assertions (fun s => s.Sound cfg ∧ s.Covered cfg) (Knows cfg)
    ⟨⟨hSound, hCovered⟩, fun call hCall => by cases hCall⟩ ?_ ?_ ?_
  · exact hAll.1
  · intro request s _
    cases request <;> exact trivial
  · intro o s s' call call' hStore hKnows hHeeds hStep
    have hKept := knows_step hStore.1 hStore.2 hKnows hHeeds (took_of_step hStep)
    exact ⟨⟨hKept.1, hKept.2.1⟩, hKept.2.2⟩
  · intro o s s' call call' other _ _ hOther _ hStep
    exact hOther.grows (took_of_step hStep).grows

/-- In every run whose answers are complete and whose paid wallets are ready, no cursor is past a
deposit that is not recorded. -/
theorem nothing_missed (hSound : start.Sound cfg) (hFirst : start.firstRound = start.cursor)
    (h : (program cfg).Reaches (Heeds cfg) (Program.idle start) c) : c.store.NothingMissed cfg := by
  intro asset cur hCur first hMem
  exact ((covered_reaches hSound hFirst h).2 asset cur hCur).passing first hMem

/-! The wallet of address 10 is ready and that of address 20 is not. -/

def accounts : Settings := ⟨1, 2⟩

def funding : IncomingTransfer := ⟨1, .algo, 2, 10, 310000, 5⟩

/-- The stranger of address 99 pays 7 in round 6. -/
def paid (asset : Asset) (txId : ℕ) (receiver : Address) : IncomingTransfer :=
  ⟨txId, asset, 99, receiver, 7, 6⟩

def goneLive : Store where
  chain := [funding]
  round := 5
  wallets := [⟨1, 10, .ready, some 1⟩, ⟨2, 20, .created, none⟩]
  cursor _ := some 5
  firstRound _ := some 5
  deposits := []

def answers (round : ℕ) (txs : List IncomingTransfer) : Outcome := ⟨true, round, txs, 0, none⟩

/-- The transfers are confirmed in round 6, and round 7 is empty. -/
def confirming (transfers : List IncomingTransfer) : List (Move Request Outcome) :=
  [.enter (.block transfers), .run 0 (answers 5 []), .enter (.block []), .run 1 (answers 6 [])]

/-- A poll of the ALGO payments at the head 7, with the indexer's answer for address 10. -/
def pollingAlgo (txs : List IncomingTransfer) : List (Move Request Outcome) :=
  [.enter .pollAlgo, .run 2 (answers 7 []), .run 2 (answers 7 []), .run 2 (answers 7 []),
    .run 2 (answers 7 txs), .run 2 (answers 7 []), .run 2 (answers 7 []), .run 2 (answers 7 [])]

def misses (s : Store) : Bool :=
  decide (s.cursor .algo = some 7 ∧ s.firstRound .algo = some 5 ∧
    ¬ s.Passing accounts .algo 5 7 fun _ => False)

theorem missed_of_misses (h : misses s = true) : ¬ s.NothingMissed accounts := by
  intro hMissed
  obtain ⟨hCursor, hFirst, hPassing⟩ := of_decide_eq_true h
  exact hPassing (hMissed .algo 7 hCursor 5 hFirst)

theorem sound_goneLive : goneLive.Sound accounts where
  ids := by decide
  rounds := by decide
  cursors asset cur hCur := (Option.mem_some_iff.mp hCur).symm.le
  funded := by decide
  deposits := nofun

/-- A payment to a wallet that is not ready is passed, and so is one that the indexer does not have
yet. -/
theorem payment_missed :
    (∃ c, (program accounts).Reaches anyStep (Program.idle goneLive) c ∧
      ¬ c.store.NothingMissed accounts) ∧
    goneLive.Sound accounts ∧ goneLive.firstRound = goneLive.cursor ∧
    ∃ c, (program accounts).Reaches anyStep (Program.idle goneLive) c ∧
      c.store.wallets.any (fun w => w.address == 10 && w.status == .ready) = true ∧
      paid .algo 2 10 ∈ c.store.chain ∧ ¬ c.store.NothingMissed accounts := by
  refine ⟨?_, sound_goneLive, rfl, ?_⟩
  · have hRun : ((program accounts).schedule
        (confirming [paid .algo 2 20] ++ pollingAlgo [funding]) (Program.idle goneLive)).any
          (fun c => misses c.store) = true := by
      decide +kernel
    obtain ⟨c, hReach, hMisses⟩ := Program.reaches_of_any hRun
    exact ⟨c, hReach, missed_of_misses hMisses⟩
  · have hRun : ((program accounts).schedule
        (confirming [paid .algo 2 10] ++ pollingAlgo [funding]) (Program.idle goneLive)).any
          (fun c => c.store.wallets.any (fun w => w.address == 10 && w.status == .ready) &&
            decide (paid .algo 2 10 ∈ c.store.chain) && misses c.store) = true := by
      decide +kernel
    obtain ⟨c, hReach, hMisses⟩ := Program.reaches_of_any hRun
    simp only [Bool.and_eq_true, decide_eq_true_eq] at hMisses
    obtain ⟨⟨hReady, hPaid⟩, hMisses⟩ := hMisses
    exact ⟨c, hReach, hReady, hPaid, missed_of_misses hMisses⟩

/-- With complete answers, a poll of everything records a USDC deposit to the wallet that is not ready
and an ALGO deposit to the one that is. -/
theorem both_recorded :
    ∃ c, (program accounts).Reaches (Heeds accounts) (Program.idle goneLive) c ∧
      c.store.deposits.length = 2 ∧ c.store.cursor .algo = some 7 ∧
      c.store.NothingMissed accounts := by
  have hRun : (((program accounts).guarded (Heeds accounts)).schedule
      (confirming [paid .usdc 2 20, paid .algo 3 10] ++
        [.enter .pollDeposits, .run 2 (answers 7 []), .run 2 (answers 7 []),
          .run 2 (answers 7 [paid .usdc 2 20]), .run 2 (answers 7 []), .run 2 (answers 7 []),
          .run 2 (answers 7 []), .run 2 (answers 7 []), .run 2 (answers 7 []), .run 2 (answers 7 []),
          .run 2 (answers 7 []), .run 2 (answers 7 []), .run 2 (answers 7 []), .run 2 (answers 7 []),
          .run 2 (answers 7 []), .run 2 (answers 7 []),
          .run 2 (answers 7 [paid .algo 3 10, funding]), .run 2 (answers 7 []),
          .run 2 (answers 7 []), .run 2 (answers 7 [])]) (Program.idle goneLive)).any
        (fun c => c.store.deposits.length == 2 && c.store.cursor .algo == some 7) = true := by
    decide +kernel
  obtain ⟨c, hReach, hEnd⟩ := Program.reaches_of_guarded_any hRun
  simp only [Bool.and_eq_true, beq_iff_eq] at hEnd
  exact ⟨c, hReach, hEnd.1, hEnd.2, nothing_missed sound_goneLive rfl hReach⟩

end FarmBackend.ChainDeposits
