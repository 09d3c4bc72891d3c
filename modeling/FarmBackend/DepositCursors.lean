import FarmBackend.ChainDeposits
import Mathlib.Data.List.Nodup

/-!
# The deposits that the cursors pass

A cursor may pass a round if every external transfer of that round is recorded. The chain only grows,
and a new block is after every round that a poll has asked for, so what was read of a round stays true.
It then depends on each answer alone whether a deposit is missed.
-/

namespace FarmBackend.ChainDeposits
open Interleaving

set_option autoImplicit false

variable {cfg : Settings} {o : Outcome} {s s' start : Store} {call call' : Call} {asset : Asset}
  {t : IncomingTransfer} {P Q : IncomingTransfer → Prop} {lo mid hi cur head : ℕ}
  {rows : List ChainDeposit} {wallets rest : List UserChainWallet} {txs : List IncomingTransfer}

/-! The rounds of a search. -/

theorem maxRound_le {n : ℕ} (hCur : cur ≤ n) (hRounds : ∀ t ∈ txs, t.round ≤ n) :
    maxRound cur txs ≤ n := by
  unfold maxRound
  induction txs generalizing cur with
  | nil => exact hCur
  | cons t txs ih =>
    have hRest : ∀ t ∈ txs, t.round ≤ n := fun u hu => hRounds u (List.mem_cons_of_mem t hu)
    rw [List.foldl_cons]
    split
    · exact ih (hRounds t List.mem_cons_self) hRest
    · exact ih hCur hRest

theorem isCustodial_iff {address : Address} :
    s.isCustodial address = true ↔ ∃ w ∈ s.wallets, w.address = address := by
  simp [Store.isCustodial]

namespace Store

theorem Passing.imp (h : s.Passing cfg asset lo hi P)
    (hImp : ∀ t ∈ s.chain, s.IsExternal cfg t → t.asset = asset → P t → s.IsRecorded t ∨ Q t) :
    s.Passing cfg asset lo hi Q := by
  intro t hChain hExternal hAsset hLo hHi
  rcases h t hChain hExternal hAsset hLo hHi with hRecorded | hP
  · exact .inl hRecorded
  · exact hImp t hChain hExternal hAsset hP

theorem Passing.trans (h : s.Passing cfg asset lo mid P) (h' : s.Passing cfg asset mid hi P) :
    s.Passing cfg asset lo hi P := by
  intro t hChain hExternal hAsset hLo hHi
  rcases Nat.lt_or_ge t.round mid with hBefore | hAfter
  · exact h t hChain hExternal hAsset hLo hBefore
  · exact h' t hChain hExternal hAsset hAfter hHi

/-- What the first rounds of a cursor, up to a round, are known for. -/
structure Covers (cfg : Settings) (s : Store) (asset : Asset) (cur : ℕ) : Prop where
  exists_cursor : (s.cursor asset).isSome
  round : cur ≤ s.round
  passing : ∀ first ∈ s.firstRound asset, s.Passing cfg asset first cur fun _ => False

theorem Covers.extend (h : s.Covers cfg asset cur) (hRound : hi ≤ s.round)
    (hPassing : s.Passing cfg asset cur hi fun _ => False) : s.Covers cfg asset hi :=
  ⟨h.exists_cursor, hRound, fun first hFirst => (h.passing first hFirst).trans hPassing⟩

/-- The rows are those of transfers to custodial wallets. -/
def Tells (s : Store) (rows : List ChainDeposit) : Prop :=
  ∀ row ∈ rows, ∃ t ∈ s.chain, ∃ w ∈ s.wallets, w.address = t.receiver ∧ row = .of w.userId t

/-- The wallets that a poll has read. -/
def HasRead (cfg : Settings) (s : Store) (wallets : List UserChainWallet) : Prop :=
  ∀ w ∈ wallets, (∃ w' ∈ s.wallets, w'.userId = w.userId ∧ w'.address = w.address) ∧
    ∀ txId ∈ w.fundedTxId, s.Funds cfg.funder txId

/-! What every step keeps. -/

structure Grows (cfg : Settings) (s s' : Store) : Prop where
  round : s.round ≤ s'.round
  chain : ∀ t ∈ s.chain, t ∈ s'.chain
  later : ∀ t ∈ s'.chain, t ∈ s.chain ∨ s.round < t.round
  external : ∀ t ∈ s.chain, s'.IsExternal cfg t → s.IsExternal cfg t
  wallets : ∀ w ∈ s.wallets, ∃ w' ∈ s'.wallets, w'.userId = w.userId ∧ w'.address = w.address
  deposits : ∀ row ∈ s.deposits, row ∈ s'.deposits
  cursor : ∀ asset, (s.cursor asset).isSome →
    (s'.cursor asset).isSome ∧ s'.firstRound asset = s.firstRound asset

/-- Whether a transfer is external is about the addresses of the wallets. -/
theorem IsExternal.of_same (h : s'.IsExternal cfg t)
    (hSame : ∀ address, s'.isCustodial address = s.isCustodial address) : s.IsExternal cfg t := by
  obtain ⟨hAmount, hReceiver, hSender, hReserve, hFunder⟩ := h
  rw [hSame] at hReceiver hSender
  exact ⟨hAmount, hReceiver, hSender, hReserve, hFunder⟩

theorem Grows.refl (s : Store) : Grows cfg s s :=
  ⟨le_refl _, fun _ h => h, fun _ h => .inl h, fun _ _ h => h, fun w h => ⟨w, h, rfl, rfl⟩,
    fun _ h => h, fun _ h => ⟨h, rfl⟩⟩

/-- The chain has not moved, and no wallet has changed. -/
theorem Grows.of_polled (hChain : s'.chain = s.chain) (hRound : s'.round = s.round)
    (hWallets : s'.wallets = s.wallets) (hDeposits : ∀ row ∈ s.deposits, row ∈ s'.deposits)
    (hCursor : ∀ asset, (s.cursor asset).isSome →
      (s'.cursor asset).isSome ∧ s'.firstRound asset = s.firstRound asset) : Grows cfg s s' := by
  have hSame : ∀ address, s'.isCustodial address = s.isCustodial address := by
    intro address
    rw [isCustodial, hWallets, isCustodial]
  refine ⟨hRound.ge, ?_, ?_, fun t _ hExternal => hExternal.of_same hSame, ?_, hDeposits, hCursor⟩
  · intro t ht
    rwa [hChain]
  · intro t ht
    rw [hChain] at ht
    exact .inl ht
  · intro w hw
    rw [← hWallets] at hw
    exact ⟨w, hw, rfl, rfl⟩

/-- Only the wallets have changed. -/
theorem Grows.of_wallets {changed : List UserChainWallet}
    (hExternal : ∀ t ∈ s.chain, ({ s with wallets := changed } : Store).IsExternal cfg t →
      s.IsExternal cfg t)
    (hWallets : ∀ w ∈ s.wallets, ∃ w' ∈ changed, w'.userId = w.userId ∧ w'.address = w.address) :
    Grows cfg s { s with wallets := changed } :=
  ⟨le_refl _, fun _ h => h, fun _ h => .inl h, hExternal, hWallets, fun _ h => h, fun _ h => ⟨h, rfl⟩⟩

theorem IsRecorded.grows (h : s.IsRecorded t) (hGrows : Grows cfg s s') : s'.IsRecorded t := by
  obtain ⟨w, hw, hAddress, hRow⟩ := h
  obtain ⟨w', hw', hUser, hAddress'⟩ := hGrows.wallets w hw
  refine ⟨w', hw', hAddress'.trans hAddress, ?_⟩
  rw [hUser]
  exact hGrows.deposits _ hRow

theorem Passing.grows (h : s.Passing cfg asset lo hi P) (hRound : hi ≤ s.round)
    (hGrows : Grows cfg s s') : s'.Passing cfg asset lo hi P := by
  intro t hChain hExternal hAsset hLo hHi
  rcases hGrows.later t hChain with hOld | hNew
  · rcases h t hOld (hGrows.external t hOld hExternal) hAsset hLo hHi with hRecorded | hP
    · exact .inl (hRecorded.grows hGrows)
    · exact .inr hP
  · omega

theorem Covers.grows (h : s.Covers cfg asset cur) (hGrows : Grows cfg s s') :
    s'.Covers cfg asset cur := by
  obtain ⟨hExists, hFirst⟩ := hGrows.cursor asset h.exists_cursor
  refine ⟨hExists, h.round.trans hGrows.round, ?_⟩
  intro first hMem
  rw [hFirst] at hMem
  exact (h.passing first hMem).grows h.round hGrows

theorem Tells.grows (h : s.Tells rows) (hGrows : Grows cfg s s') : s'.Tells rows := by
  intro row hRow
  obtain ⟨t, ht, w, hw, hAddress, rfl⟩ := h row hRow
  obtain ⟨w', hw', hUser, hAddress'⟩ := hGrows.wallets w hw
  exact ⟨t, hGrows.chain t ht, w', hw', hAddress'.trans hAddress, by rw [hUser]⟩

theorem Funds.grows {funder txId : ℕ} (h : s.Funds funder txId) (hGrows : Grows cfg s s') :
    s'.Funds funder txId := by
  obtain ⟨t, ht, hId, hSender⟩ := h
  exact ⟨t, hGrows.chain t ht, hId, hSender⟩

theorem HasRead.grows (h : s.HasRead cfg wallets) (hGrows : Grows cfg s s') :
    s'.HasRead cfg wallets := by
  intro w hw
  obtain ⟨⟨w₁, hw₁, hUser₁, hAddress₁⟩, hFunded⟩ := h w hw
  obtain ⟨w₂, hw₂, hUser₂, hAddress₂⟩ := hGrows.wallets w₁ hw₁
  refine ⟨⟨w₂, hw₂, hUser₂.trans hUser₁, hAddress₂.trans hAddress₁⟩, ?_⟩
  intro txId hTx
  exact (hFunded txId hTx).grows hGrows

/-! The single writes. -/

theorem grows_createCursor {round : ℕ} (hNone : s.cursor asset = none) :
    Grows cfg s (s.createCursor asset round) := by
  refine Grows.of_polled rfl rfl rfl (fun _ h => h) ?_
  intro other hSome
  have hNe : other ≠ asset := by
    rintro rfl
    rw [hNone] at hSome
    cases hSome
  simp only [createCursor, Function.update_of_ne hNe]
  exact ⟨hSome, trivial⟩

theorem grows_setCursor {round : ℕ} : Grows cfg s (s.setCursor asset round) := by
  refine Grows.of_polled rfl rfl rfl (fun _ h => h) ?_
  intro other hSome
  refine ⟨?_, rfl⟩
  by_cases hEq : other = asset
  · simp [hEq, setCursor]
  · simpa only [setCursor, Function.update_of_ne hEq] using hSome

theorem grows_createMany : Grows cfg s (s.createMany rows) :=
  .of_polled rfl rfl rfl (fun _ hRow => KeyedTable.mem_insertMany_of_mem hRow) fun _ h => ⟨h, rfl⟩

theorem grows_createWallet {userId : ℕ} {address : Address} (hUnused : s.Unused address) :
    Grows cfg s (s.createWallet userId address) := by
  have hCustodial : ∀ a, a ≠ address →
      (s.createWallet userId address).isCustodial a = s.isCustodial a := by
    intro a hNe
    simp [isCustodial, createWallet, hNe.symm]
  refine Grows.of_wallets ?_ ?_
  · intro t ht hExternal
    obtain ⟨hReceiver, hSender⟩ := hUnused.2 t ht
    refine ⟨hExternal.amount, ?_, ?_, hExternal.reserve, hExternal.funder⟩
    · rw [← hCustodial _ hReceiver]
      exact hExternal.receiver
    · rw [← hCustodial _ hSender]
      exact hExternal.sender
  · intro w hw
    exact ⟨w, List.mem_append_left _ hw, rfl, rfl⟩

theorem grows_updateWallet {userId : ℕ} {f : UserChainWallet → UserChainWallet}
    (hf : ∀ w, (f w).userId = w.userId ∧ (f w).address = w.address) :
    Grows cfg s (s.updateWallet userId f) := by
  have hSame : ∀ address, (s.updateWallet userId f).isCustodial address = s.isCustodial address := by
    intro address
    simp only [isCustodial, updateWallet, List.any_map]
    congr 1
    funext w
    simp only [Function.comp_apply]
    split
    · rw [(hf w).2]
    · rfl
  refine Grows.of_wallets (fun t _ hExternal => hExternal.of_same hSame) ?_
  intro w hw
  refine ⟨_, List.mem_map_of_mem hw, ?_⟩
  split
  · exact hf w
  · exact ⟨rfl, rfl⟩

theorem grows_addBlock {transfers : List IncomingTransfer} :
    Grows cfg s (s.addBlock transfers) := by
  refine ⟨Nat.le_succ _, ?_, ?_, ?_, fun w h => ⟨w, h, rfl, rfl⟩, fun _ h => h, fun _ h => ⟨h, rfl⟩⟩
  · intro t ht
    exact List.mem_append_left _ ht
  · intro t ht
    rcases List.mem_append.mp ht with hOld | hNew
    · exact .inl hOld
    · obtain ⟨u, -, rfl⟩ := List.mem_map.mp hNew
      exact .inr (Nat.lt_succ_self _)
  · intro t _ hExternal
    exact hExternal.of_same fun _ => rfl

/-! A sound store stays sound. -/

theorem Sound.setCursor {round : ℕ} (h : s.Sound cfg) (hRound : round ≤ s.round) :
    (s.setCursor asset round).Sound cfg := by
  refine { h with cursors := ?_ }
  intro other cur hCur
  by_cases hEq : other = asset
  · simp only [hEq, Store.setCursor, Function.update_self, Option.mem_some_iff] at hCur
    exact hCur ▸ hRound
  · simp only [Store.setCursor, Function.update_of_ne hEq] at hCur
    exact h.cursors other cur hCur

theorem Sound.createCursor {round : ℕ} (h : s.Sound cfg) (hRound : round ≤ s.round) :
    (s.createCursor asset round).Sound cfg := by
  have hMoved : (s.setCursor asset round).Sound cfg := h.setCursor hRound
  exact { h with cursors := hMoved.cursors }

theorem Sound.createMany (h : s.Sound cfg) (hTells : s.Tells rows) :
    (s.createMany rows).Sound cfg := by
  refine { h with deposits := ?_ }
  intro row hRow
  rcases KeyedTable.mem_insertMany hRow with hOld | hNew
  · exact h.deposits row hOld
  · exact hTells row hNew

/-- A transaction whose key a batch has is recorded once the batch is in: the row of that key is its
own. -/
theorem isRecorded_createMany (h : s.Sound cfg) (hTells : s.Tells rows) (hChain : t ∈ s.chain)
    (hKey : ∃ row ∈ rows, row.key = (t.txId, t.asset)) : (s.createMany rows).IsRecorded t := by
  obtain ⟨row, hRow, hKey⟩ := hKey
  have hMem : (t.txId, t.asset) ∈ KeyedTable.keys ChainDeposit.key
      (KeyedTable.insertMany ChainDeposit.key s.deposits rows) := by
    rw [KeyedTable.mem_keys_insertMany, ← hKey]
    exact .inr (List.mem_map_of_mem hRow)
  obtain ⟨row', hRow', hKey'⟩ := List.mem_map.mp hMem
  obtain ⟨t', ht', w, hw, hAddress, rfl⟩ := (h.createMany hTells).deposits row' hRow'
  have hId : t'.txId = t.txId := congrArg Prod.fst hKey'
  have hSame : t' = t := List.inj_on_of_nodup_map h.ids ht' hChain hId
  subst hSame
  exact ⟨w, hw, hAddress, hRow'⟩

theorem Sound.createWallet {userId : ℕ} {address : Address} (h : s.Sound cfg) :
    (s.createWallet userId address).Sound cfg := by
  refine { h with funded := ?_, deposits := ?_ }
  · intro w hw txId hTx
    rcases List.mem_append.mp hw with hOld | hNew
    · exact h.funded w hOld txId hTx
    · rw [List.mem_singleton.mp hNew] at hTx
      cases hTx
  · intro row hRow
    obtain ⟨t, ht, w, hw, hAddress, hEq⟩ := h.deposits row hRow
    exact ⟨t, ht, w, List.mem_append_left _ hw, hAddress, hEq⟩

theorem Sound.updateWallet {userId : ℕ} {f : UserChainWallet → UserChainWallet} (h : s.Sound cfg)
    (hf : ∀ w, (f w).userId = w.userId ∧ (f w).address = w.address)
    (hFunded : ∀ w, ∀ txId ∈ (f w).fundedTxId, txId ∈ w.fundedTxId ∨ s.Funds cfg.funder txId) :
    (s.updateWallet userId f).Sound cfg := by
  have hGrows : Grows cfg s (s.updateWallet userId f) := grows_updateWallet hf
  refine { h with funded := ?_, deposits := Tells.grows h.deposits hGrows }
  intro w' hw' txId hTx
  obtain ⟨w, hw, rfl⟩ := List.mem_map.mp hw'
  split at hTx
  · rcases hFunded w txId hTx with hOld | hNew
    · exact h.funded w hw txId hOld
    · exact hNew
  · exact h.funded w hw txId hTx

theorem Sound.addBlock {transfers : List IncomingTransfer} (h : s.Sound cfg)
    (hExtends : s.Extends transfers) : (s.addBlock transfers).Sound cfg := by
  have hGrows : Grows cfg s (s.addBlock transfers) := grows_addBlock
  refine ⟨?_, ?_, ?_, fun w hw txId hTx => (h.funded w hw txId hTx).grows hGrows,
    Tells.grows h.deposits hGrows⟩
  · have hIds : (s.addBlock transfers).chain.map IncomingTransfer.txId =
        (s.chain ++ transfers).map IncomingTransfer.txId := by
      simp [Store.addBlock, Function.comp_def]
    rw [hIds]
    exact hExtends
  · intro t ht
    rcases List.mem_append.mp ht with hOld | hNew
    · exact (h.rounds t hOld).trans (Nat.le_succ _)
    · obtain ⟨u, -, rfl⟩ := List.mem_map.mp hNew
      exact le_refl _
  · intro asset cur hCur
    exact (h.cursors asset cur hCur).trans (Nat.le_succ _)

/-- Every cursor is past rounds it may be past. -/
def Covered (cfg : Settings) (s : Store) : Prop :=
  ∀ asset, ∀ cur ∈ s.cursor asset, s.Covers cfg asset cur

theorem Covered.grows (h : s.Covered cfg) (hGrows : Grows cfg s s') (hSame : s'.cursor = s.cursor) :
    s'.Covered cfg := by
  intro asset cur hCur
  rw [hSame] at hCur
  exact (h asset cur hCur).grows hGrows

theorem Covered.setCursor {round : ℕ} (h : s.Covered cfg) (hCovers : s.Covers cfg asset round) :
    (s.setCursor asset round).Covered cfg := by
  intro other cur hCur
  by_cases hEq : other = asset
  · subst hEq
    simp only [Store.setCursor, Function.update_self, Option.mem_some_iff] at hCur
    exact hCur ▸ hCovers.grows grows_setCursor
  · simp only [Store.setCursor, Function.update_of_ne hEq] at hCur
    exact (h other cur hCur).grows grows_setCursor

/-- Nothing before the round of its creation counts for a cursor. -/
theorem covers_createCursor {round : ℕ} (hRound : round ≤ s.round) :
    (s.createCursor asset round).Covers cfg asset round := by
  refine ⟨by simp [Store.createCursor], hRound, ?_⟩
  intro first hFirst t _ _ _ hLo hHi
  simp only [Store.createCursor, Function.update_self, Option.mem_some_iff] at hFirst
  omega

theorem Covered.createCursor {round : ℕ} (h : s.Covered cfg) (hNone : s.cursor asset = none)
    (hRound : round ≤ s.round) : (s.createCursor asset round).Covered cfg := by
  intro other cur hCur
  by_cases hEq : other = asset
  · subst hEq
    simp only [Store.createCursor, Function.update_self, Option.mem_some_iff] at hCur
    exact hCur ▸ covers_createCursor hRound
  · simp only [Store.createCursor, Function.update_of_ne hEq] at hCur
    exact (h other cur hCur).grows (grows_createCursor hNone)

end Store

end FarmBackend.ChainDeposits
