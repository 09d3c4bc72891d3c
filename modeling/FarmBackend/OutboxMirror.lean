import FarmBackend.OutboxRuns

/-!
# The outbox against the ledger

A transaction's legs are in the outbox once it is marked, each of them once. When nothing waits,
what the legs of a run move for a user is what the ledger did to the user, up to the rounding to
the asset's units, as long as every row tells what it booked.
-/

namespace FarmBackend.ChainLegs
open Decimal Fees Wallets Interleaving

set_option autoImplicit false

/-- The rows for the transactions from a number on. -/
def Store.rowsSince (s : Store) (first : ℕ) : List OutboxRow :=
  s.outbox.filter fun row => decide (first ≤ row.transactionId)

/-- How far the legs of the transactions since `start` are from what the ledger did to the user, in
FARM. -/
def drift (reg : Registry) (userId : UserId) (start s : Store) : ℚ :=
  value FARM_DECIMALS (moved userId (s.rowsSince start.transactions.length)) -
    toNumber (available (reg.walletsOf userId) s.db.bank -
      available (reg.walletsOf userId) start.db.bank)

/-- Less than 0.02 FARM for each transaction since `start`. -/
def Mirrors (reg : Registry) (userId : UserId) (start s : Store) : Prop :=
  drift reg userId start s = 0 ∨ |drift reg userId start s| <
    2 / 100 * (s.transactions.length - start.transactions.length : ℕ)

instance (reg : Registry) (userId : UserId) (start s : Store) :
    Decidable (Mirrors reg userId start s) := inferInstanceAs (Decidable (_ ∨ _))

/-- The outbox has the legs of the transaction, as any lookup makes them, once it is marked. -/
def LegsOnce (reg : Registry) (userId : UserId) (s : Store) (id : ℕ) (t : Transaction) : Prop :=
  ∀ (chain : ChainWallets reg.reserve) (txs : List (Transaction × ℕ)),
    (chain.address userId).isSome → (t, id) ∈ txs →
    moved userId (s.rowsOf id) =
      if id ∈ s.enqueuedAt then moved userId (reg.legs chain (walletIdsOf txs) id t) else 0

section Runs
variable {reg : Registry} {userId : UserId} {start s : Store}

/-- The rows for some marked transactions move for the user what their legs are worth. -/
theorem moved_filter (hTracks : Tracks reg userId start s) {p : OutboxRow → Bool} {ids : Finset ℕ}
    (hIds : ∀ id ∈ ids, start.transactions.length ≤ id ∧ id ∈ s.enqueuedAt)
    (hRows : ∀ row ∈ s.outbox, p row = true ↔ row.transactionId ∈ ids) :
    moved userId (s.outbox.filter p) =
      ∑ id ∈ ids, (worthAt reg userId s (id, .main) + worthAt reg userId s (id, .fee)) := by
  have hSum : moved userId (s.outbox.filter p) =
      ∑ k ∈ ids ×ˢ {Leg.main, Leg.fee}, worthAt reg userId s k := by
    refine KeyedTable.sum_eq_of_keys (hTracks.nodup.sublist (List.filter_sublist.map _)) ?_ ?_ ?_
    · intro row hRow
      obtain ⟨hMem, hTaken⟩ := List.mem_filter.mp hRow
      refine Finset.mem_product.mpr ⟨(hRows row hMem).mp hTaken, ?_⟩
      cases hLeg : row.leg <;> simp [OutboxRow.key, hLeg]
    · intro row hRow
      obtain ⟨hMem, hTaken⟩ := List.mem_filter.mp hRow
      exact (hTracks.rows row hMem (hIds _ ((hRows row hMem).mp hTaken)).1).2
    · rintro ⟨id, leg⟩ hk hMissing
      have hId := (Finset.mem_product.mp hk).1
      by_contra hWorth
      obtain ⟨hLe, hMarked⟩ := hIds id hId
      obtain ⟨row, hRow, hKey⟩ := List.mem_map.mp (hTracks.legs id leg hLe hMarked hWorth)
      apply hMissing
      refine List.mem_map.mpr ⟨row, List.mem_filter.mpr ⟨hRow, (hRows row hRow).mpr ?_⟩, hKey⟩
      rw [(Prod.mk.inj hKey).1]
      exact hId
  rw [hSum, Finset.sum_product]
  apply Finset.sum_congr rfl
  intro id _
  rw [Finset.sum_pair (by simp)]

/-- Once marked, a transaction has in the outbox what its legs are worth; before, nothing. -/
theorem moved_rowsOf (hTracks : Tracks reg userId start s) {id : ℕ} {t : Transaction}
    (hId : start.transactions.length ≤ id) (hGet : s.transactions[id]? = some t) :
    moved userId (s.rowsOf id) = if id ∈ s.enqueuedAt then reg.mirrored userId t else 0 := by
  by_cases hMarked : id ∈ s.enqueuedAt
  · have hSum : moved userId (s.rowsOf id) = ∑ i ∈ {id},
        (worthAt reg userId s (i, .main) + worthAt reg userId s (i, .fee)) := by
      refine moved_filter hTracks ?_ ?_
      · intro i hMem
        rw [Finset.mem_singleton.mp hMem]
        exact ⟨hId, hMarked⟩
      · intro row _
        rw [Finset.mem_singleton, beq_iff_eq]
    rw [if_pos hMarked, hSum, Finset.sum_singleton]
    simp [worthAt, hGet, Registry.mirrored]
  · have hNone : s.rowsOf id = [] := by
      apply List.eq_nil_iff_forall_not_mem.mpr
      intro row hRow
      obtain ⟨hMem, hOf⟩ := List.mem_filter.mp hRow
      rw [beq_iff_eq] at hOf
      subst hOf
      exact hMarked (hTracks.rows row hMem hId).1
    rw [if_neg hMarked, hNone]
    rfl

/-- With nothing waiting, the rows of the run move for the user what its transactions are worth. -/
theorem moved_rowsSince (hTracks : Tracks reg userId start s) (hIdle : s.waiting = []) :
    moved userId (s.rowsSince start.transactions.length) = owed reg userId start s := by
  refine moved_filter hTracks ?_ ?_
  · intro id hMem
    obtain ⟨hLe, hLt⟩ := Finset.mem_Ico.mp hMem
    refine ⟨hLe, ?_⟩
    by_contra hNot
    have hGet := List.getElem?_eq_getElem hLt
    have hWaiting := Store.mem_waiting.mpr ⟨hGet, hTracks.completed id _ hLe hGet, hNot⟩
    rw [hIdle] at hWaiting
    cases hWaiting
  · intro row hRow
    rw [Finset.mem_Ico, decide_eq_true_eq]
    constructor
    · intro hLe
      exact ⟨hLe, hTracks.known row hRow⟩
    · exact And.left

theorem mirrors_of_tracks (hTracks : Tracks reg userId start s) (hIdle : s.waiting = []) :
    Mirrors reg userId start s := by
  have hUnits : drift reg userId start s =
      ((1000000 * owed reg userId start s - (available (reg.walletsOf userId) s.db.bank -
        available (reg.walletsOf userId) start.db.bank) : ℤ) : ℚ) / 10 ^ 8 := by
    rw [drift, moved_rowsSince hTracks hIdle]
    simp only [toNumber, value, FARM_DECIMALS]
    push_cast
    ring
  have hNear := hTracks.near
  unfold Mirrors
  rw [hUnits]
  generalize 1000000 * owed reg userId start s - (available (reg.walletsOf userId) s.db.bank -
    available (reg.walletsOf userId) start.db.bank) = units at hNear
  generalize s.transactions.length - start.transactions.length = n at hNear
  rcases Nat.eq_zero_or_pos n with rfl | hPos
  · left
    have hZero : units = 0 := by
      rw [Nat.cast_zero, mul_zero] at hNear
      exact abs_nonpos_iff.mp hNear
    rw [hZero, Int.cast_zero, zero_div]
  · right
    have hBound : |(units : ℚ)| ≤ 1999999 * n := by exact_mod_cast hNear
    have hMany : (0 : ℚ) < n := by exact_mod_cast hPos
    rw [abs_div, abs_of_pos (by positivity : (0 : ℚ) < 10 ^ 8), div_lt_iff₀ (by positivity)]
    linarith

end Runs

/-- An undisturbed enqueue run whose limit covers what is waiting leaves nothing waiting. -/
theorem waiting_of_enqueue (reg : Registry) {s : Store} {limit : ℕ} {o : Outcome reg.reserve}
    (hGoLive : s.goLive = true) (hEnabled : o.syncEnabled = true)
    (hLimit : s.waiting.length ≤ limit) (calls : List Call) :
    ∃ c, (program reg).Reaches anyStep ⟨s, calls⟩ c ∧ c.store.waiting = [] ∧
      c.store.db = s.db := by
  have hEnter : (program reg).Reaches anyStep ⟨s, calls⟩ ⟨s, calls ++ [.enqueue limit]⟩ :=
    .single (.enter (Request.enqueue limit) s calls)
  have hBoundary : (program reg).step o s (.enqueue limit) = some (s, .findMany limit) := by
    simp [program, step, hEnabled, goLive_ensureGoLive hGoLive]
  have hFind := hEnter.tail (.call calls [] (anyStep_holds o s _) hBoundary)
  have hOldest : ∀ tx, tx ∈ s.waiting → tx ∈ s.oldest limit := by
    intro tx hTx
    unfold Store.oldest
    rw [List.take_of_length_le (by rw [List.length_insertionSort]; exact hLimit)]
    exact (List.mem_insertionSort _).mpr hTx
  by_cases hNone : s.waiting = []
  · exact ⟨_, hFind, hNone, rfl⟩
  · have hSome : (s.oldest limit).isEmpty = false := by
      obtain ⟨tx, hTx⟩ := List.exists_mem_of_ne_nil _ hNone
      rw [List.isEmpty_eq_false_iff_exists_mem]
      exact ⟨tx, hOldest tx hTx⟩
    have hRead : (program reg).step o s (.findMany limit) =
        some (s, .addressOf (s.oldest limit)) := by
      simp [program, step, hSome]
    have hLookup := hFind.tail (.call calls [] (anyStep_holds o s _) hRead)
    have hRows := hLookup.tail (.call calls [] (anyStep_holds o s _) rfl)
    refine ⟨_, hRows.tail (.call calls [] (anyStep_holds o s _) rfl), ?_, rfl⟩
    apply List.eq_nil_iff_forall_not_mem.mpr
    rintro ⟨t, id⟩ hMem
    obtain ⟨hGet, hCompleted, hNot⟩ := Store.mem_waiting.mp hMem
    apply hNot
    apply Store.mem_mark.mpr
    by_cases hOld : id ∈ s.enqueuedAt
    · exact .inl hOld
    · have hWaiting : (t, id) ∈ s.waiting := Store.mem_waiting.mpr ⟨hGet, hCompleted, hOld⟩
      exact .inr ⟨List.mem_map.mpr ⟨(t, id), hOldest _ hWaiting, rfl⟩, t, hWaiting⟩

/-- Users 0, 1 and 2 with the wallets of their numbers; 99 is the reserve. -/
def threeUsers : Registry where
  wallet id := if id ≤ 2 then some ⟨some id, .user⟩ else none
  walletsOf userId := if userId ≤ 2 then {userId} else ∅
  mem_walletsOf := by
    intro userId id
    by_cases hUser : userId ≤ 2 <;> by_cases hId : id ≤ 2 <;> simp [hUser, hId]
    · rintro rfl
      exact absurd hUser hId
    · rintro rfl
      exact hUser hId
  reserve := 99

def allReady : ChainWallets threeUsers.reserve where
  address userId := if userId ≤ 2 then some (10 + userId) else none
  unique := by
    intro userId other a hUser hOther
    rw [Option.ite_none_right_eq_some, Option.some.injEq] at hUser hOther
    exact Nat.add_left_cancel (hUser.2.trans hOther.2.symm)
  ne_reserve := by
    intro userId a hUser
    rw [Option.ite_none_right_eq_some, Option.some.injEq] at hUser
    obtain ⟨hLe, rfl⟩ := hUser
    exact Nat.ne_of_lt ((Nat.add_le_add_left hLe 10).trans_lt (by decide))

/-- User 1 has locked 40 FARM for user 2. -/
def escrowOf40 : Escrow.EscrowContract :=
  ⟨1, 2, some 1, some 2, Wallets.toUnits 40, 0, .active, 0, 0, 0⟩

/-- 100 FARM for each, wallet 0 the platform's; 40 FARM of wallet 1 are locked for an escrow. -/
def oneEscrow : Store where
  db :=
    { bank :=
        { wallets := fun id =>
            if id ≤ 2 then some ⟨Wallets.toUnits 100, if id = 1 then Wallets.toUnits 40 else 0, false⟩
            else none
          platform := some 0
          transactions := []
          ledger := [] }
      findUser := fun _ => none
      activeWallet := some
      escrows := [escrowOf40] }
  chainSettled := []
  enqueuedAt := []
  goLive := true
  outbox := []
theorem threeUsers_plain (userId : UserId) : threeUsers.Plain userId := by
  intro id w hWallet _
  simp only [threeUsers, Option.ite_none_right_eq_some, Option.some.injEq] at hWallet
  obtain ⟨-, rfl⟩ := hWallet
  exact ⟨WalletType.noConfusion, WalletType.noConfusion⟩

theorem oneEscrow_drained : oneEscrow.Drained := by
  refine ⟨rfl, ?_, ?_, ?_, ?_, List.nodup_nil⟩
  · intro id t hGet
    cases hGet
  · intro id hMem
    cases hMem
  · intro id hMem
    cases hMem
  · intro row hMem
    cases hMem

def thenEnqueue (ops : List (FeeRules × LedgerOp)) :
    List (Move Request (Outcome threeUsers.reserve)) :=
  ops.zipIdx.flatMap (fun (op, i) => [.enter (.ledger op.2), .run i ⟨0, op.1, true, 0, allReady⟩]) ++
    .enter (.enqueue 200) ::
      List.replicate 4 (.run ops.length ⟨0, FEE_DEFAULTS, true, 0, allReady⟩)

/-- A transfer costs 1%, and the release of an escrow 40 FARM. -/
def dear : FeeRules
  | .transfer => ⟨1, 0, 0, 0⟩
  | .escrowRelease => ⟨0, 40, 0, 0⟩
  | _ => ⟨0, 0, 0, 0⟩

/-- Whose books and legs differ, and after what: the payer's after a merchant payment of 50 FARM,
either party's after an accepted request with a fee, the seller's after a release whose fee takes
everything, and the platform's after a send with a fee. -/
def differences : List (UserId × FeeRules × LedgerOp) :=
  [(1, FEE_DEFAULTS, .sendFunds 1 2 50 true),
    (1, dear, .acceptAndTransfer 7 1 2 (Wallets.toUnits 30)),
    (2, dear, .acceptAndTransfer 7 1 2 (Wallets.toUnits 30)),
    (2, dear, .executeRelease 0 escrowOf40 false),
    (0, dear, .sendFunds 1 2 50 false)]

/-- User 1 sends 10.126 FARM at 1% and the escrow is released, 10 FARM first. -/
def sendAndRelease : List (FeeRules × LedgerOp) :=
  [(dear, .sendFunds 1 2 (10126 / 1000) false),
    (FEE_DEFAULTS, .releasePartial 0 escrowOf40 1 10),
    (FEE_DEFAULTS, .executeRelease 0 escrowOf40 false)]

end FarmBackend.ChainLegs
