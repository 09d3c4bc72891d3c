import FarmBackend.LegBookings
import Mathlib.Algebra.BigOperators.Intervals

/-!
# Runs of the ledger and of `enqueue`

What every state keeps that a run of ledger commits and enqueue runs can reach: each row of the
outbox is worth to a user what the leg it is for is worth, a marked transaction misses no leg that
counts, and the legs stay near what the ledger booked as long as every row tells what it books.
-/

namespace FarmBackend.ChainLegs
open Wallets Interleaving

set_option autoImplicit false

namespace Store

/-- Past the go-live boundary, with nothing left to enqueue. -/
structure Drained (s : Store) : Prop where
  goLive : s.goLive = true
  enqueued : ∀ id t, s.transactions[id]? = some t → t.status = .completed → id ∈ s.enqueuedAt
  marked : ∀ id ∈ s.enqueuedAt, id < s.transactions.length
  settled : ∀ id ∈ s.chainSettled, id < s.transactions.length
  known : ∀ row ∈ s.outbox, row.transactionId < s.transactions.length
  nodup : (KeyedTable.keys OutboxRow.key s.outbox).Nodup

theorem mem_waiting {s : Store} {t : Transaction} {id : ℕ} :
    (t, id) ∈ s.waiting ↔
      s.transactions[id]? = some t ∧ t.status = .completed ∧ id ∉ s.enqueuedAt := by
  simp [waiting, List.mk_mem_zipIdx_iff_getElem?]

theorem mem_waiting_of_oldest {s : Store} {limit : ℕ} {tx : Transaction × ℕ}
    (h : tx ∈ s.oldest limit) : tx ∈ s.waiting :=
  (List.mem_insertionSort _).mp (List.mem_of_mem_take h)

theorem mem_mark {s : Store} {ids : List ℕ} {id : ℕ} :
    id ∈ (s.mark ids).enqueuedAt ↔ id ∈ s.enqueuedAt ∨ id ∈ ids ∧ ∃ t, (t, id) ∈ s.waiting := by
  simp [mark]

end Store

/-- The user's chain wallet is ready whenever it is looked up. -/
def ready (reg : Registry) (userId : UserId) (o : Outcome reg.reserve) : Call → Bool
  | .addressOf _ => (o.chain.address userId).isSome
  | _ => true

abbrev Ready (reg : Registry) (userId : UserId) : Guard Store Call (Outcome reg.reserve) :=
  fun o _ call => ready reg userId o call = true

/-- And every commit writes a row that tells what it books. -/
def tells (reg : Registry) (userId : UserId) (o : Outcome reg.reserve) (s : Store) : Call → Bool
  | .ledger op => op.tells reg userId o.rules s.db
  | call => ready reg userId o call

abbrev Tells (reg : Registry) (userId : UserId) : Guard Store Call (Outcome reg.reserve) :=
  fun o s call => tells reg userId o s call = true

/-- What a transaction's legs are worth, by its id. -/
def worthAt (reg : Registry) (userId : UserId) (s : Store) (k : ℕ × Leg) : ℤ :=
  match s.transactions[k.1]? with
  | none => 0
  | some t => reg.worth userId t k.2

/-- What the transactions of a run are worth together. -/
def owed (reg : Registry) (userId : UserId) (start s : Store) : ℤ :=
  ∑ id ∈ Finset.Ico start.transactions.length s.transactions.length,
    (worthAt reg userId s (id, .main) + worthAt reg userId s (id, .fee))

/-- What every reachable state keeps. -/
structure Tracks (reg : Registry) (userId : UserId) (start s : Store) : Prop where
  goLive : s.goLive = true
  grows : start.transactions.length ≤ s.transactions.length
  recent : ∀ id t, (t, id) ∈ s.waiting → start.transactions.length ≤ id
  completed : ∀ id t, start.transactions.length ≤ id → s.transactions[id]? = some t →
    t.status = .completed
  marked : ∀ id ∈ s.enqueuedAt, id < s.transactions.length
  settled : ∀ id ∈ s.chainSettled, id < start.transactions.length
  known : ∀ row ∈ s.outbox, row.transactionId < s.transactions.length
  nodup : (KeyedTable.keys OutboxRow.key s.outbox).Nodup
  rows : ∀ row ∈ s.outbox, start.transactions.length ≤ row.transactionId →
    row.transactionId ∈ s.enqueuedAt ∧ signedUnits userId row = worthAt reg userId s row.key
  legs : ∀ id leg, start.transactions.length ≤ id → id ∈ s.enqueuedAt →
    worthAt reg userId s (id, leg) ≠ 0 → (id, leg) ∈ KeyedTable.keys OutboxRow.key s.outbox
  near : |1000000 * owed reg userId start s - (available (reg.walletsOf userId) s.db.bank -
      available (reg.walletsOf userId) start.db.bank)| ≤
    1999999 * (s.transactions.length - start.transactions.length : ℕ)

/-- What a running call has read stays so. -/
def Knows (reg : Registry) (userId : UserId) (start s : Store) : Call → Prop
  | .addressOf txs => ∀ t id, (t, id) ∈ txs →
      s.transactions[id]? = some t ∧ start.transactions.length ≤ id
  | .createMany ids rows =>
      (∀ row ∈ rows, row.transactionId ∈ ids ∧
        signedUnits userId row = worthAt reg userId s row.key) ∧
      ∀ id ∈ ids, start.transactions.length ≤ id ∧ id < s.transactions.length ∧
        ∀ leg, worthAt reg userId s (id, leg) ≠ 0 → (id, leg) ∈ KeyedTable.keys OutboxRow.key rows
  | _ => True

section Runs
variable {reg : Registry} {userId : UserId} {start s s' : Store}

theorem tracks_start (hStart : start.Drained) : Tracks reg userId start start where
  goLive := hStart.goLive
  grows := le_rfl
  recent := by
    intro id t hWaiting
    obtain ⟨hGet, hStatus, hNot⟩ := Store.mem_waiting.mp hWaiting
    exact absurd (hStart.enqueued id t hGet hStatus) hNot
  completed := by
    intro id t hId hGet
    exact absurd (List.getElem?_eq_some_iff.mp hGet).1 (not_lt.mpr hId)
  marked := hStart.marked
  settled := hStart.settled
  known := hStart.known
  nodup := hStart.nodup
  rows := by
    intro row hRow hId
    exact absurd (hStart.known row hRow) (not_lt.mpr hId)
  legs := by
    intro id leg hId hMarked _
    exact absurd (hStart.marked id hMarked) (not_lt.mpr hId)
  near := by simp [owed]

theorem worthAt_of_grows (h : s.transactions <+: s'.transactions) {k : ℕ × Leg}
    (hk : k.1 < s.transactions.length) : worthAt reg userId s' k = worthAt reg userId s k := by
  obtain ⟨rest, hRest⟩ := h
  rw [worthAt, worthAt, ← hRest, List.getElem?_append_left hk]

theorem owed_of_append {t : Transaction} (h : s'.transactions = s.transactions ++ [t])
    (hGrows : start.transactions.length ≤ s.transactions.length) :
    owed reg userId start s' = owed reg userId start s + reg.mirrored userId t := by
  have hPrefix : s.transactions <+: s'.transactions := ⟨[t], h.symm⟩
  have hLast : s'.transactions[s.transactions.length]? = some t := by
    rw [h, List.getElem?_concat_length]
  unfold owed
  rw [h, List.length_append, List.length_singleton, Finset.sum_Ico_succ_top hGrows]
  congr 1
  · apply Finset.sum_congr rfl
    intro id hId
    have hLt := (Finset.mem_Ico.mp hId).2
    rw [worthAt_of_grows hPrefix hLt, worthAt_of_grows hPrefix hLt]
  · simp [worthAt, hLast, Registry.mirrored]

/-- Completed rows are appended; nothing else changes but the wallets. -/
theorem tracks_append {db : Escrow.EscrowDb} {rows : List Transaction}
    (hTracks : Tracks reg userId start s)
    (hTransactions : db.bank.transactions = s.transactions ++ rows)
    (hStatus : ∀ t ∈ rows, t.status = .completed)
    (hNear : |1000000 * owed reg userId start { s with db := db } -
      (available (reg.walletsOf userId) db.bank - available (reg.walletsOf userId) start.db.bank)| ≤
        1999999 * (db.bank.transactions.length - start.transactions.length : ℕ)) :
    Tracks reg userId start { s with db := db } := by
  have hAppended : ({ s with db := db } : Store).transactions = s.transactions ++ rows :=
    hTransactions
  have hPrefix : s.transactions <+: ({ s with db := db } : Store).transactions :=
    ⟨rows, hAppended.symm⟩
  have hLength := hPrefix.length_le
  refine ⟨hTracks.goLive, hTracks.grows.trans hLength, ?_, ?_, ?_, hTracks.settled, ?_,
    hTracks.nodup, ?_, ?_, hNear⟩
  · intro id t hWaiting
    obtain ⟨hGet, hCompleted, hNot⟩ := Store.mem_waiting.mp hWaiting
    by_cases hOld : id < s.transactions.length
    · rw [hAppended, List.getElem?_append_left hOld] at hGet
      exact hTracks.recent id t (Store.mem_waiting.mpr ⟨hGet, hCompleted, hNot⟩)
    · exact hTracks.grows.trans (not_lt.mp hOld)
  · intro id t hId hGet
    rw [hAppended] at hGet
    by_cases hOld : id < s.transactions.length
    · rw [List.getElem?_append_left hOld] at hGet
      exact hTracks.completed id t hId hGet
    · rw [List.getElem?_append_right (not_lt.mp hOld)] at hGet
      exact hStatus t (List.mem_of_getElem? hGet)
  · intro id hMarked
    exact (hTracks.marked id hMarked).trans_le hLength
  · intro row hRow
    exact (hTracks.known row hRow).trans_le hLength
  · intro row hRow hId
    rw [worthAt_of_grows hPrefix (hTracks.known row hRow)]
    exact hTracks.rows row hRow hId
  · intro id leg hId hMarked hWorth
    rw [worthAt_of_grows hPrefix (hTracks.marked id hMarked)] at hWorth
    exact hTracks.legs id leg hId hMarked hWorth

/-- A commit appends at most one row, and the books stay near. -/
theorem tracks_commit {db : Escrow.EscrowDb} (hTracks : Tracks reg userId start s)
    (hBooked : Booked reg userId s.db.bank db.bank) :
    Tracks reg userId start { s with db := db } ∧
      s.transactions <+: db.bank.transactions := by
  have hGrows := hTracks.grows
  have hOld := abs_le.mp hTracks.near
  cases hBooked with
  | nothing hShifts =>
    have hSame : db.bank.transactions = s.transactions :=
      hShifts.transactions_eq.trans (List.append_nil _)
    refine ⟨tracks_append hTracks hShifts.transactions_eq (by simp) ?_, ⟨[], ?_⟩⟩
    · have hOwed : owed reg userId start { s with db := db } = owed reg userId start s := by
        have hStore : ({ s with db := db } : Store).transactions = s.transactions := hSame
        unfold owed worthAt
        rw [hStore]
      rw [hOwed, hShifts.available_eq, add_zero, hSame]
      exact hTracks.near
    · rw [hSame, List.append_nil]
  | row t delta hShifts hStatus hNear =>
    have hRows : db.bank.transactions = s.transactions ++ [t] := hShifts.transactions_eq
    refine ⟨tracks_append hTracks hRows ?_ ?_, ⟨[t], hRows.symm⟩⟩
    · intro row hRow
      rw [List.mem_singleton.mp hRow]
      exact hStatus
    · have hOwed : owed reg userId start { s with db := db } =
          owed reg userId start s + reg.mirrored userId t := owed_of_append hRows hGrows
      have hNew := abs_lt.mp hNear
      rw [hOwed, hShifts.available_eq, hRows, List.length_append, List.length_singleton, abs_le]
      push_cast [Nat.cast_sub (hGrows.trans (Nat.le_add_right _ 1))]
      rw [Nat.cast_sub hGrows] at hOld
      constructor <;> linarith

theorem knows_of_grows {call : Call} (hKnows : Knows reg userId start s call)
    (hPrefix : s.transactions <+: s'.transactions) : Knows reg userId start s' call := by
  cases call with
  | addressOf txs =>
    obtain ⟨rest, hRest⟩ := hPrefix
    intro t id hMem
    obtain ⟨hGet, hId⟩ := hKnows t id hMem
    rw [← hRest, List.getElem?_append_left (List.getElem?_eq_some_iff.mp hGet).1]
    exact ⟨hGet, hId⟩
  | createMany ids rows =>
    obtain ⟨hRows, hIds⟩ := hKnows
    constructor
    · intro row hRow
      obtain ⟨hMem, hWorth⟩ := hRows row hRow
      refine ⟨hMem, ?_⟩
      rw [worthAt_of_grows hPrefix (hIds _ hMem).2.1]
      exact hWorth
    · intro id hMem
      obtain ⟨hId, hLt, hLegs⟩ := hIds id hMem
      refine ⟨hId, hLt.trans_le hPrefix.length_le, ?_⟩
      intro leg hWorth
      rw [worthAt_of_grows hPrefix hLt] at hWorth
      exact hLegs leg hWorth
  | _ => trivial

/-- The rows made of a batch are worth to the user what its transactions are, and none is missing
that counts. -/
theorem knows_addressOf {chain : ChainWallets reg.reserve} {txs : List (Transaction × ℕ)}
    (hPlain : reg.Plain userId) (hTracks : Tracks reg userId start s)
    (hKnows : Knows reg userId start s (.addressOf txs)) (hReady : (chain.address userId).isSome) :
    Knows reg userId start s (.createMany (txs.map Prod.snd)
      ((txs.filter fun (_, id) => !s.chainSettled.contains id).flatMap fun (t, id) =>
        reg.legs chain (walletIdsOf txs) id t)) := by
  constructor
  · intro row hRow
    obtain ⟨⟨t, id⟩, hTx, hLeg⟩ := List.mem_flatMap.mp hRow
    have hMem := (List.mem_filter.mp hTx).1
    obtain ⟨hSender, hReceiver⟩ := mem_walletIdsOf hMem
    obtain ⟨hId, hWorth⟩ := signedUnits_of_mem_legs hPlain hReady hSender hReceiver hLeg
    refine ⟨List.mem_map.mpr ⟨(t, id), hMem, hId.symm⟩, ?_⟩
    rw [hWorth, worthAt, OutboxRow.key, hId, (hKnows t id hMem).1]
  · intro id hId
    obtain ⟨⟨t, id⟩, hMem, rfl⟩ := List.mem_map.mp hId
    obtain ⟨hGet, hLe⟩ := hKnows t id hMem
    refine ⟨hLe, (List.getElem?_eq_some_iff.mp hGet).1, ?_⟩
    intro leg hWorth
    obtain ⟨hSender, hReceiver⟩ := mem_walletIdsOf hMem
    rw [worthAt, hGet] at hWorth
    have hKey : (id, leg) ∈ KeyedTable.keys OutboxRow.key (reg.legs chain (walletIdsOf txs) id t) :=
      mem_keys_legs hPlain hReady hSender hReceiver hWorth
    obtain ⟨row, hRow, hEq⟩ := List.mem_map.mp hKey
    refine List.mem_map.mpr ⟨row, List.mem_flatMap.mpr ⟨(t, id), ?_, hRow⟩, hEq⟩
    rw [List.mem_filter]
    refine ⟨hMem, ?_⟩
    have hUnsettled : id ∉ s.chainSettled := by
      intro hSettled
      exact absurd (hTracks.settled id hSettled) (not_lt.mpr hLe)
    simpa using hUnsettled

theorem tracks_createMany {ids : List ℕ} {rows : List OutboxRow}
    (hTracks : Tracks reg userId start s) (hKnows : Knows reg userId start s (.createMany ids rows)) :
    Tracks reg userId start
      { s.mark ids with outbox := KeyedTable.insertMany OutboxRow.key s.outbox rows } := by
  obtain ⟨hRows, hIds⟩ := hKnows
  have hMarked : ∀ id ∈ ids, id ∈ (s.mark ids).enqueuedAt := by
    intro id hId
    rw [Store.mem_mark]
    by_cases hOld : id ∈ s.enqueuedAt
    · exact .inl hOld
    · obtain ⟨hLe, hLt, -⟩ := hIds id hId
      have hGet := List.getElem?_eq_getElem hLt
      refine .inr ⟨hId, _, Store.mem_waiting.mpr ⟨hGet, ?_, hOld⟩⟩
      exact hTracks.completed id _ hLe hGet
  refine ⟨hTracks.goLive, hTracks.grows, ?_, hTracks.completed, ?_, hTracks.settled, ?_,
    KeyedTable.nodup_insertMany hTracks.nodup, ?_, ?_, hTracks.near⟩
  · intro id t hWaiting
    obtain ⟨hGet, hCompleted, hNot⟩ := Store.mem_waiting.mp hWaiting
    refine hTracks.recent id t (Store.mem_waiting.mpr ⟨hGet, hCompleted, ?_⟩)
    intro hOld
    exact hNot (Store.mem_mark.mpr (.inl hOld))
  · intro id hMem
    rcases Store.mem_mark.mp hMem with hOld | ⟨hId, -⟩
    · exact hTracks.marked id hOld
    · exact (hIds id hId).2.1
  · intro row hRow
    rcases KeyedTable.mem_insertMany hRow with hOld | hNew
    · exact hTracks.known row hOld
    · exact (hIds _ (hRows row hNew).1).2.1
  · intro row hRow hLe
    rcases KeyedTable.mem_insertMany hRow with hOld | hNew
    · obtain ⟨hMem, hWorth⟩ := hTracks.rows row hOld hLe
      exact ⟨Store.mem_mark.mpr (.inl hMem), hWorth⟩
    · obtain ⟨hMem, hWorth⟩ := hRows row hNew
      exact ⟨hMarked _ hMem, hWorth⟩
  · intro id leg hLe hMem hWorth
    apply KeyedTable.mem_keys_insertMany.mpr
    rcases Store.mem_mark.mp hMem with hOld | ⟨hId, -⟩
    · exact .inl (hTracks.legs id leg hLe hOld hWorth)
    · exact .inr ((hIds id hId).2.2 leg hWorth)

theorem goLive_ensureGoLive {cutoff : Time} (h : s.goLive = true) : s.ensureGoLive cutoff = s :=
  if_pos h

theorem step_tracks {o : Outcome reg.reserve} {call call' : Call} (hPlain : reg.Plain userId)
    (hTracks : Tracks reg userId start s) (hKnows : Knows reg userId start s call)
    (hOk : Tells reg userId o s call) (hStep : step reg o s call = some (s', call')) :
    (Tracks reg userId start s' ∧ Knows reg userId start s' call') ∧
      s.transactions <+: s'.transactions := by
  cases call with
  | ledger op =>
    simp only [step, Option.map_eq_some_iff, Prod.mk.injEq] at hStep
    obtain ⟨db, hCommit, rfl, rfl⟩ := hStep
    have hBooked := (books_commit hOk hCommit).booked
    obtain ⟨hTracks', hPrefix⟩ := tracks_commit hTracks hBooked
    exact ⟨⟨hTracks', trivial⟩, hPrefix⟩
  | enqueue limit =>
    simp only [step, goLive_ensureGoLive hTracks.goLive, Option.some.injEq] at hStep
    split at hStep <;> cases hStep <;> exact ⟨⟨hTracks, trivial⟩, List.prefix_rfl⟩
  | findMany limit =>
    simp only [step, Option.some.injEq, Prod.mk.injEq] at hStep
    obtain ⟨rfl, rfl⟩ := hStep
    refine ⟨⟨hTracks, ?_⟩, List.prefix_rfl⟩
    split
    · trivial
    · intro t id hMem
      have hWaiting := Store.mem_waiting_of_oldest hMem
      exact ⟨(Store.mem_waiting.mp hWaiting).1, hTracks.recent id t hWaiting⟩
  | addressOf txs =>
    simp only [step, Option.some.injEq, Prod.mk.injEq] at hStep
    obtain ⟨rfl, rfl⟩ := hStep
    exact ⟨⟨hTracks, knows_addressOf hPlain hTracks hKnows hOk⟩, List.prefix_rfl⟩
  | createMany ids rows =>
    simp only [step, Option.some.injEq, Prod.mk.injEq] at hStep
    obtain ⟨rfl, rfl⟩ := hStep
    exact ⟨⟨tracks_createMany hTracks hKnows, trivial⟩, List.prefix_rfl⟩
  | done => cases hStep

end Runs

end FarmBackend.ChainLegs
