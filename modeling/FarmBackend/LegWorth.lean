import FarmBackend.ChainLegs

/-!
# What the legs of a transaction are worth to a user

The rows that `enqueue` makes depend on whose chain wallets are ready and on the other wallets of
the batch. What they move for one user does not, once that user's own chain wallet is ready and
none of the user's wallets is of a type that is not looked up.
-/

namespace FarmBackend.ChainLegs
open Decimal Wallets

set_option autoImplicit false

def legNet (t : Transaction) : ℤ :=
  assetUnits (if 0 < toNumber t.netAmount then toNumber t.netAmount else toNumber t.amount)

def legFee (t : Transaction) : ℤ := assetUnits (toNumber t.fee)

namespace Registry
variable (reg : Registry) (chain : ChainWallets reg.reserve) (userId : UserId)

def sourceOf (walletIds : List WalletId) (t : Transaction) : Party :=
  if reserveFunded t.transactionType then reg.reserveParty
  else reg.partyOf chain walletIds t.senderWalletId

/-- No wallet of the user is of a type that is not looked up. -/
def Plain : Prop :=
  ∀ id w, reg.wallet id = some w → w.userId = some userId →
    w.walletType ≠ .platform ∧ w.walletType ≠ .treasury

def owns : Option WalletId → Bool
  | none => false
  | some id => decide (id ∈ reg.walletsOf userId)

/-- The user's wallet is debited, and not for an escrow, whose funds the reserve holds. -/
def pays (t : Transaction) : Bool :=
  !reserveFunded t.transactionType && reg.owns userId t.senderWalletId

def worth (t : Transaction) : Leg → ℤ
  | .main => (if reg.owns userId t.receiverWalletId then max 0 (legNet t) else 0) -
      if reg.pays userId t then max 0 (legNet t) else 0
  | .fee => -if reg.pays userId t then max 0 (legFee t) else 0

/-- What the legs of a transaction move for the user together. -/
def mirrored (t : Transaction) : ℤ := reg.worth userId t .main + reg.worth userId t .fee

/-- An address is that of the user named, or the reserve's. -/
def Names (p : Party) : Prop :=
  match p.userId with
  | some other => chain.address other = some p.address
  | none => p.address = reg.reserve

end Registry

section Parties
variable {reg : Registry} {chain : ChainWallets reg.reserve} {userId : UserId}
  {walletIds : List WalletId} {walletId : Option WalletId} {p q : Party}

theorem names_reserveParty : reg.Names chain reg.reserveParty := rfl

theorem addressOf_eq_some {id : WalletId} (h : reg.addressOf chain walletIds id = some p) :
    p = reg.reserveParty ∨ ∃ w other a, reg.wallet id = some w ∧ w.userId = some other ∧
      chain.address other = some a ∧ p = ⟨some other, a⟩ := by
  simp only [Registry.addressOf, Option.ite_none_right_eq_some, Option.map_eq_some_iff] at h
  obtain ⟨-, w, hWallet, hParty⟩ := h
  split at hParty
  · rename_i a hAddress
    obtain ⟨other, hOther, hLookup⟩ := Option.bind_eq_some_iff.mp hAddress
    rw [Option.ite_none_right_eq_some] at hLookup
    refine .inr ⟨w, other, a, hWallet, hOther, hLookup.2, ?_⟩
    rw [← hParty, hOther]
  · exact .inl hParty.symm

theorem names_partyOf : reg.Names chain (reg.partyOf chain walletIds walletId) := by
  unfold Registry.partyOf
  cases hParty : walletId.bind (reg.addressOf chain walletIds) with
  | none => exact names_reserveParty
  | some p =>
    obtain ⟨id, -, hLookup⟩ := Option.bind_eq_some_iff.mp hParty
    rcases addressOf_eq_some hLookup with rfl | ⟨w, other, a, -, -, hAddress, rfl⟩
    · exact names_reserveParty
    · exact hAddress

theorem names_sourceOf {t : Transaction} : reg.Names chain (reg.sourceOf chain walletIds t) := by
  unfold Registry.sourceOf
  split
  · exact names_reserveParty
  · exact names_partyOf

/-- Two ends that one user is on are one address, and no other end has it. -/
theorem address_eq_iff (hp : reg.Names chain p) (hq : reg.Names chain q)
    (hUser : p.userId = some userId) : p.address = q.address ↔ q.userId = some userId := by
  simp only [Registry.Names, hUser] at hp
  constructor
  · intro hAddress
    cases hOther : q.userId with
    | none =>
      simp only [Registry.Names, hOther] at hq
      exact absurd (hAddress.trans hq) (chain.ne_reserve userId _ hp)
    | some other =>
      simp only [Registry.Names, hOther] at hq
      rw [← hAddress] at hq
      rw [chain.unique other userId _ hq hp]
  · intro hOther
    simp only [Registry.Names, hOther] at hq
    rw [hp] at hq
    exact Option.some.inj hq

theorem partyOf_userId (hPlain : reg.Plain userId) (hReady : (chain.address userId).isSome)
    (hBatch : ∀ id, walletId = some id → id ∈ walletIds) :
    (reg.partyOf chain walletIds walletId).userId = some userId ↔
      reg.owns userId walletId = true := by
  cases walletId with
  | none => simp [Registry.partyOf, Registry.owns, Registry.reserveParty]
  | some id =>
    have hMem := hBatch id rfl
    obtain ⟨a, hAddress⟩ := Option.isSome_iff_exists.mp hReady
    rw [Registry.owns, decide_eq_true_eq, reg.mem_walletsOf]
    constructor
    · intro hUser
      cases hLookup : reg.addressOf chain walletIds id with
      | none => simp [Registry.partyOf, hLookup, Registry.reserveParty] at hUser
      | some p =>
        simp only [Registry.partyOf, Option.bind_some, hLookup, Option.getD_some] at hUser
        rcases addressOf_eq_some hLookup with rfl | ⟨w, other, a, hWallet, hOther, -, rfl⟩
        · cases hUser
        · exact ⟨w, hWallet, hOther.trans hUser⟩
    · rintro ⟨w, hWallet, hUser⟩
      have hListed : userId ∈ reg.userIds walletIds := by
        apply List.mem_filterMap.mpr
        refine ⟨id, hMem, ?_⟩
        rw [hWallet, Option.bind_some, if_pos (hPlain id w hWallet hUser), hUser]
      simp [Registry.partyOf, Registry.addressOf, hMem, hWallet, hUser, hListed, hAddress]

end Parties

theorem mem_legs {reg : Registry} {chain : ChainWallets reg.reserve} {walletIds : List WalletId}
    {id : ℕ} {t : Transaction} {row : OutboxRow} :
    row ∈ reg.legs chain walletIds id t ↔
      (0 < legNet t ∧
        (reg.sourceOf chain walletIds t).address ≠
          (reg.partyOf chain walletIds t.receiverWalletId).address ∧
        row = ⟨id, .main, (reg.sourceOf chain walletIds t).userId,
          (reg.partyOf chain walletIds t.receiverWalletId).userId,
          (reg.sourceOf chain walletIds t).address,
          (reg.partyOf chain walletIds t.receiverWalletId).address, legNet t⟩) ∨
      (0 < legFee t ∧ t.senderWalletId.isSome = true ∧
        (reg.sourceOf chain walletIds t).address ≠ reg.reserve ∧
        row = ⟨id, .fee, (reg.sourceOf chain walletIds t).userId, none,
          (reg.sourceOf chain walletIds t).address, reg.reserve, legFee t⟩) := by
  have hLegs : reg.legs chain walletIds id t =
      ((Leg.main, reg.sourceOf chain walletIds t, reg.partyOf chain walletIds t.receiverWalletId,
        legNet t) ::
        if 0 < legFee t ∧ t.senderWalletId.isSome then
          [(Leg.fee, reg.sourceOf chain walletIds t, reg.reserveParty, legFee t)]
        else []).filterMap fun l =>
          if l.2.2.2 ≤ 0 ∨ l.2.1.address = l.2.2.1.address then none
          else some ⟨id, l.1, l.2.1.userId, l.2.2.1.userId, l.2.1.address, l.2.2.1.address, l.2.2.2⟩ :=
    rfl
  rw [hLegs, List.mem_filterMap]
  constructor
  · rintro ⟨leg, hLeg, hRow⟩
    rcases List.mem_cons.mp hLeg with rfl | hFee
    · simp only [Option.ite_none_left_eq_some, not_or, not_le, Option.some.injEq] at hRow
      exact .inl ⟨hRow.1.1, hRow.1.2, hRow.2.symm⟩
    · split at hFee
      · rename_i hSome
        rw [List.mem_singleton.mp hFee] at hRow
        simp only [Option.ite_none_left_eq_some, not_or, not_le, Option.some.injEq] at hRow
        exact .inr ⟨hRow.1.1, hSome.2, hRow.1.2, hRow.2.symm⟩
      · cases hFee
  · rintro (⟨hNet, hAddress, rfl⟩ | ⟨hFee, hSender, hAddress, rfl⟩)
    · refine ⟨_, List.mem_cons_self, ?_⟩
      simp [hNet, hAddress]
    · refine ⟨(Leg.fee, reg.sourceOf chain walletIds t, reg.reserveParty, legFee t), ?_, ?_⟩
      · rw [if_pos ⟨hFee, hSender⟩]
        exact List.mem_cons_of_mem _ (List.mem_singleton.mpr rfl)
      · simp [hFee, hAddress, Registry.reserveParty]

section Legs
variable {reg : Registry} {chain : ChainWallets reg.reserve} {userId : UserId}
  {walletIds : List WalletId} {id : ℕ} {t : Transaction}

theorem sourceOf_userId (hPlain : reg.Plain userId) (hReady : (chain.address userId).isSome)
    (hBatch : ∀ id, t.senderWalletId = some id → id ∈ walletIds) :
    (reg.sourceOf chain walletIds t).userId = some userId ↔ reg.pays userId t = true := by
  unfold Registry.sourceOf Registry.pays
  cases reserveFunded t.transactionType with
  | true => simp [Registry.reserveParty]
  | false => simpa using partyOf_userId hPlain hReady hBatch

/-- Every row of a transaction moves for the user what its leg is worth. -/
theorem signedUnits_of_mem_legs (hPlain : reg.Plain userId)
    (hReady : (chain.address userId).isSome)
    (hSender : ∀ id, t.senderWalletId = some id → id ∈ walletIds)
    (hReceiver : ∀ id, t.receiverWalletId = some id → id ∈ walletIds) {row : OutboxRow}
    (h : row ∈ reg.legs chain walletIds id t) :
    row.transactionId = id ∧ signedUnits userId row = reg.worth userId t row.leg := by
  have hSource := sourceOf_userId hPlain hReady hSender
  have hTarget := partyOf_userId hPlain hReady hReceiver
  rcases mem_legs.mp h with ⟨hNet, -, rfl⟩ | ⟨hFee, -, -, rfl⟩
  · refine ⟨rfl, ?_⟩
    simp only [signedUnits, Registry.worth, hSource, hTarget, max_eq_right hNet.le]
  · refine ⟨rfl, ?_⟩
    simp only [signedUnits, Registry.worth, hSource, max_eq_right hFee.le]
    simp

theorem mem_keys_legs (hPlain : reg.Plain userId) (hReady : (chain.address userId).isSome)
    (hSender : ∀ id, t.senderWalletId = some id → id ∈ walletIds)
    (hReceiver : ∀ id, t.receiverWalletId = some id → id ∈ walletIds) {leg : Leg}
    (h : reg.worth userId t leg ≠ 0) :
    (id, leg) ∈ KeyedTable.keys OutboxRow.key (reg.legs chain walletIds id t) := by
  have hSource := sourceOf_userId hPlain hReady hSender
  have hTarget := partyOf_userId hPlain hReady hReceiver
  cases leg with
  | main =>
    have hNet : 0 < legNet t := by
      by_contra hNot
      apply h
      simp [Registry.worth, max_eq_left (not_lt.mp hNot)]
    have hAddress : (reg.sourceOf chain walletIds t).address ≠
        (reg.partyOf chain walletIds t.receiverWalletId).address := by
      intro hEq
      apply h
      unfold Registry.worth
      cases hPays : reg.pays userId t with
      | true =>
        have hBoth := (address_eq_iff names_sourceOf names_partyOf (hSource.mpr hPays)).mp hEq
        rw [hTarget.mp hBoth, if_pos rfl, if_pos rfl, sub_self]
      | false =>
        cases hOwns : reg.owns userId t.receiverWalletId with
        | true =>
          have hBoth := (address_eq_iff names_partyOf names_sourceOf (hTarget.mpr hOwns)).mp hEq.symm
          rw [hSource.mp hBoth] at hPays
          cases hPays
        | false => rfl
    apply List.mem_map.mpr
    exact ⟨_, mem_legs.mpr (.inl ⟨hNet, hAddress, rfl⟩), rfl⟩
  | fee =>
    have hPays : reg.pays userId t = true := by
      by_contra hNot
      apply h
      simp [Registry.worth, hNot]
    have hFee : 0 < legFee t := by
      by_contra hNot
      apply h
      simp [Registry.worth, max_eq_left (not_lt.mp hNot)]
    have hSome : t.senderWalletId.isSome = true := by
      cases hWallet : t.senderWalletId with
      | none => simp [Registry.pays, hWallet, Registry.owns] at hPays
      | some id => rfl
    have hAddress : (reg.sourceOf chain walletIds t).address ≠ reg.reserve := by
      intro hEq
      have hBoth := (address_eq_iff names_sourceOf names_reserveParty (hSource.mpr hPays)).mp hEq
      cases hBoth
    apply List.mem_map.mpr
    exact ⟨_, mem_legs.mpr (.inr ⟨hFee, hSome, hAddress, rfl⟩), rfl⟩

theorem nodup_keys_legs : (KeyedTable.keys OutboxRow.key (reg.legs chain walletIds id t)).Nodup := by
  apply List.pairwise_map.mpr
  unfold Registry.legs
  refine List.Pairwise.filterMap _ (R := fun a b => a.1 ≠ b.1) ?_ ?_
  · intro a b hLegs row hRow other hOther hKey
    rw [Option.ite_none_left_eq_some, Option.some.injEq] at hRow hOther
    rw [← hRow.2, ← hOther.2] at hKey
    exact hLegs (Prod.mk.inj hKey).2
  · apply List.pairwise_cons.mpr
    constructor
    · intro b hb
      split at hb
      · rw [List.mem_singleton.mp hb]
        exact Leg.noConfusion
      · cases hb
    · split
      · exact List.pairwise_singleton _ _
      · exact List.Pairwise.nil

/-- Whoever looks them up, the legs of a transaction move the same for the user. -/
theorem moved_legs (hPlain : reg.Plain userId) (hReady : (chain.address userId).isSome)
    (hSender : ∀ id, t.senderWalletId = some id → id ∈ walletIds)
    (hReceiver : ∀ id, t.receiverWalletId = some id → id ∈ walletIds) :
    moved userId (reg.legs chain walletIds id t) = reg.mirrored userId t := by
  have hSum : moved userId (reg.legs chain walletIds id t) =
      ∑ k ∈ {(id, Leg.main), (id, Leg.fee)}, reg.worth userId t k.2 := by
    refine KeyedTable.sum_eq_of_keys nodup_keys_legs ?_ ?_ ?_
    · intro row hRow
      have hId := (signedUnits_of_mem_legs hPlain hReady hSender hReceiver hRow).1
      rw [OutboxRow.key, hId]
      cases row.leg <;> simp
    · intro row hRow
      exact (signedUnits_of_mem_legs hPlain hReady hSender hReceiver hRow).2
    · intro k hk hMissing
      by_contra hWorth
      have hKey : (id, k.2) ∈ KeyedTable.keys OutboxRow.key (reg.legs chain walletIds id t) :=
        mem_keys_legs hPlain hReady hSender hReceiver hWorth
      rcases Finset.mem_insert.mp hk with rfl | hk
      · exact hMissing hKey
      · rw [Finset.mem_singleton.mp hk] at hMissing hKey
        exact hMissing hKey
  rw [hSum, Finset.sum_pair (by simp)]
  rfl

end Legs

theorem mem_walletIdsOf {txs : List (Transaction × ℕ)} {t : Transaction} {id : ℕ}
    (h : (t, id) ∈ txs) :
    (∀ walletId, t.senderWalletId = some walletId → walletId ∈ walletIdsOf txs) ∧
      ∀ walletId, t.receiverWalletId = some walletId → walletId ∈ walletIdsOf txs := by
  constructor
  · intro walletId hSender
    apply List.mem_flatMap.mpr
    refine ⟨(t, id), h, ?_⟩
    simp [hSender]
  · intro walletId hReceiver
    apply List.mem_flatMap.mpr
    refine ⟨(t, id), h, ?_⟩
    simp [hReceiver]

end FarmBackend.ChainLegs
