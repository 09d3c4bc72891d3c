import FarmBackend.X402

/-!
# What an accepted payment group looks like

The positions the fee payer signs are those it is the sender at. Each stage has one lemma that
says what its success means.
-/

namespace FarmBackend.X402

set_option autoImplicit false

/-! ## Replacing some positions of a list -/

section Replace
variable {α : Type} {i : ℕ} {group : List α}

theorem length_foldl_set (pairs : List (ℕ × α)) (group : List α) :
    (pairs.foldl (fun group (i, sig) => group.set i sig) group).length = group.length := by
  induction pairs generalizing group with
  | nil => rfl
  | cons pair pairs ih =>
    rw [List.foldl_cons, ih]
    exact List.length_set

theorem getElem?_foldl_set_of_notMem {pairs : List (ℕ × α)} (h : i ∉ pairs.map Prod.fst) :
    (pairs.foldl (fun group (i, sig) => group.set i sig) group)[i]? = group[i]? := by
  induction pairs generalizing group with
  | nil => rfl
  | cons pair pairs ih =>
    simp only [List.map_cons, List.mem_cons, not_or] at h
    rw [List.foldl_cons, ih h.2]
    apply List.getElem?_set_ne
    exact fun hSame => h.1 hSame.symm

theorem getElem?_foldl_set_of_mem {pairs : List (ℕ × α)} {a : α}
    (hNodup : (pairs.map Prod.fst).Nodup) (hMem : (i, a) ∈ pairs) (hi : i < group.length) :
    (pairs.foldl (fun group (i, sig) => group.set i sig) group)[i]? = some a := by
  induction pairs generalizing group with
  | nil => cases hMem
  | cons pair pairs ih =>
    rw [List.map_cons, List.nodup_cons] at hNodup
    rw [List.foldl_cons]
    rcases List.mem_cons.mp hMem with rfl | hMem
    · rw [getElem?_foldl_set_of_notMem hNodup.1]
      exact List.getElem?_set_self hi
    · apply ih hNodup.2 hMem
      rw [List.length_set]
      exact hi

end Replace

/-! ## The stages -/

/-- A payment of nothing from the fee payer to itself. -/
structure SelfPayment (feeAddr : Address) (s : SignedTransaction) : Prop where
  type : s.txn.type = .pay
  sender : s.txn.sender = feeAddr
  payment : ∃ pm, s.txn.payment = some pm ∧ pm.amount = 0 ∧ pm.receiver = feeAddr ∧
    pm.closeRemainderTo = none
  rekeyTo : s.txn.rekeyTo = none
  unsigned : signed s = false

structure ExactTransfer (req : PaymentRequirements) (s : SignedTransaction) : Prop where
  type : s.txn.type = .axfer
  transfer : ∃ x, s.txn.assetTransfer = some x ∧ toString x.assetIndex = req.asset ∧
    toString x.amount = req.amount ∧ x.receiver = req.payTo ∧ x.closeRemainderTo = none ∧
    x.assetSender = none
  rekeyTo : s.txn.rekeyTo = none
  signed : signed s = true
  payer : s.txn.sender ≠ req.payTo

/-- The transactions of the fee payer with their positions. -/
def feePositions (feeAddr : Option Address) (i : ℕ) (stx : List SignedTransaction) :
    List (SignedTransaction × ℕ) :=
  (stx.zipIdx i).filter fun at_ => fromFeePayer feeAddr at_.1

section Stages
variable {sdk : Sdk} {req : PaymentRequirements} {feeAddr : Option Address} {payer : Address}
  {stx : List SignedTransaction} {s : SignedTransaction} {i : ℕ}

theorem mem_feePositions : (s, i) ∈ feePositions feeAddr 0 stx ↔
    stx[i]? = some s ∧ fromFeePayer feeAddr s = true := by
  simp [feePositions, List.mem_filter, List.mem_zipIdx_iff_getElem?]

theorem feePositions_sorted :
    ((feePositions feeAddr 0 stx).map Prod.snd).Pairwise (· < ·) := by
  have hRange : (stx.zipIdx.map Prod.snd).Pairwise (· < ·) := by
    rw [List.zipIdx_map_snd]
    exact List.pairwise_lt_range'
  apply List.Pairwise.sublist _ hRange
  exact List.filter_sublist.map Prod.snd

theorem feeLoop_eq_ok {feeIdx feeIdx' : List ℕ} {feeTotal feeTotal' : ℕ}
    (h : feeLoop feeAddr payer i stx feeIdx feeTotal = .ok (feeIdx', feeTotal')) :
    feeIdx' = feeIdx ++ (feePositions feeAddr i stx).map Prod.snd ∧
      feeTotal' = feeTotal + ((feePositions feeAddr i stx).map fun at_ => at_.1.txn.fee).sum ∧
      ∀ s ∈ stx, if fromFeePayer feeAddr s then badFeePayment feeAddr s = false
        else signed s = true := by
  induction stx generalizing i feeIdx feeTotal with
  | nil =>
    simp only [feeLoop, Except.ok.injEq, Prod.mk.injEq] at h
    simp [feePositions, h]
  | cons s rest ih =>
    have hCons : feePositions feeAddr i (s :: rest) =
        if fromFeePayer feeAddr s then (s, i) :: feePositions feeAddr (i + 1) rest
        else feePositions feeAddr (i + 1) rest := by
      simp only [feePositions, List.zipIdx_cons, List.filter_cons]
    simp only [feeLoop] at h
    cases hFrom : fromFeePayer feeAddr s with
    | true =>
      rw [if_pos hFrom] at h
      cases hBad : badFeePayment feeAddr s with
      | true =>
        rw [if_pos hBad] at h
        cases h
      | false =>
        rw [hBad, if_neg Bool.false_ne_true] at h
        obtain ⟨hIdx, hTotal, hRest⟩ := ih h
        rw [hCons, if_pos hFrom]
        refine ⟨?_, ?_, ?_⟩
        · rw [hIdx, List.map_cons, List.append_assoc]
          rfl
        · rw [hTotal, List.map_cons, List.sum_cons, Nat.add_assoc]
        · intro s' hMem
          rcases List.mem_cons.mp hMem with rfl | hMem
          · rw [if_pos hFrom]
            exact hBad
          · exact hRest s' hMem
    | false =>
      rw [hFrom, if_neg Bool.false_ne_true] at h
      cases hSigned : signed s with
      | false =>
        rw [hSigned, if_neg Bool.false_ne_true] at h
        cases h
      | true =>
        rw [if_pos hSigned] at h
        obtain ⟨hIdx, hTotal, hRest⟩ := ih h
        rw [hCons, hFrom, if_neg Bool.false_ne_true]
        refine ⟨hIdx, hTotal, ?_⟩
        intro s' hMem
        rcases List.mem_cons.mp hMem with rfl | hMem
        · rw [hFrom, if_neg Bool.false_ne_true]
          exact hSigned
        · exact hRest s' hMem

theorem selfPayment_of_checked (hFrom : fromFeePayer feeAddr s = true)
    (hBad : badFeePayment feeAddr s = false) :
    ∃ a, feeAddr = some a ∧ SelfPayment a s := by
  obtain ⟨a, rfl, hSender⟩ := Option.any_eq_true _ _ |>.mp hFrom
  simp only [Bool.and_eq_true, beq_iff_eq] at hSender
  refine ⟨a, rfl, ?_⟩
  simp only [badFeePayment, Bool.or_eq_false_iff, bne_eq_false_iff_eq] at hBad
  obtain ⟨hType, hPayment⟩ := hBad
  cases hPm : s.txn.payment with
  | none => simp [hPm] at hPayment
  | some pm =>
    simp only [hPm, Option.elim_some, Bool.or_eq_false_iff, bne_eq_false_iff_eq,
      Option.isSome_eq_false_iff, Option.isNone_iff_eq_none, Option.some.injEq] at hPayment
    obtain ⟨⟨⟨⟨hAmount, hClose⟩, hRekey⟩, hReceiver⟩, hSigned⟩ := hPayment
    exact ⟨hType, hSender.2, ⟨pm, hPm, hAmount, hReceiver, hClose⟩, hRekey, hSigned⟩

theorem checkPayment_eq_ok (h : checkPayment req s = .ok ()) : ExactTransfer req s := by
  simp only [checkPayment] at h
  cases hTransfer : s.txn.assetTransfer with
  | none => simp [hTransfer] at h
  | some x =>
    simp only [hTransfer, bind_eq_ok, refuseIf_eq_ok, bne_eq_false_iff_eq, Bool.or_eq_false_iff,
      Option.isSome_eq_false_iff, Option.isNone_iff_eq_none, Bool.not_eq_eq_eq_not, Bool.not_false,
      beq_eq_false_iff_ne] at h
    obtain ⟨_, hType, _, hAsset, _, hAmount, _, hReceiver, _, ⟨⟨hClose, hRekey⟩, hClawback⟩, _,
      hSigned, hPayer⟩ := h
    exact ⟨hType, ⟨x, hTransfer, hAsset, hAmount, hReceiver, hClose, hClawback⟩, hRekey, hSigned,
      hPayer⟩

theorem checkPayload_eq_ok {p : PaymentPayload} {g : List (Option String)} {idx : ℕ}
    (h : checkPayload p = .ok (g, idx)) :
    p.paymentGroup = some g ∧ p.paymentIndex = some (idx : ℤ) := by
  simp only [checkPayload] at h
  split at h
  · rename_i g' idx' hGroup hIndex
    split at h
    · cases h
    · rename_i hRange
      simp only [Except.ok.injEq, Prod.mk.injEq] at h
      obtain ⟨rfl, rfl⟩ := h
      refine ⟨hGroup, ?_⟩
      rw [hIndex, Int.toNat_of_nonneg (by omega)]
  · cases h

theorem decodeElement_eq_some {t : Option String} {element : String × SignedTransaction}
    (h : decodeElement sdk t = some element) :
    t = some element.1 ∧ sdk.decodeSignedTransaction (sdk.fromBase64 element.1) = some element.2 := by
  cases t with
  | none => cases h
  | some t =>
    simp only [decodeElement] at h
    split at h
    · cases h
    · obtain ⟨s, hDecoded, rfl⟩ := Option.map_eq_some_iff.mp h
      exact ⟨rfl, hDecoded⟩

theorem decodeGroup_eq_ok {g : List (Option String)} {elements : List (String × SignedTransaction)}
    (h : decodeGroup sdk g = .ok elements) :
    g = elements.map (fun element => some element.1) ∧ ∀ element ∈ elements,
      sdk.decodeSignedTransaction (sdk.fromBase64 element.1) = some element.2 := by
  have hDecoded : g.mapM (decodeElement sdk) = some elements := by
    simp only [decodeGroup] at h
    cases hMap : g.mapM (decodeElement sdk) with
    | none => simp [hMap] at h
    | some elements' =>
      simp only [hMap, Except.ok.injEq] at h
      rw [h]
  clear h
  induction g generalizing elements with
  | nil =>
    simp only [List.mapM_nil, Option.pure_def, Option.some.injEq] at hDecoded
    simp [← hDecoded]
  | cons t g ih =>
    simp only [List.mapM_cons, Option.bind_eq_bind, Option.pure_def, Option.bind_eq_some_iff,
      Option.some.injEq] at hDecoded
    obtain ⟨element, hElement, rest, hRest, rfl⟩ := hDecoded
    obtain ⟨rfl, hSecond⟩ := decodeElement_eq_some hElement
    obtain ⟨rfl, hElements⟩ := ih hRest
    exact ⟨rfl, List.forall_mem_cons.mpr ⟨hSecond, hElements⟩⟩

end Stages

/-! ## The whole verification -/

section Verify
variable {sdk : Sdk} {c : X402Config} {o : VerifyAnswers} {used : TxId → Option PaymentStatus}
  {p : PaymentPayload} {req : PaymentRequirements} {allowedPayTo : Option Address}

def feeAddress (c : X402Config) (o : VerifyAnswers) : Option Address :=
  if c.feePayer then o.feePayerAddress else none

structure Passed (sdk : Sdk) (c : X402Config) (o : VerifyAnswers)
    (used : TxId → Option PaymentStatus) (p : PaymentPayload) (req : PaymentRequirements)
    (k : Checked) : Prop where
  group : p.paymentGroup = some (k.elements.map fun element => some element.1)
  decoded : ∀ element ∈ k.elements,
    sdk.decodeSignedTransaction (sdk.fromBase64 element.1) = some element.2
  index : p.paymentIndex = some (k.idx : ℤ)
  pay : k.stx[k.idx]? = some k.pay
  transfer : ExactTransfer req k.pay
  feeIdx : k.feeIdx = (feePositions (feeAddress c o) 0 k.stx).map Prod.snd
  fees : ((feePositions (feeAddress c o) 0 k.stx).map fun at_ => at_.1.txn.fee).sum ≤
    c.maxFeeMicroAlgos
  each : ∀ s ∈ k.stx, if fromFeePayer (feeAddress c o) s then
    badFeePayment (feeAddress c o) s = false else signed s = true
  unused : ∀ status, used (sdk.txID k.pay.txn) = some status → status = .failed

theorem checks_eq_ok {k : Checked} (h : checks sdk c o used p req allowedPayTo = .ok k) :
    Passed sdk c o used p req k := by
  simp only [checks, bind_eq_ok, orThrow_eq_ok, refuseIf_eq_ok, Prod.exists] at h
  obtain ⟨_, _, _, _, g, idx, hPayload, elements, hElements, _, _, pay, hPay, _, hTransfer, feeAddr,
    hFeeAddr, feeIdx, feeTotal, hLoop, _, hFees, round, _, _, _, _, _, _, hUsed, hReturn⟩ := h
  obtain ⟨hGroup, hIndex⟩ := checkPayload_eq_ok hPayload
  obtain ⟨hG, hDecoded⟩ := decodeGroup_eq_ok hElements
  have hAddress : feeAddr = feeAddress c o := by
    unfold feeAddress
    unfold feeAddrOf at hFeeAddr
    cases hOn : c.feePayer with
    | false =>
      rw [hOn, if_neg Bool.false_ne_true] at hFeeAddr
      cases hFeeAddr
      rfl
    | true =>
      rw [hOn, if_pos rfl] at hFeeAddr
      cases hAddr : o.feePayerAddress with
      | none => simp [hAddr, orThrow, Except.map] at hFeeAddr
      | some a =>
        simp only [hAddr, orThrow, Except.map, Except.ok.injEq] at hFeeAddr
        exact hFeeAddr.symm
  obtain ⟨hIdx, hTotal, hEach⟩ := feeLoop_eq_ok hLoop
  simp only [pure, Except.pure, Except.ok.injEq] at hReturn
  subst hReturn
  rw [hAddress] at hIdx hTotal hEach
  refine ⟨hG ▸ hGroup, hDecoded, hIndex, hPay, checkPayment_eq_ok hTransfer, ?_, ?_, hEach, ?_⟩
  · rw [hIdx, List.nil_append]
    rfl
  · have hBound : feeTotal ≤ c.maxFeeMicroAlgos := by simpa using hFees
    rw [hTotal, Nat.zero_add] at hBound
    exact hBound
  · intro status hStatus
    simpa [hStatus] using hUsed

theorem simulated_valid {k : Checked} {group : List Bytes} {fail : Option (Option String)}
    (h : (simulated sdk k group fail).isValid = true) :
    simulated sdk k group fail = ⟨true, none, none, some k.pay.txn.sender, some group,
      some (sdk.txID k.pay.txn), decide (0 < k.feeIdx.length)⟩ := by
  rcases fail with - | - | fail
  · cases h
  · rfl
  · simp only [simulated] at h ⊢
    split at h
    · rename_i hEmpty
      rw [if_pos hEmpty]
    · cases h

theorem txns_at_feePositions {feeAddr : Option Address} {stx : List SignedTransaction} :
    ((feePositions feeAddr 0 stx).map Prod.snd).filterMap
        (fun i => stx[i]?.map SignedTransaction.txn) =
      (feePositions feeAddr 0 stx).map fun at_ => at_.1.txn := by
  rw [List.filterMap_map, ← List.filterMap_eq_map]
  apply List.filterMap_congr
  intro at_ hMem
  simp [(mem_feePositions.mp hMem).1]

theorem verify_valid {r : VerifyResult}
    (h : (verify sdk c o used p req allowedPayTo).result = some r) (hValid : r.isValid = true) :
    ∃ k, checks sdk c o used p req allowedPayTo = .ok k ∧
      (verify sdk c o used p req allowedPayTo).signs =
        (feePositions (feeAddress c o) 0 k.stx).map (fun at_ => at_.1.txn) ∧
      r = ⟨true, none, none, some k.pay.txn.sender,
        some (((feePositions (feeAddress c o) 0 k.stx).map
          fun at_ => (at_.2, sdk.signTxn at_.1.txn)).foldl (fun group (i, sig) => group.set i sig)
            (k.elements.map fun element => sdk.fromBase64 element.1)),
        some (sdk.txID k.pay.txn), decide (0 < k.feeIdx.length)⟩ := by
  unfold verify at h ⊢
  cases hChecks : checks sdk c o used p req allowedPayTo with
  | error stop =>
    rw [hChecks] at h
    cases stop with
    | thrown => cases h
    | refused =>
      cases h
      cases hValid
  | ok k =>
    rw [hChecks] at h
    have hIdx := (checks_eq_ok hChecks).feeIdx
    refine ⟨k, rfl, ?_⟩
    simp only at h ⊢
    by_cases hNone : k.feeIdx.length = 0
    · rw [if_pos hNone] at h ⊢
      have hNil : feePositions (feeAddress c o) 0 k.stx = [] := by
        rw [List.length_eq_zero_iff.mp hNone] at hIdx
        exact List.map_eq_nil_iff.mp hIdx.symm
      rw [hNil]
      simp only [Option.some.injEq] at h
      subst h
      exact ⟨rfl, simulated_valid hValid⟩
    · rw [if_neg hNone] at h ⊢
      have hTxns : (k.feeIdx.filterMap fun i => k.stx[i]?.map SignedTransaction.txn) =
          (feePositions (feeAddress c o) 0 k.stx).map fun at_ => at_.1.txn := by
        rw [hIdx]
        exact txns_at_feePositions
      have hZip : ∀ group : List Bytes, replaceAt group k.feeIdx
          (((feePositions (feeAddress c o) 0 k.stx).map fun at_ => at_.1.txn).map sdk.signTxn) =
          ((feePositions (feeAddress c o) 0 k.stx).map
            fun at_ => (at_.2, sdk.signTxn at_.1.txn)).foldl
              (fun group (i, sig) => group.set i sig) group := by
        intro group
        rw [replaceAt, hIdx, List.map_map, List.zip_map']
        rfl
      rw [hTxns] at h ⊢
      cases hSigns : o.signs with
      | false =>
        rw [hSigns, if_neg Bool.false_ne_true] at h
        cases h
      | true =>
        rw [hSigns, if_pos rfl, hZip] at h
        simp only [Option.some.injEq] at h
        subst h
        exact ⟨rfl, simulated_valid hValid⟩

theorem getElem?_stx {k : Checked} {i : ℕ} {element : String × SignedTransaction}
    (h : k.elements[i]? = some element) : k.stx[i]? = some element.2 := by
  rw [Checked.stx, List.getElem?_map, h]
  rfl

theorem element_of_stx {k : Checked} {i : ℕ} {s : SignedTransaction} (h : k.stx[i]? = some s) :
    ∃ element, k.elements[i]? = some element ∧ element.2 = s := by
  rw [Checked.stx, List.getElem?_map] at h
  exact Option.map_eq_some_iff.mp h

section Passed
variable {k : Checked} (h : Passed sdk c o used p req k) {i : ℕ} {s : SignedTransaction}
include h

theorem Passed.mem_feeIdx : i ∈ k.feeIdx ↔ ∃ s, (s, i) ∈ feePositions (feeAddress c o) 0 k.stx := by
  rw [h.feeIdx]
  simp

theorem Passed.sorted : k.feeIdx.Pairwise (· < ·) := by
  rw [h.feeIdx]
  exact feePositions_sorted

/-- What stands at a position of the fee payer is a payment of nothing to itself. -/
theorem Passed.selfPayment (hAt : (s, i) ∈ feePositions (feeAddress c o) 0 k.stx) :
    ∃ a, feeAddress c o = some a ∧ SelfPayment a s := by
  obtain ⟨hGet, hFrom⟩ := mem_feePositions.mp hAt
  have hGood := h.each s (List.mem_of_getElem? hGet)
  rw [if_pos hFrom] at hGood
  exact selfPayment_of_checked hFrom hGood

theorem Passed.signed_of_notMem (hNot : i ∉ k.feeIdx) (hGet : k.stx[i]? = some s) :
    signed s = true := by
  have hGood := h.each s (List.mem_of_getElem? hGet)
  cases hFrom : fromFeePayer (feeAddress c o) s with
  | false => rwa [hFrom, if_neg Bool.false_ne_true] at hGood
  | true => exact absurd (h.mem_feeIdx.mpr ⟨s, mem_feePositions.mpr ⟨hGet, hFrom⟩⟩) hNot

/-- The payment is an asset transfer, and the fee payer's transactions are payments. -/
theorem Passed.idx_notMem : k.idx ∉ k.feeIdx := by
  intro hMem
  obtain ⟨s, hAt⟩ := h.mem_feeIdx.mp hMem
  obtain ⟨a, -, hSelf⟩ := h.selfPayment hAt
  have hGet := (mem_feePositions.mp hAt).1
  rw [h.pay, Option.some.injEq] at hGet
  have hType := hSelf.type
  rw [← hGet, h.transfer.type] at hType
  cases hType

end Passed

theorem eq_some_of_feeAddress {a : Address} (h : feeAddress c o = some a) :
    c.feePayer = true ∧ o.feePayerAddress = some a := by
  unfold feeAddress at h
  split at h
  · exact ⟨‹_›, h⟩
  · cases h

end Verify

theorem unused_of_verify {sdk : Sdk} {c : X402Config} {o : VerifyAnswers}
    {used : TxId → Option PaymentStatus} {p : PaymentPayload} {req : PaymentRequirements}
    {allowedPayTo : Option Address} {r : VerifyResult} {txId : TxId} {status : PaymentStatus}
    (h : (verify sdk c o used p req allowedPayTo).result = some r) (hValid : r.isValid = true)
    (hId : r.txId = some txId) (hUsed : used txId = some status) : status = .failed := by
  obtain ⟨k, hChecks, -, rfl⟩ := verify_valid h hValid
  cases hId
  exact (checks_eq_ok hChecks).unused status hUsed

/-- A group of `elements` is accepted with answer `r`: the positions `feeIdx` are the fee payer's,
`signs` is what it signs. -/
structure Admitted (sdk : Sdk) (c : X402Config) (o : VerifyAnswers) (p : PaymentPayload)
    (req : PaymentRequirements) (signs : List Transaction) (r : VerifyResult)
    (elements : List (String × SignedTransaction)) (idx : ℕ) (feeIdx : List ℕ)
    (group : List Bytes) : Prop where
  sent : p.paymentGroup = some (elements.map fun element => some element.1)
  decoded : ∀ element ∈ elements,
    sdk.decodeSignedTransaction (sdk.fromBase64 element.1) = some element.2
  answered : r.group = some group ∧ group.length = elements.length
  sorted : feeIdx.Pairwise (· < ·)
  signs_eq : signs.map some = feeIdx.map fun i => elements[i]?.map fun element => element.2.txn
  fees : (signs.map Transaction.fee).sum ≤ c.maxFeeMicroAlgos
  fee : ∀ i ∈ feeIdx, ∃ element feeAddr, elements[i]? = some element ∧ c.feePayer = true ∧
    o.feePayerAddress = some feeAddr ∧ SelfPayment feeAddr element.2 ∧
    group[i]? = some (sdk.signTxn element.2.txn)
  others : ∀ i element, i ∉ feeIdx → elements[i]? = some element →
    signed element.2 = true ∧ group[i]? = some (sdk.fromBase64 element.1)
  payment : p.paymentIndex = some (idx : ℤ) ∧ idx ∉ feeIdx ∧ ∃ element,
    elements[idx]? = some element ∧ ExactTransfer req element.2 ∧
    r.payer = some element.2.txn.sender

section Claim
variable {sdk : Sdk} {c : X402Config} {o : VerifyAnswers} {used : TxId → Option PaymentStatus}
  {p : PaymentPayload} {req : PaymentRequirements} {allowedPayTo : Option Address}

/-- Whatever group is accepted, the fee payer signs payments of nothing to itself within the cap,
its signatures stand at exactly those positions, and the payment is the required transfer. -/
theorem verify_signs_only_fees {r : VerifyResult}
    (h : (verify sdk c o used p req allowedPayTo).result = some r) (hValid : r.isValid = true) :
    ∃ elements idx feeIdx group, Admitted sdk c o p req
      (verify sdk c o used p req allowedPayTo).signs r elements idx feeIdx group := by
  obtain ⟨k, hChecks, hSigns, rfl⟩ := verify_valid h hValid
  have hPassed := checks_eq_ok hChecks
  have hPositions : (((feePositions (feeAddress c o) 0 k.stx).map
      fun at_ => (at_.2, sdk.signTxn at_.1.txn)).map Prod.fst) = k.feeIdx := by
    rw [hPassed.feeIdx, List.map_map]
    rfl
  refine ⟨k.elements, k.idx, k.feeIdx, _, hPassed.group, hPassed.decoded, ⟨rfl, ?_⟩,
    hPassed.sorted, ?_, ?_, ?_, ?_, hPassed.index, hPassed.idx_notMem, ?_⟩
  · rw [length_foldl_set, List.length_map]
  · rw [hSigns, hPassed.feeIdx, List.map_map, List.map_map]
    apply List.map_congr_left
    intro at_ hMem
    obtain ⟨element, hGet, hSecond⟩ := element_of_stx (mem_feePositions.mp hMem).1
    simp [hGet, hSecond]
  · rw [hSigns, List.map_map]
    exact hPassed.fees
  · intro i hMem
    obtain ⟨s, hAt⟩ := hPassed.mem_feeIdx.mp hMem
    obtain ⟨element, hGet, rfl⟩ := element_of_stx (mem_feePositions.mp hAt).1
    obtain ⟨a, hAddress, hSelf⟩ := hPassed.selfPayment hAt
    obtain ⟨hOn, hPayer⟩ := eq_some_of_feeAddress hAddress
    refine ⟨element, a, hGet, hOn, hPayer, hSelf, ?_⟩
    apply getElem?_foldl_set_of_mem
    · rw [hPositions]
      exact hPassed.sorted.imp ne_of_lt
    · exact List.mem_map.mpr ⟨(element.2, i), hAt, rfl⟩
    · rw [List.length_map]
      exact (List.getElem?_eq_some_iff.mp hGet).1
  · intro i element hNot hGet
    refine ⟨hPassed.signed_of_notMem hNot (getElem?_stx hGet), ?_⟩
    rw [getElem?_foldl_set_of_notMem (hPositions ▸ hNot), List.getElem?_map, hGet]
    rfl
  · obtain ⟨element, hGet, hSecond⟩ := element_of_stx hPassed.pay
    refine ⟨element, hGet, ?_⟩
    rw [hSecond]
    exact ⟨hPassed.transfer, rfl⟩

end Claim

/-! A payment of 5.00 FARM with the fee payer's transaction before it. -/

namespace Sample

def feeTxn : SignedTransaction :=
  ⟨⟨.pay, "FUNDER", 2000, 1000, 2000, some [9], some [7], none, some ⟨"FUNDER", 0, none⟩, none, []⟩,
    false, false, false, false⟩

def payTxn : SignedTransaction :=
  ⟨⟨.axfer, "PAYER", 0, 1000, 2000, some [9], some [7], none, none,
    some ⟨31, 500, "BUSINESS", none, none⟩, []⟩, true, false, false, false⟩

def sdk : Sdk where
  fromBase64 s := if s = "ZmVl" then [1] else if s = "cGF5" then [2] else []
  toBase64 bytes := if bytes = [7] then "Bw==" else if bytes = [9] then "CQ==" else ""
  decodeSignedTransaction bytes :=
    if bytes = [1] then some feeTxn else if bytes = [2] then some payTxn else none
  computeGroupID _ := [7]
  txID t := t.sender
  signTxn t := if t = feeTxn.txn then [1, 1] else []

def config : X402Config := ⟨true, "algorand:test", "CQ==", ⟨some 31, none⟩, true, 20000, 120⟩

def requirements : PaymentRequirements :=
  ⟨"exact", "algorand:test", "500", "31", "BUSINESS", 120⟩

def payload : PaymentPayload := ⟨some 2, some requirements, some [some "ZmVl", some "cGF5"], some 1⟩

def answers : VerifyAnswers := ⟨some "FUNDER", some 1500, true, true, some none⟩

def accepted : VerifyResult :=
  ⟨true, none, none, some "PAYER", some [[1, 1], [2]], some "PAYER", true⟩

end Sample

theorem sponsored_payment_admitted : ∃ elements idx feeIdx group,
    Admitted Sample.sdk Sample.config Sample.answers Sample.payload Sample.requirements
      (verify Sample.sdk Sample.config Sample.answers (fun _ => none) Sample.payload
        Sample.requirements (some "BUSINESS")).signs Sample.accepted elements idx feeIdx group :=
  verify_signs_only_fees (by decide +kernel) rfl

end FarmBackend.X402
