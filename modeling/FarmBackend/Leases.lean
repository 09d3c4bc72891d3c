import Mathlib.Data.List.Basic
import Mathlib.Order.Lattice

/-!
# A key that expires

One key of a store whose commands `SET NX PX`, `GET` and `DEL` are atomic. Each lease has the number
of its acquisition, its holder. A `DEL` removes whatever lease stands.
-/

namespace FarmBackend.Leases

set_option autoImplicit false

universe u
variable {α : Type u}

structure Lease (α : Type u) where
  value : α
  holder : ℕ
  expiresAt : ℕ

/-- All but the clock and the lease is history: the acquisitions so far, those since the last expiry
or own release, the holders that have removed their own lease, and whether a lease was removed by
another than its holder. -/
structure Cell (α : Type u) where
  now : ℕ
  lease : Option (Lease α)
  serial : ℕ
  since : ℕ
  released : List ℕ
  stolen : Bool

namespace Cell

def empty : Cell α := ⟨0, none, 0, 0, [], false⟩

/-- Time passes, and the lease expires. -/
def tick (elapsed : ℕ) (c : Cell α) : Cell α :=
  if c.lease.any fun l => l.expiresAt ≤ c.now + elapsed then
    { c with now := c.now + elapsed, lease := none, since := 0 }
  else { c with now := c.now + elapsed }

/-- `SET NX PX` of a key that does not stand. -/
def set (value : α) (ttl : ℕ) (c : Cell α) : Cell α :=
  { c with
    lease := some ⟨value, c.serial, c.now + ttl⟩
    serial := c.serial + 1
    since := c.since + 1 }

def get (c : Cell α) : Option α := c.lease.map Lease.value

def del (holder : ℕ) (c : Cell α) : Cell α :=
  match c.lease with
  | none => c
  | some l =>
    if l.holder = holder then
      { c with lease := none, since := 0, released := holder :: c.released }
    else { c with lease := none, stolen := true }

/-- Leases exclude each other. -/
structure Sound (c : Cell α) : Prop where
  free : c.lease = none → c.since = 0
  once : c.since ≤ 1
  kept : c.stolen = false
  past : ∀ holder ∈ c.released, holder < c.serial

/-- The holder's lease stands, unless it has expired or been released. -/
def Owns (holder expiresAt : ℕ) (c : Cell α) : Prop :=
  expiresAt ≤ c.now ∨ holder ∈ c.released ∨
    ∃ l, c.lease = some l ∧ l.holder = holder ∧ l.expiresAt = expiresAt

section Rules
variable {c : Cell α} {holder other expiresAt elapsed ttl : ℕ} {value : α}

@[simp] theorem tick_now : (c.tick elapsed).now = c.now + elapsed := by
  unfold tick
  split <;> rfl

@[simp] theorem tick_serial : (c.tick elapsed).serial = c.serial := by
  unfold tick
  split <;> rfl

@[simp] theorem tick_released : (c.tick elapsed).released = c.released := by
  unfold tick
  split <;> rfl

theorem sound_empty : (empty : Cell α).Sound := ⟨fun _ => rfl, Nat.zero_le 1, rfl, by simp [empty]⟩

theorem Sound.tick (h : c.Sound) (elapsed : ℕ) : (c.tick elapsed).Sound := by
  unfold Cell.tick
  split
  · exact ⟨fun _ => rfl, Nat.zero_le 1, h.kept, h.past⟩
  · exact ⟨h.free, h.once, h.kept, h.past⟩

theorem Sound.set (h : c.Sound) (hFree : c.lease = none) : (c.set value ttl).Sound := by
  refine ⟨?_, ?_, h.kept, ?_⟩
  · intro hNone
    cases hNone
  · have hZero := h.free hFree
    simp only [Cell.set]
    omega
  · intro holder hMem
    exact (h.past holder hMem).trans (Nat.lt_succ_self _)

/-- A `DEL` of no lease or of one's own. -/
theorem Sound.del (h : c.Sound) (hPast : holder < c.serial)
    (hOwn : ∀ l, c.lease = some l → l.holder = holder) : (c.del holder).Sound := by
  unfold Cell.del
  split
  · exact h
  · rename_i l hLease
    rw [if_pos (hOwn l hLease)]
    refine ⟨fun _ => rfl, Nat.zero_le 1, h.kept, ?_⟩
    intro other hMem
    rcases List.mem_cons.mp hMem with rfl | hOld
    · exact hPast
    · exact h.past other hOld

theorem Owns.tick (h : c.Owns holder expiresAt) (elapsed : ℕ) :
    (c.tick elapsed).Owns holder expiresAt := by
  rcases h with hExpired | hReleased | ⟨l, hLease, hHolder, hAt⟩
  · left
    rw [tick_now]
    omega
  · right; left
    rwa [tick_released]
  · by_cases hLate : l.expiresAt ≤ c.now + elapsed
    · left
      rw [tick_now]
      omega
    · right; right
      refine ⟨l, ?_, hHolder, hAt⟩
      rw [Cell.tick, hLease, if_neg (by simpa using hLate)]

theorem owns_set : (c.set value ttl).Owns c.serial (c.now + ttl) := .inr (.inr ⟨_, rfl, rfl, rfl⟩)

theorem Owns.set (h : c.Owns holder expiresAt) (hFree : c.lease = none) :
    (c.set value ttl).Owns holder expiresAt := by
  rcases h with hExpired | hReleased | ⟨l, hLease, -, -⟩
  · exact .inl hExpired
  · exact .inr (.inl hReleased)
  · rw [hFree] at hLease
    cases hLease

theorem del_serial : (c.del holder).serial = c.serial := by
  unfold Cell.del
  split
  · rfl
  · split <;> rfl

theorem released_del (h : other ∉ c.released) (hNe : other ≠ holder) :
    other ∉ (c.del holder).released := by
  unfold Cell.del
  split
  · exact h
  · split
    · simp [hNe, h]
    · exact h

/-- Another's `DEL` of no lease or of its own. -/
theorem Owns.del (h : c.Owns other expiresAt) (hOwn : ∀ l, c.lease = some l → l.holder = holder)
    (hNe : other ≠ holder) : (c.del holder).Owns other expiresAt := by
  unfold Cell.del
  split
  · exact h
  · rename_i l hLease
    rw [if_pos (hOwn l hLease)]
    rcases h with hExpired | hReleased | ⟨l', hLease', hHolder, -⟩
    · exact .inl hExpired
    · exact .inr (.inl (List.mem_cons_of_mem holder hReleased))
    · exact absurd (hHolder.symm.trans (hOwn l' hLease')) hNe

/-- One's own `DEL`. -/
theorem Owns.del_self (h : c.Owns holder expiresAt) : (c.del holder).Owns holder expiresAt := by
  rcases h with hExpired | hReleased | ⟨l, hLease, hHolder, -⟩
  · left
    unfold Cell.del
    split
    · exact hExpired
    · split <;> exact hExpired
  · right; left
    unfold Cell.del
    split
    · exact hReleased
    · split
      · exact List.mem_cons_of_mem holder hReleased
      · exact hReleased
  · right; left
    rw [Cell.del, hLease]
    simp [hHolder]

/-- In time and not released before, a holder finds its own lease or none. -/
theorem Owns.holder_eq (h : c.Owns holder expiresAt)
    (hTimely : c.lease = none ∨ c.now < expiresAt ∧ holder ∉ c.released) :
    ∀ l, c.lease = some l → l.holder = holder := by
  intro l hLease
  rcases hTimely with hFree | ⟨hTime, hNot⟩
  · rw [hFree] at hLease
    cases hLease
  · rcases h with hExpired | hReleased | ⟨l', hLease', hHolder, -⟩
    · omega
    · exact absurd hReleased hNot
    · rw [hLease', Option.some.injEq] at hLease
      rw [← hLease]
      exact hHolder

end Rules

end Cell

end FarmBackend.Leases
