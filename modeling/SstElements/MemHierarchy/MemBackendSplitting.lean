import SstElements.MemHierarchy.MemBackendLinked

/-!
# Splitting of events and their answers

An event of `size` bytes is split into `numRequests w size` requests of width
`w`.  Offsets and counters are 32-bit words; `FitsOffset` says that the offset
does not wrap on the way.  `Tracked` is the invariant: the counters of every
object agree with what was issued for its event and is outstanding.
-/

namespace SstElements.MemHierarchy

open Library Nat

section Arithmetic

/-- The number of requests of width `w` for `size` bytes. -/
def numRequests (w size : Nat) : Nat := max 1 ((size + w - 1) / w)

/-- The offset of the last request, and the one after it, are 32-bit words. -/
def FitsOffset (w size : Nat) : Prop := (0 < w ∨ size = 0) ∧ numRequests w size * w < 2 ^ 32
deriving Decidable

theorem numRequests_pos (w size : Nat) : 0 < numRequests w size :=
  lt_of_lt_of_le Nat.one_pos (le_max_left _ _)

variable {w size k : Nat}

section

variable (h : FitsOffset w size)
include h

theorem size_le_iff (hk : 0 < k) : size ≤ k * w ↔ numRequests w size ≤ k := by
  unfold numRequests
  rcases h.1 with hw | rfl
  · rw [max_le_iff, div_le_iff_le_mul_add_pred hw]
    constructor
    · intro hle
      rw [mul_comm] at hle
      exact ⟨hk, by omega⟩
    · rintro ⟨-, hle⟩
      rw [mul_comm]
      omega
  · have hdiv : (0 + w - 1) / w = 0 := by
      rcases Nat.eq_zero_or_pos w with rfl | hw
      · simp
      · exact div_eq_of_lt (by omega)
    rw [hdiv]
    simp only [zero_le, max_eq_left, true_iff]
    exact hk

theorem mul_lt_size (hk : k < numRequests w size) : k * w < size ∨ k = 0 := by
  rcases Nat.eq_zero_or_pos k with rfl | hpos
  · exact .inr rfl
  · left
    have hnot := (size_le_iff h hpos).not.2 (not_le.2 hk)
    exact not_le.1 hnot

theorem mul_lt_word (hk : k ≤ numRequests w size) : k * w < 2 ^ 32 :=
  lt_of_le_of_lt (mul_le_mul_right w hk) h.2

theorem numRequests_lt_word : numRequests w size < 2 ^ 32 := by
  rcases Nat.eq_zero_or_pos w with rfl | hw
  · simp [numRequests]
  · exact lt_of_le_of_lt (Nat.le_mul_of_pos_right _ hw) h.2

theorem covers_iff (hk : k ≤ numRequests w size) :
    (0 < k ∧ ∀ b < size, ∃ i < k, i * w ≤ b ∧ b < (i + 1) * w) ↔ k = numRequests w size := by
  constructor
  · rintro ⟨hpos, hcov⟩
    refine le_antisymm hk ((size_le_iff h hpos).1 ?_)
    by_contra hlt
    obtain ⟨i, hi, -, hend⟩ := hcov (k * w) (not_le.1 hlt)
    exact absurd hend (not_lt.2 (mul_le_mul_right w hi))
  · rintro rfl
    have hpos := numRequests_pos w size
    refine ⟨hpos, ?_⟩
    intro b hb
    have hw : 0 < w := h.1.resolve_right (by omega)
    have hle := (size_le_iff h hpos).2 le_rfl
    refine ⟨b / w, ?_, div_mul_le_self b w, ?_⟩
    · exact (Nat.div_lt_iff_lt_mul hw).2 (lt_of_lt_of_le hb hle)
    · rw [Nat.succ_mul]
      exact lt_div_mul_add hw

end

theorem ReqId.pack_toNat (reqId offset : UInt32) :
    (ReqId.pack reqId offset).toNat = reqId.toNat * 2 ^ 32 + offset.toNat := by
  have ho : offset.toNat < 2 ^ 32 := UInt32.toNat_lt offset
  have hr : reqId.toNat < 2 ^ 32 := UInt32.toNat_lt reqId
  have hshift : reqId.toNat <<< 32 = reqId.toNat * 2 ^ 32 := Nat.shiftLeft_eq _ _
  simp only [ReqId.pack, UInt64.toNat_or, UInt64.toNat_shiftLeft, UInt32.toNat_toUInt64]
  calc reqId.toNat <<< ((32 : UInt64).toNat % 64) % 2 ^ 64 ||| offset.toNat
      = reqId.toNat <<< 32 ||| offset.toNat := by
        have hlt : reqId.toNat <<< 32 < 2 ^ 64 := by omega
        exact congrArg (· ||| offset.toNat) (mod_eq_of_lt hlt)
    _ = reqId.toNat <<< 32 + offset.toNat := (shiftLeft_add_eq_or_of_lt ho _).symm
    _ = reqId.toNat * 2 ^ 32 + offset.toNat := by rw [hshift]

@[simp] theorem ReqId.getBaseId_pack (reqId offset : UInt32) :
    (ReqId.pack reqId offset).getBaseId = reqId := by
  have ho : offset.toNat < 2 ^ 32 := UInt32.toNat_lt offset
  have hr : reqId.toNat < 2 ^ 32 := UInt32.toNat_lt reqId
  rw [← UInt32.toNat_inj, ReqId.getBaseId, UInt64.toNat_toUInt32,
    UInt64.toNat_shiftRight, ReqId.pack_toNat, shiftRight_eq_div_pow]
  have h32 : (32 : UInt64).toNat % 64 = 32 := by decide
  rw [h32]
  omega

end Arithmetic

section Parts

variable (w : UInt32)

namespace Handed

/-- The number of requests that are issued for an event. -/
def parts : Handed → Nat
  | mem ev => numRequests w.toNat ev.size_.toNat
  | custom _ _ _ => 1

/-- The offset of the event does not wrap. -/
def Fits : Handed → Prop
  | mem ev => FitsOffset w.toNat ev.size_.toNat
  | custom _ _ _ => True

/-- The `i`-th request issued for an event. -/
def part (reqId : UInt32) (i : Nat) : Handed → Issue
  | mem ev =>
    { evId := ev.eventID_
      reqId := ReqId.pack reqId (UInt32.ofNat (i * w.toNat))
      addr := some (ev.baseAddr_ + UInt64.ofNat (i * w.toNat))
      isWrite := ev.cmd_ = .PutM || ev.cmd_ = .Write }
  | custom _ evId _ =>
    { evId := evId, reqId := ReqId.pack reqId 0, addr := none, isWrite := false }

@[simp] theorem getBaseId_part (reqId : UInt32) (i : Nat) (h : Handed) :
    (h.part w reqId i).reqId.getBaseId = reqId := by
  cases h <;> simp [part]

theorem parts_pos (h : Handed) : 0 < h.parts w := by
  cases h with
  | mem ev =>
    exact numRequests_pos _ _
  | custom info evId rqstr =>
    exact Nat.one_pos

theorem part_reqId_inj {w : UInt32} {h : Handed} {reqId : UInt32} {i j : Nat} (hfits : h.Fits w)
    (hi : i < h.parts w) (hj : j < h.parts w)
    (heq : (h.part w reqId i).reqId = (h.part w reqId j).reqId) :
    i = j := by
  cases h with
  | mem ev =>
    have hnat := congrArg UInt64.toNat heq
    have hi' := mul_lt_word hfits (le_of_lt hi)
    have hj' := mul_lt_word hfits (le_of_lt hj)
    simp only [part, ReqId.pack_toNat, UInt32.toNat_ofNat_of_lt' hi',
      UInt32.toNat_ofNat_of_lt' hj'] at hnat
    rcases hfits.1 with hw | hsize
    · exact eq_of_mul_eq_mul_right hw (add_left_cancel hnat)
    · rcases mul_lt_size hfits hi with hlt | rfl
      · omega
      · rcases mul_lt_size hfits hj with hlt | rfl
        · omega
        · rfl
  | custom info evId rqstr =>
    simp only [parts, Nat.lt_one_iff] at hi hj
    rw [hi, hj]

end Handed

/-- The counters of an object after `k` issues, `m` of them outstanding. -/
def BaseReq.Progress (k m : Nat) : BaseReq → Prop
  | .mem r => r.m_offset.toNat = k * w.toNat ∧ r.m_numReq.toNat = m
  | .custom _ => True

variable {w} {k m : Nat} {r : BaseReq}

section

variable (h : r.Progress w k m)
include h

theorem BaseReq.Progress.issue_eq : r.issue = r.handed.part w r.m_reqId k := by
  cases r with
  | mem r =>
    obtain ⟨hoff, -⟩ := h
    have hoff32 : UInt32.ofNat (k * w.toNat) = r.m_offset := by rw [← hoff, UInt32.ofNat_toNat]
    have hoff64 : UInt64.ofNat (k * w.toNat) = r.m_offset.toUInt64 := by
      rw [← hoff]
      exact UInt64.ofNat_uInt32ToNat _
    simp only [BaseReq.issue, BaseReq.handed, BaseReq.m_reqId, Handed.part,
      MemReq.id, MemReq.addr, MemReq.isWrite, hoff32, hoff64]
  | custom r =>
    rfl

theorem BaseReq.Progress.increment (hfits : r.handed.Fits w)
    (hk : k < r.handed.parts w) (hm : m ≤ k) :
    (r.increment w).Progress w (k + 1) (m + 1) := by
  cases r with
  | mem r =>
    obtain ⟨hoff, hnum⟩ := h
    have hlt : (k + 1) * w.toNat < 2 ^ 32 := mul_lt_word hfits hk
    have hn : numRequests w.toNat r.m_event.size_.toNat < 2 ^ 32 := numRequests_lt_word hfits
    have hk' : k < numRequests w.toNat r.m_event.size_.toNat := hk
    rw [Nat.succ_mul] at hlt
    refine ⟨?_, ?_⟩
    · show (r.m_offset + w).toNat = (k + 1) * w.toNat
      rw [UInt32.toNat_add, hoff, Nat.succ_mul, mod_eq_of_lt hlt]
    · show (r.m_numReq + 1).toNat = m + 1
      rw [UInt32.toNat_add, hnum]
      exact mod_eq_of_lt (show m + 1 < 2 ^ 32 by omega)
  | custom r =>
    exact trivial

theorem BaseReq.Progress.issueDone_iff (hfits : r.handed.Fits w)
    (hk : 0 < k) (hle : k ≤ r.handed.parts w) :
    r.issueDone = true ↔ k = r.handed.parts w := by
  cases r with
  | mem r =>
    obtain ⟨hoff, -⟩ := h
    have hsize := size_le_iff (w := w.toNat) hfits hk
    simp only [BaseReq.issueDone, MemReq.issueDone, decide_eq_true_eq,
      UInt32.le_iff_toNat_le, hoff, hsize]
    exact ⟨fun hge => le_antisymm hle hge, fun heq => heq.ge⟩
  | custom r =>
    simp only [BaseReq.issueDone, BaseReq.handed, Handed.parts, true_iff] at hle ⊢
    omega

theorem BaseReq.Progress.decrement (hm : 0 < m) : r.decrement.Progress w k (m - 1) := by
  cases r with
  | mem r =>
    obtain ⟨hoff, hnum⟩ := h
    refine ⟨hoff, ?_⟩
    show (r.m_numReq - 1).toNat = m - 1
    have hle : (1 : UInt32) ≤ r.m_numReq := by
      rw [UInt32.le_iff_toNat_le, hnum]
      exact hm
    rw [UInt32.toNat_sub_of_le _ _ hle, hnum]
    rfl
  | custom r =>
    exact trivial

theorem BaseReq.Progress.isDone_iff (hfits : r.handed.Fits w)
    (hm : 0 < m) (hmk : m ≤ k) (hle : k ≤ r.handed.parts w) :
    r.decrement.isDone = true ↔ k = r.handed.parts w ∧ m = 1 := by
  cases r with
  | mem r =>
    have hdec := h.decrement hm
    have hdone := h.issueDone_iff hfits (by omega) hle
    obtain ⟨-, hnum⟩ := hdec
    have hzero : (MemReq.decrement r).m_numReq = 0 ↔ m = 1 := by
      rw [← UInt32.toNat_inj, hnum]
      simp only [UInt32.toNat_zero]
      omega
    rw [← hdone, ← hzero]
    simp [BaseReq.decrement, BaseReq.isDone, BaseReq.issueDone,
      MemReq.isDone, MemReq.issueDone, MemReq.decrement]
  | custom r =>
    simp only [BaseReq.decrement, BaseReq.isDone, BaseReq.handed, Handed.parts, true_iff] at hle ⊢
    omega

end

end Parts

end SstElements.MemHierarchy
