import SstElements.MemHierarchy.MemBackendSplitting

/-!
# Every event is answered once

`Tracked` ties every request object to the requests that were issued for its
event and to those that the backend still has to answer.  Under `SplitSafe` it
holds in every state of a run, and `AnsweredExactly` follows from it.
-/

namespace SstElements.MemHierarchy

open Library Function List Option

namespace ConvertorRun

/-- The requests issued for an event, in order. -/
def issuedTo (s : ConvertorRun) (x : Nat) : List Issue :=
  s.issued.filter (fun i => decide (i.evId = x))

/-- How many requests of an event the backend has to answer. -/
def outstandingTo (s : ConvertorRun) (x : Nat) : Nat :=
  s.outstanding.countP (fun i => decide (i.evId = x))

def width (s : ConvertorRun) : UInt32 := s.conv.m_backendRequestWidth

/-- What was issued for an object and what is outstanding. -/
structure Tracks (s : ConvertorRun) (p : Nat) (r : BaseReq) (k : Nat) : Prop where
  issued : s.issuedTo r.evId =
    (range k).map (fun i => r.handed.part s.width r.m_reqId i)
  le_parts : k ≤ r.handed.parts s.width
  progress : r.Progress s.width k (s.outstandingTo r.evId)
  outstanding_le : s.outstandingTo r.evId ≤ k
  queued : p ∈ s.conv.m_requestQueue ↔ k < r.handed.parts s.width
  active : k < r.handed.parts s.width ∨ 0 < s.outstandingTo r.evId

/-- The objects agree with the history of their events. -/
structure Tracked (s : ConvertorRun) : Prop where
  pending : ∀ p r, s.conv.heap p = some r →
    s.conv.m_pendingRequests.find? r.m_reqId = some p
  queue_live : ∀ p ∈ s.conv.m_requestQueue, ∃ r, s.conv.heap p = some r
  queue_nodup : s.conv.m_requestQueue.Nodup
  fits : ∀ h ∈ s.handed, h.isFlush = false → h.Fits s.width
  tracks : ∀ p r, s.conv.heap p = some r → ∃ k, s.Tracks p r k
  outstanding : ∀ i ∈ s.outstanding, ∃ p r, s.conv.heap p = some r ∧
    r.evId = i.evId ∧ r.m_reqId = i.reqId.getBaseId
  finished : ∀ h ∈ s.handed, h.isFlush = false → h.id ∈ s.answered →
    s.outstandingTo h.id = 0 ∧ ∃ reqId, s.issuedTo h.id =
      (range (h.parts s.width)).map (fun i => h.part s.width reqId i)
  unknown : ∀ x, x ∉ s.ids → s.issuedTo x = [] ∧ s.outstandingTo x = 0

/--
The offset of a new event does not wrap, and the next request number is not in
use.
-/
def SplitSafe (s : ConvertorRun) : ConvertorOp → Prop
  | .memEvent ev =>
    ev.isFlush = false →
      FitsOffset s.width.toNat ev.size_.toNat ∧
        s.conv.m_pendingRequests.find? (s.conv.m_reqId + 1) = none
  | .customEvent _ _ _ =>
    s.conv.m_pendingRequests.find? (s.conv.m_reqId + 1) = none
  | _ => True

section Views

variable {s t : ConvertorRun}

theorem issue_evId (req : BaseReq) : req.issue.evId = req.evId := by
  cases req <;> rfl

theorem m_reqId_increment (bytes : UInt32) (req : BaseReq) :
    (req.increment bytes).m_reqId = req.m_reqId := by
  cases req <;> rfl

theorem m_reqId_decrement (req : BaseReq) : req.decrement.m_reqId = req.m_reqId := by
  cases req <;> rfl

theorem issuedTo_afterIssue (ptr : Nat) (rest : List Nat) (req : BaseReq) (x : Nat) :
    (s.afterIssue ptr rest req).issuedTo x =
      if req.evId = x then s.issuedTo x ++ [req.issue] else s.issuedTo x := by
  simp only [issuedTo, afterIssue, filter_append, filter_cons,
    filter_nil, issue_evId, decide_eq_true_eq]
  split <;> simp

theorem outstandingTo_afterIssue (ptr : Nat) (rest : List Nat) (req : BaseReq) (x : Nat) :
    (s.afterIssue ptr rest req).outstandingTo x =
      s.outstandingTo x + if req.evId = x then 1 else 0 := by
  simp [outstandingTo, afterIssue, countP_append, countP_cons, issue_evId]

theorem outstandingTo_of_erase {i : Issue} (hi : i ∈ s.outstanding)
    (ht : t.outstanding = s.outstanding.erase i) (x : Nat) :
    t.outstandingTo x + (if i.evId = x then 1 else 0) = s.outstandingTo x := by
  have hperm := (perm_cons_erase hi).countP_eq (fun i => decide (i.evId = x))
  simp only [outstandingTo, ht, hperm, countP_cons, decide_eq_true_eq]

theorem outstandingTo_pos {i : Issue} (hi : i ∈ s.outstanding) : 0 < s.outstandingTo i.evId :=
  countP_pos_iff.2 ⟨i, hi, by simp⟩

end Views

section Steps

variable {s t : ConvertorRun}

theorem tracked_start (width : UInt32) : Tracked (start width) := by
  constructor <;>
    simp [start, answered, issuedTo, outstandingTo, MemBackendConvertor.new]

theorem Tracks.congr {p : Nat} {r : BaseReq} {k : Nat} (h : s.Tracks p r k)
    (hwidth : t.width = s.width) (hissued : t.issuedTo r.evId = s.issuedTo r.evId)
    (hout : t.outstandingTo r.evId = s.outstandingTo r.evId)
    (hqueue : p ∈ t.conv.m_requestQueue ↔ p ∈ s.conv.m_requestQueue) :
    t.Tracks p r k := by
  constructor
  · rw [hissued, hwidth]
    exact h.issued
  · rw [hwidth]
    exact h.le_parts
  · rw [hwidth, hout]
    exact h.progress
  · rw [hout]
    exact h.outstanding_le
  · rw [hwidth, hqueue]
    exact h.queued
  · rw [hwidth, hout]
    exact h.active

variable {ptr : Nat} {req : BaseReq} {i : Issue} {dependent : OrderedMap Nat (List MemEvent)}

section

variable (h : Tracked s)
include h

theorem Tracked.update (ho : Owned s) {u : BaseReq}
    (hptr : s.conv.heap ptr = some req) (hheap : t.conv.heap = update s.conv.heap ptr (some u))
    (hid : u.m_reqId = req.m_reqId) (hev : u.evId = req.evId)
    (hpending : t.conv.m_pendingRequests = s.conv.m_pendingRequests) (hwidth : t.width = s.width)
    (hhanded : t.handed = s.handed) (hresp : t.responses = s.responses)
    (hqueue : ∀ p, p ≠ ptr → (p ∈ t.conv.m_requestQueue ↔ p ∈ s.conv.m_requestQueue))
    (hnodup : t.conv.m_requestQueue.Nodup)
    (hother : ∀ x, x ≠ req.evId →
      t.issuedTo x = s.issuedTo x ∧ t.outstandingTo x = s.outstandingTo x)
    (hnew : ∃ k, t.Tracks ptr u k)
    (hout : ∀ i ∈ t.outstanding, i ∈ s.outstanding ∨
      (i.evId = req.evId ∧ i.reqId.getBaseId = req.m_reqId)) :
    Tracked t := by
  have hold : ∀ p r, t.conv.heap p = some r →
      (p = ptr ∧ r = u) ∨ (p ≠ ptr ∧ s.conv.heap p = some r) := by
    intro p r hp
    rw [hheap, update_apply] at hp
    split at hp
    · rename_i hpp
      exact .inl ⟨hpp, (some.inj hp).symm⟩
    · rename_i hpp
      exact .inr ⟨hpp, hp⟩
  have hself : t.conv.heap ptr = some u := by simp [hheap]
  have hids : t.ids = s.ids := by simp [ids, hhanded]
  have hans : t.answered = s.answered := by simp [answered, hresp]
  have hreq := ho.live ptr req hptr
  constructor
  · intro p r hp
    rw [hpending]
    rcases hold p r hp with ⟨rfl, rfl⟩ | ⟨-, hp⟩
    · rw [hid]
      exact h.pending p req hptr
    · exact h.pending p r hp
  · intro p hp
    by_cases hpp : p = ptr
    · exact ⟨u, hpp ▸ hself⟩
    · obtain ⟨r, hr⟩ := h.queue_live p ((hqueue p hpp).1 hp)
      exact ⟨r, by simp [hheap, hpp, hr]⟩
  · exact hnodup
  · rw [hhanded, hwidth]
    exact h.fits
  · intro p r hp
    rcases hold p r hp with ⟨rfl, rfl⟩ | ⟨hne, hp⟩
    · exact hnew
    · obtain ⟨k, hk⟩ := h.tracks p r hp
      have hevne : r.evId ≠ req.evId := fun heq => hne (ho.live_inj p ptr r req hp hptr heq)
      obtain ⟨h₁, h₂⟩ := hother r.evId hevne
      exact ⟨k, hk.congr hwidth h₁ h₂ (hqueue p hne)⟩
  · intro i hi
    rcases hout i hi with hi | ⟨hie, hib⟩
    · obtain ⟨p, r, hp, hre, hrb⟩ := h.outstanding i hi
      by_cases hpp : p = ptr
      · subst hpp
        cases hptr.symm.trans hp
        exact ⟨p, u, hself, hev.trans hre, hid.trans hrb⟩
      · exact ⟨p, r, by simp [hheap, hpp, hp], hre, hrb⟩
    · exact ⟨ptr, u, hself, hev.trans hie.symm, hid.trans hib.symm⟩
  · intro a ha haf haa
    rw [hhanded] at ha
    rw [hans] at haa
    have hne : a.id ≠ req.evId := fun heq => hreq.2.2 (heq ▸ haa)
    obtain ⟨h₁, h₂⟩ := hother a.id hne
    rw [h₁, h₂, hwidth]
    exact h.finished a ha haf haa
  · intro x hx
    rw [hids] at hx
    have hne : x ≠ req.evId := by
      rintro rfl
      exact hx (by simpa using mem_ids hreq.1)
    obtain ⟨h₁, h₂⟩ := hother x hne
    rw [h₁, h₂]
    exact h.unknown x hx

theorem Tracked.afterIssue (ho : Owned s) {rest : List Nat}
    (hqueue : s.conv.m_requestQueue = ptr :: rest) (hptr : s.conv.heap ptr = some req) :
    Tracked (s.afterIssue ptr rest req) := by
  obtain ⟨hmem, hflush, -⟩ := ho.live ptr req hptr
  obtain ⟨k, hk⟩ := h.tracks ptr req hptr
  have hlt : k < req.handed.parts s.width := hk.queued.1 (by simp [hqueue])
  have hfits := h.fits _ hmem hflush
  have hprog := hk.progress.increment hfits hlt hk.outstanding_le
  have hdone := hprog.issueDone_iff (by simpa using hfits) (Nat.succ_pos k)
    (by simpa using hlt)
  rw [BaseReq.handed_increment] at hdone
  obtain ⟨hnot, hrest⟩ := nodup_cons.1 (hqueue ▸ h.queue_nodup)
  have hq : (s.afterIssue ptr rest req).conv.m_requestQueue =
      if (req.increment s.width).issueDone then rest else ptr :: rest := rfl
  have hev : (req.increment s.width).evId = req.evId := by
    rw [← BaseReq.handed_id, BaseReq.handed_increment, BaseReq.handed_id]
  refine h.update ho hptr (u := req.increment s.width) rfl
    (m_reqId_increment _ _) hev rfl rfl rfl rfl ?_ ?_ ?_ ?_ ?_
  · intro p hp
    rw [hq, hqueue]
    split <;> simp [hp]
  · rw [hq]
    split
    · exact hrest
    · exact nodup_cons.2 ⟨hnot, hrest⟩
  · intro x hx
    rw [issuedTo_afterIssue, outstandingTo_afterIssue, if_neg hx.symm, if_neg hx.symm]
    exact ⟨rfl, rfl⟩
  · refine ⟨k + 1, ?_⟩
    have hout : (s.afterIssue ptr rest req).outstandingTo
        (req.increment s.width).evId = s.outstandingTo req.evId + 1 := by
      rw [hev, outstandingTo_afterIssue, if_pos rfl]
    constructor
    · rw [hev, issuedTo_afterIssue, if_pos rfl, hk.issued,
        BaseReq.handed_increment, m_reqId_increment, range_succ, map_append, hk.progress.issue_eq]
      rfl
    · rw [BaseReq.handed_increment]
      exact hlt
    · rw [hout]
      exact hprog
    · rw [hout]
      exact Nat.succ_le_succ hk.outstanding_le
    · rw [hq, BaseReq.handed_increment]
      by_cases hlast : k + 1 = req.handed.parts s.width
      · rw [if_pos (hdone.2 hlast)]
        exact iff_of_false hnot hlast.ge.not_gt
      · rw [if_neg (fun hd => hlast (hdone.1 hd))]
        exact iff_of_true (by simp) (lt_of_le_of_ne hlt hlast)
    · rw [hout]
      exact .inr (Nat.succ_pos _)
  · intro i hi
    rcases mem_append.1 hi with hi | hi
    · exact .inl hi
    · obtain rfl := mem_singleton.1 hi
      refine .inr ⟨issue_evId req, ?_⟩
      rw [hk.progress.issue_eq, Handed.getBaseId_part]

theorem Tracked.object_of_outstanding (hi : i ∈ s.outstanding)
    (hpend : s.conv.m_pendingRequests.find? i.reqId.getBaseId = some ptr)
    (hptr : s.conv.heap ptr = some req) : i.evId = req.evId := by
  obtain ⟨p, r, hp, hre, hrb⟩ := h.outstanding i hi
  have hfind := h.pending p r hp
  rw [hrb, hpend] at hfind
  cases hfind
  cases hptr.symm.trans hp
  exact hre.symm

theorem Tracked.afterPart (ho : Owned s) (hi : i ∈ s.outstanding)
    (hpend : s.conv.m_pendingRequests.find? i.reqId.getBaseId = some ptr)
    (hptr : s.conv.heap ptr = some req) (hdone : req.decrement.isDone = false) :
    Tracked (s.afterPart i ptr req) := by
  have hie := h.object_of_outstanding hi hpend hptr
  obtain ⟨hmem, hflush, -⟩ := ho.live ptr req hptr
  obtain ⟨k, hk⟩ := h.tracks ptr req hptr
  have hpos : 0 < s.outstandingTo req.evId := hie ▸ outstandingTo_pos hi
  have hout : ∀ x, (s.afterPart i ptr req).outstandingTo x +
      (if i.evId = x then 1 else 0) = s.outstandingTo x :=
    outstandingTo_of_erase hi rfl
  have hself : (s.afterPart i ptr req).outstandingTo req.decrement.evId =
      s.outstandingTo req.evId - 1 := by
    have := hout req.evId
    rw [if_pos hie] at this
    rw [BaseReq.evId_decrement]
    omega
  refine h.update ho hptr (u := req.decrement) rfl (m_reqId_decrement req)
    (BaseReq.evId_decrement req) rfl rfl rfl rfl (fun _ _ => Iff.rfl)
    h.queue_nodup ?_ ?_ (fun j hj => .inl (mem_of_mem_erase hj))
  · intro x hx
    have := hout x
    rw [hie, if_neg hx.symm] at this
    exact ⟨rfl, this⟩
  · refine ⟨k, ?_⟩
    have hnot := (hk.progress.isDone_iff (h.fits _ hmem hflush) hpos
      hk.outstanding_le hk.le_parts).not.1 (by simp [hdone])
    have hle := hk.outstanding_le
    have hparts := hk.le_parts
    constructor
    · rw [BaseReq.evId_decrement, BaseReq.handed_decrement, m_reqId_decrement]
      exact hk.issued
    · rw [BaseReq.handed_decrement]
      exact hparts
    · rw [hself]
      exact hk.progress.decrement hpos
    · rw [hself]
      omega
    · rw [BaseReq.handed_decrement]
      exact hk.queued
    · rw [hself, BaseReq.handed_decrement]
      by_cases hkp : k = req.handed.parts s.width
      · right
        omega
      · exact .inl (lt_of_le_of_ne hparts hkp)

theorem Tracked.afterLast (ho : Owned s) (hl : Linked s) {flags : UInt32} {flushes : List Response}
    {waiting : OrderedMap Nat (Finset Nat)} (hi : i ∈ s.outstanding)
    (hpend : s.conv.m_pendingRequests.find? i.reqId.getBaseId = some ptr)
    (hptr : s.conv.heap ptr = some req) (hdone : req.decrement.isDone = true)
    (heff : LastEffect s (s.afterLast i ptr req flags flushes waiting dependent) ptr req) :
    Tracked (s.afterLast i ptr req flags flushes waiting dependent) := by
  have hie := h.object_of_outstanding hi hpend hptr
  obtain ⟨hmem, hflush, hreqans⟩ := ho.live ptr req hptr
  obtain ⟨k, hk⟩ := h.tracks ptr req hptr
  have hpos : 0 < s.outstandingTo req.evId := hie ▸ outstandingTo_pos hi
  have hlast := (hk.progress.isDone_iff (h.fits _ hmem hflush) hpos
    hk.outstanding_le hk.le_parts).1 hdone
  have hnotq : ptr ∉ s.conv.m_requestQueue := by
    rw [hk.queued]
    exact hlast.1.ge.not_gt
  have hout : ∀ x, (s.afterLast i ptr req flags flushes waiting
      dependent).outstandingTo x + (if i.evId = x then 1 else 0) =
        s.outstandingTo x :=
    outstandingTo_of_erase hi rfl
  have hother : ∀ x, x ≠ req.evId → (s.afterLast i ptr req flags flushes
      waiting dependent).outstandingTo x = s.outstandingTo x := by
    intro x hx
    have := hout x
    rw [hie, if_neg hx.symm] at this
    exact this
  have hself : (s.afterLast i ptr req flags flushes waiting
      dependent).outstandingTo req.evId = 0 := by
    have := hout req.evId
    rw [if_pos hie, hlast.2] at this
    omega
  have hheap : ∀ p r, (s.afterLast i ptr req flags flushes waiting
      dependent).conv.heap p = some r → p ≠ ptr ∧ s.conv.heap p = some r := by
    intro p r hp
    rw [heff.heap, update_apply] at hp
    split at hp
    · cases hp
    · rename_i hne
      exact ⟨hne, hp⟩
  constructor
  · intro p r hp
    obtain ⟨hne, hp⟩ := hheap p r hp
    have hfind := h.pending p r hp
    show (s.conv.m_pendingRequests.erase i.reqId.getBaseId).find? r.m_reqId = _
    rw [OrderedMap.find?_erase_of_ne]
    · exact hfind
    · intro heq
      rw [heq, hpend] at hfind
      exact hne (some.inj hfind).symm
  · intro p hp
    obtain ⟨r, hr⟩ := h.queue_live p hp
    have hne : p ≠ ptr := by
      rintro rfl
      exact hnotq hp
    exact ⟨r, by simp [heff.heap, hne, hr]⟩
  · exact h.queue_nodup
  · exact h.fits
  · intro p r hp
    obtain ⟨hne, hp⟩ := hheap p r hp
    obtain ⟨k', hk'⟩ := h.tracks p r hp
    have hevne : r.evId ≠ req.evId := fun heq => hne (ho.live_inj p ptr r req hp hptr heq)
    exact ⟨k', hk'.congr rfl rfl (hother _ hevne) Iff.rfl⟩
  · intro j hj
    obtain ⟨p, r, hp, hre, hrb⟩ := h.outstanding j (mem_of_mem_erase hj)
    have hne : p ≠ ptr := by
      rintro rfl
      cases hptr.symm.trans hp
      have hpos' := outstandingTo_pos hj
      rw [← hre, hself] at hpos'
      exact absurd hpos' (lt_irrefl 0)
    exact ⟨p, r, by simp [heff.heap, hne, hp], hre, hrb⟩
  · intro a ha haf haa
    by_cases hid : a.id = req.evId
    · obtain rfl : a = req.handed := ho.eq_of_id ha hmem (by simpa using hid)
      rw [hid]
      have hfull := hk.issued
      rw [hlast.1] at hfull
      exact ⟨hself, req.m_reqId, hfull⟩
    · have hold : a.id ∈ s.answered := by
        by_contra hna
        exact heff.not_answered ho hl ha haf hid hna haa
      rw [hother a.id hid]
      exact h.finished a ha haf hold
  · intro x hx
    have hx' : x ∉ s.ids := hx
    have hne : x ≠ req.evId := by
      rintro rfl
      exact hx' (by simpa using mem_ids hmem)
    rw [hother x hne]
    exact h.unknown x hx'

theorem Tracked.afterRequest (ho : Owned s) {a : Handed} {make : UInt32 → BaseReq}
    (hmake : ∀ id, (make id).handed = a ∧ (make id).m_reqId = id ∧ (make id).Progress s.width 0 0)
    (hfits : a.Fits s.width) (hid : a.id ∉ s.ids)
    (hfree : s.conv.m_pendingRequests.find? (s.conv.m_reqId + 1) = none) :
    Tracked (s.afterRequest a make) := by
  have hev : (make (s.conv.m_reqId + 1)).evId = a.id := by rw [← BaseReq.handed_id, (hmake _).1]
  have hold : ∀ p r, s.conv.heap p = some r → p ≠ s.conv.nextPtr :=
    fun p r hp => (ho.allocated p r hp).ne
  have hheap : ∀ p r, s.conv.heap p = some r →
      (s.afterRequest a make).conv.heap p = some r := by
    intro p r hp
    simp [ConvertorRun.afterRequest, MemBackendConvertor.newRequest, hold p r hp, hp]
  have hself : (s.afterRequest a make).conv.heap s.conv.nextPtr =
      some (make (s.conv.m_reqId + 1)) := by
    simp [ConvertorRun.afterRequest, MemBackendConvertor.newRequest]
  have hcases : ∀ p r, (s.afterRequest a make).conv.heap p = some r →
      (p = s.conv.nextPtr ∧ r = make (s.conv.m_reqId + 1)) ∨
        (p ≠ s.conv.nextPtr ∧ s.conv.heap p = some r) := by
    intro p r hp
    simp only [ConvertorRun.afterRequest, MemBackendConvertor.newRequest, update_apply] at hp
    split at hp
    · rename_i hpp
      exact .inl ⟨hpp, (some.inj hp).symm⟩
    · rename_i hpp
      exact .inr ⟨hpp, hp⟩
  have hnotq : s.conv.nextPtr ∉ s.conv.m_requestQueue := by
    intro hmem
    obtain ⟨r, hr⟩ := h.queue_live _ hmem
    exact hold _ r hr rfl
  have hq : (s.afterRequest a make).conv.m_requestQueue =
      s.conv.m_requestQueue ++ [s.conv.nextPtr] := rfl
  obtain ⟨hissued, hout⟩ := h.unknown a.id hid
  constructor
  · intro p r hp
    show (s.conv.m_pendingRequests.insert (s.conv.m_reqId + 1) s.conv.nextPtr).find? r.m_reqId = _
    rcases hcases p r hp with ⟨rfl, rfl⟩ | ⟨-, hp⟩
    · rw [(hmake _).2.1, OrderedMap.find?_insert_self]
    · have hfind := h.pending p r hp
      rw [OrderedMap.find?_insert_of_ne]
      · exact hfind
      · intro heq
        rw [heq, hfree] at hfind
        cases hfind
  · intro p hp
    rw [hq, mem_append, mem_singleton] at hp
    rcases hp with hp | rfl
    · obtain ⟨r, hr⟩ := h.queue_live p hp
      exact ⟨r, hheap p r hr⟩
    · exact ⟨_, hself⟩
  · rw [hq]
    exact h.queue_nodup.append (nodup_singleton _)
      (disjoint_singleton.2 hnotq)
  · intro b hb hbf
    rcases mem_append.1 hb with hb | hb
    · exact h.fits b hb hbf
    · obtain rfl := mem_singleton.1 hb
      exact hfits
  · intro p r hp
    rcases hcases p r hp with ⟨rfl, rfl⟩ | ⟨hne, hp⟩
    · have hout' : (s.afterRequest a make).outstandingTo
          (make (s.conv.m_reqId + 1)).evId = 0 := by
        rw [hev]
        exact hout
      refine ⟨0, ?_, Nat.zero_le _, ?_, hout'.le, ?_, ?_⟩
      · rw [hev]
        exact hissued
      · rw [hout']
        exact (hmake _).2.2
      · rw [hq]
        exact iff_of_true (by simp) (Handed.parts_pos _ _)
      · exact .inl (Handed.parts_pos _ _)
    · obtain ⟨k, hk⟩ := h.tracks p r hp
      exact ⟨k, hk.congr rfl rfl rfl (by rw [hq]; simp [hne])⟩
  · intro i hi
    obtain ⟨p, r, hp, hre, hrb⟩ := h.outstanding i hi
    exact ⟨p, r, hheap p r hp, hre, hrb⟩
  · intro b hb hbf hba
    rcases mem_append.1 hb with hb | hb
    · exact h.finished b hb hbf hba
    · obtain rfl := mem_singleton.1 hb
      exact absurd (ho.answered_ids _ hba) hid
  · intro x hx
    refine h.unknown x fun hmem => hx ?_
    simp only [ids, ConvertorRun.afterRequest, map_append]
    exact mem_append_left _ hmem

theorem Tracked.afterFlush {ev : MemEvent} {deps : Finset Nat} (hflush : ev.isFlush = true)
    (hfresh : ev.eventID_ ∉ s.ids) : Tracked (s.afterFlush ev deps dependent) := by
  have hmem : ∀ a ∈ (s.afterFlush ev deps dependent).handed,
      a.isFlush = false → a ∈ s.handed := by
    intro a ha haf
    rcases mem_append.1 ha with ha | ha
    · exact ha
    · obtain rfl := mem_singleton.1 ha
      simp [Handed.isFlush, hflush] at haf
  constructor
  · exact h.pending
  · exact h.queue_live
  · exact h.queue_nodup
  · intro a ha haf
    exact h.fits a (hmem a ha haf) haf
  · intro p r hp
    obtain ⟨k, hk⟩ := h.tracks p r hp
    exact ⟨k, hk.congr rfl rfl rfl Iff.rfl⟩
  · exact h.outstanding
  · intro a ha haf haa
    have ha' := hmem a ha haf
    refine h.finished a ha' haf ?_
    rcases mem_answered_afterFlush haa with haa | heq
    · exact haa
    · exact absurd (heq ▸ mem_ids ha') hfresh
  · intro x hx
    refine h.unknown x fun hmem => hx ?_
    rw [ids_afterFlush]
    exact mem_append_left _ hmem

end

/-- Every operation keeps track of what is outstanding. -/
theorem tracked_step {op : ConvertorOp} (hs : (Owned s ∧ Linked s) ∧ Tracked s)
    (hsafe : SplitSafe s op) (h : s.step op = some t) :
    (Owned t ∧ Linked t) ∧ Tracked t := by
  obtain ⟨⟨ho, hl⟩, htr⟩ := hs
  refine ⟨owned_linked_step ⟨ho, hl⟩ h, ?_⟩
  cases op with
  | memEvent ev =>
    obtain ⟨hfresh, ⟨hflush, rfl⟩ | ⟨hflush, deps, dependent, hfind, rfl⟩⟩ := memEvent_cases h
    · obtain ⟨hfits, hfree⟩ := hsafe hflush
      exact htr.afterRequest ho
        (fun id => ⟨rfl, rfl, by simp [BaseReq.Progress, MemReq.new]⟩) hfits hfresh hfree
    · exact htr.afterFlush hflush hfresh
  | customEvent info evId rqstr =>
    obtain ⟨hfresh, rfl⟩ := customEvent_cases h
    exact htr.afterRequest ho (fun id => ⟨rfl, rfl, trivial⟩) trivial hfresh
      hsafe
  | clock maxReqPerCycle backend =>
    refine (clock_induction (P := fun u => Owned u ∧ Tracked u) ?_ h ⟨ho, htr⟩).2
    rintro u ptr rest req ⟨hou, hu⟩ hqueue hptr
    exact ⟨hou.afterIssue hptr, hu.afterIssue hou hqueue hptr⟩
  | respond i flags =>
    obtain ⟨hi, ptr, req, hpend, hptr, ⟨hdone, rfl⟩ |
        ⟨hdone, heff, flushes, waiting, dependent, rfl⟩⟩ :=
      respond_effect ho hl h
    · exact htr.afterPart ho hi hpend hptr hdone
    · exact htr.afterLast ho hl hi hpend hptr hdone heff

end Steps

section Main

variable {s t : ConvertorRun}

/--
What the controller is promised.  Requests of an event start at its base
address, `w` bytes apart, each but the first below its end, with different
identifiers.  An event is answered once, and it has been answered exactly if
its requests cover it and none of them is outstanding.  Every answer of the
backend is accepted.
-/
structure AnsweredExactly (s : ConvertorRun) : Prop where
  in_order : ∀ ev, .mem ev ∈ s.handed → ev.isFlush = false →
    (s.issuedTo ev.eventID_).map Issue.addr =
        (range (s.issuedTo ev.eventID_).length).map (fun i =>
          some (ev.baseAddr_ + UInt64.ofNat (i * s.width.toNat))) ∧
      ∀ i < (s.issuedTo ev.eventID_).length,
        i * s.width.toNat < ev.size_.toNat ∨ i = 0
  distinct : ∀ h ∈ s.handed, h.isFlush = false →
    ((s.issuedTo h.id).map Issue.reqId).Nodup
  once : ∀ ev, .mem ev ∈ s.handed → ev.isFlush = false →
    s.answered.count ev.eventID_ ≤ 1 ∧
      (s.answered.count ev.eventID_ = 1 ↔
        (0 < (s.issuedTo ev.eventID_).length ∧
          ∀ b < ev.size_.toNat, ∃ i < (s.issuedTo ev.eventID_).length,
            i * s.width.toNat ≤ b ∧ b < (i + 1) * s.width.toNat) ∧ s.outstandingTo ev.eventID_ = 0)
  custom_once : ∀ info evId rqstr, .custom info evId rqstr ∈ s.handed →
    (s.issuedTo evId).length ≤ 1 ∧ s.answered.count evId ≤ 1 ∧
      (s.answered.count evId = 1 ↔ (s.issuedTo evId).length = 1 ∧ s.outstandingTo evId = 0)
  accepted : ∀ i ∈ s.outstanding, ∀ flags,
    (s.conv.doResponse i.reqId flags).isSome = true

theorem Tracked.issued_prefix (h : Tracked s) (ho : Owned s) {a : Handed}
    (ha : a ∈ s.handed) (haf : a.isFlush = false) :
    ∃ reqId, ∃ k ≤ a.parts s.width, s.issuedTo a.id =
        (range k).map (fun i => a.part s.width reqId i) ∧
      (a.id ∈ s.answered ↔ k = a.parts s.width ∧ s.outstandingTo a.id = 0) := by
  by_cases hans : a.id ∈ s.answered
  · obtain ⟨hout, reqId, hissued⟩ := h.finished a ha haf hans
    exact ⟨reqId, _, le_rfl, hissued, iff_of_true hans ⟨rfl, hout⟩⟩
  · obtain ⟨p, r, hp, rfl⟩ := ho.unanswered a ha haf hans
    obtain ⟨k, hk⟩ := h.tracks p r hp
    rw [BaseReq.handed_id] at hans ⊢
    refine ⟨r.m_reqId, k, hk.le_parts, hk.issued, iff_of_false hans ?_⟩
    rintro ⟨heq, hzero⟩
    rcases hk.active with hlt | hpos
    · exact absurd heq hlt.ne
    · exact absurd hzero hpos.ne'

theorem Owned.count_eq_one_iff (ho : Owned s) (x : Nat) :
    s.answered.count x ≤ 1 ∧ (s.answered.count x = 1 ↔ x ∈ s.answered) := by
  have hle := nodup_iff_count_le_one.1 ho.answered_nodup x
  refine ⟨hle, ?_⟩
  rw [← count_pos_iff]
  omega

theorem Tracked.accepts (h : Tracked s) (hl : Linked s) {i : Issue} (hi : i ∈ s.outstanding)
    (flags : UInt32) :
    (s.conv.doResponse i.reqId flags).isSome = true := by
  obtain ⟨p, r, hp, -, hrb⟩ := h.outstanding i hi
  have hfind := h.pending p r hp
  rw [hrb] at hfind
  simp only [MemBackendConvertor.doResponse, hfind, hp, map_some]
  split
  · cases r with
    | custom r =>
      rfl
    | mem r =>
      simp only [BaseReq.decrement, MemBackendConvertor.respondMem]
      split
      · rfl
      · rename_i fs hfs
        have hflushes : flushesOf s.conv.m_dependentRequests
            r.m_event.eventID_ = fs := by
          simpa [flushesOf, MemReq.decrement] using congrArg (·.getD []) hfs
        have hsorted := hl.sorted r.m_event.eventID_
        rw [hflushes] at hsorted
        obtain ⟨w', hw', -⟩ := completeFlushes_spec
          (e := r.decrement.m_event.eventID_)
          (w := s.conv.m_waitingFlushes) hsorted (by
            intro f hf
            rw [← hflushes] at hf
            obtain ⟨hmem, hff⟩ := hl.flushes _ f hf
            obtain ⟨ds, hds, -⟩ := (hl.linked _ f hmem hff).1 hf
            simp [hds])
        simp only [hw', map_some, isSome_some]
  · rfl

theorem answeredExactly_of_tracked (ho : Owned s) (hl : Linked s) (h : Tracked s) :
    AnsweredExactly s := by
  constructor
  · intro ev hev hflush
    obtain ⟨reqId, k, hk, hissued, -⟩ := h.issued_prefix ho (a := .mem ev) hev hflush
    have hissued' : s.issuedTo ev.eventID_ = _ := hissued
    rw [hissued']
    constructor
    · simp [Handed.part, comp_def]
    · intro i hi
      rw [length_map, length_range] at hi
      exact mul_lt_size (h.fits _ hev hflush) (lt_of_lt_of_le hi hk)
  · intro a ha haf
    obtain ⟨reqId, k, hk, hissued, -⟩ := h.issued_prefix ho ha haf
    rw [hissued, List.map_map]
    refine List.Nodup.map_on ?_ nodup_range
    intro i hi j hj heq
    exact Handed.part_reqId_inj (h.fits _ ha haf)
      (lt_of_lt_of_le (mem_range.1 hi) hk)
      (lt_of_lt_of_le (mem_range.1 hj) hk) heq
  · intro ev hev hflush
    obtain ⟨reqId, k, hk, hissued, hans⟩ := h.issued_prefix ho (a := .mem ev) hev hflush
    obtain ⟨hle, hone⟩ := ho.count_eq_one_iff ev.eventID_
    have hlen : (s.issuedTo ev.eventID_).length = k := by
      have hlen' := congrArg length hissued
      rwa [length_map, length_range] at hlen'
    refine ⟨hle, ?_⟩
    rw [hone, hlen, covers_iff (h.fits _ hev hflush) hk]
    exact hans
  · intro info evId rqstr hmem
    obtain ⟨reqId, k, hk, hissued, hans⟩ :=
      h.issued_prefix ho (a := .custom info evId rqstr) hmem rfl
    obtain ⟨hle, hone⟩ := ho.count_eq_one_iff evId
    have hlen : (s.issuedTo evId).length = k := by
      have hlen' := congrArg length hissued
      rwa [length_map, length_range] at hlen'
    refine ⟨hlen ▸ hk, hle, ?_⟩
    rw [hone, hlen]
    exact hans
  · intro i hi flags
    exact h.accepts hl hi flags

/--
In every run in which no offset wraps and every new request number is free,
events are split exactly and answered once, and every answer of the backend is
accepted.
-/
theorem answeredExactly_of_splitSafe {width : UInt32} {ops : List ConvertorOp}
    (hsafe : StepsMeet step SplitSafe (start width) ops)
    (hrun : runOps step (start width) ops = some t) :
    AnsweredExactly t := by
  obtain ⟨⟨ho, hl⟩, htr⟩ :=
    runOps_invariant_of_stepsMeet
      (P := fun s => (Owned s ∧ Linked s) ∧ Tracked s)
      (fun _ _ _ hs hok hstep => tracked_step hs hok hstep)
      ⟨⟨owned_start width, linked_start width⟩, tracked_start width⟩ hsafe hrun
  exact answeredExactly_of_tracked ho hl htr

/-- Three bytes in requests of two, the first answered before the second is
issued. -/
theorem answeredExactly_of_splitSafe_three :
    ∃ t, runOps step (start 2)
        [.memEvent { MemEvent.new 1 "l1" 8 8 .GetS with size_ := 3 },
          .clock 1 [true],
          .respond ⟨1, 0x100000000, some 8, false⟩ 0,
          .clock 1 [false],
          .clock 1 [true], .respond ⟨1, 0x100000002, some 10, false⟩ 0] = some t ∧
      t.answered = [1] ∧ AnsweredExactly t := by
  have hmap : (runOps step (start 2)
        [.memEvent { MemEvent.new 1 "l1" 8 8 .GetS with size_ := 3 },
          .clock 1 [true],
          .respond ⟨1, 0x100000000, some 8, false⟩ 0,
          .clock 1 [false],
          .clock 1 [true], .respond ⟨1, 0x100000002, some 10, false⟩ 0]).map answered =
      some [1] := by
    decide +kernel
  obtain ⟨t, hrun, hans⟩ := map_eq_some_iff.1 hmap
  refine ⟨t, hrun, hans, answeredExactly_of_splitSafe ?_ hrun⟩
  refine ⟨fun _ => ⟨by decide +kernel, rfl⟩, fun _ _ => ⟨trivial, fun _ _ =>
    ⟨trivial, fun _ _ => ⟨trivial, fun _ _ => ⟨trivial, fun _ _ =>
      ⟨trivial, fun _ _ => trivial⟩⟩⟩⟩⟩⟩

/-- An offset that wraps to zero issues the first request again. -/
theorem wrapped_offset_repeats_request :
    ¬ ∀ (width : UInt32) (ops : List ConvertorOp) (t : ConvertorRun),
        runOps step (start width) ops = some t → AnsweredExactly t := by
  intro h
  have hmap : (runOps step (start 0x80000000)
        [.memEvent { MemEvent.new 1 "l1" 0 0 .GetS with size_ := 0x80000001 },
          .clock (-1) [true, true, true]]).map
        (fun t => (t.handed, (t.issuedTo 1).map Issue.reqId)) =
      some ([.mem { MemEvent.new 1 "l1" 0 0 .GetS with size_ := 0x80000001 }],
        [0x100000000, 0x180000000, 0x100000000]) := by
    decide +kernel
  obtain ⟨t, hrun, hpair⟩ := map_eq_some_iff.1 hmap
  obtain ⟨hhanded, hissued⟩ := Prod.mk.inj hpair
  have hdistinct := (h _ _ t hrun).distinct
    (.mem { MemEvent.new 1 "l1" 0 0 .GetS with size_ := 0x80000001 })
    (by rw [hhanded]; exact mem_singleton.2 rfl) (by decide)
  have hissued' : ((t.issuedTo 1).map Issue.reqId).Nodup := hdistinct
  rw [hissued] at hissued'
  exact absurd hissued' (by decide)

end Main

end ConvertorRun

end SstElements.MemHierarchy
