import SstElements.MemHierarchy.MemBackendSplitting

/-!
# The backend convertor of a scratchpad

`ScratchBackendConvertor` is an older relative of `MemBackendConvertor`: it has
the same request objects, no flushes and no custom commands.  Its clock takes a
request from the queue as soon as `processed` has reached the width of the
backend, which is after the first part of any request.

`ScratchRun` puts the convertor between a scratchpad and a backend that answers
each accepted request once, at any time after the call that issued it.
-/

namespace SstElements.MemHierarchy

open Library List Option Function

/-- The state of the convertor; request objects live in a heap. -/
structure ScratchBackendConvertor where
  m_backendRequestWidth : UInt32
  m_reqId : UInt32
  heap : Nat → Option MemReq
  nextPtr : Nat
  m_requestQueue : List Nat
  m_pendingRequests : OrderedMap UInt32 Nat

namespace ScratchBackendConvertor

/-- `isWrite`: unlike in the other convertor, also for a noncacheable `GetX`. -/
def isWrite (r : MemReq) : Bool :=
  r.m_event.cmd_ = .PutM ||
    (r.m_event.queryFlag MemEvent.F_NONCACHEABLE && r.m_event.cmd_ = .GetX)

def processed (r : MemReq) : UInt32 := r.m_offset

/-- The arguments with which a request object is issued. -/
def issue (r : MemReq) : Issue :=
  { evId := r.m_event.eventID_, reqId := r.id, addr := some r.addr, isWrite := isWrite r }

/-- A convertor without requests. -/
def new (width : UInt32) : ScratchBackendConvertor :=
  { m_backendRequestWidth := width, m_reqId := 0, heap := fun _ => none,
    nextPtr := 0, m_requestQueue := [], m_pendingRequests := .empty }

variable (c : ScratchBackendConvertor)

/-- `setupMemReq`, which is all that `handleMemEvent` does besides counting. -/
def setupMemReq (ev : MemEvent) : ScratchBackendConvertor :=
  let id := c.m_reqId + 1
  { c with
    m_reqId := id
    heap := update c.heap c.nextPtr (some (MemReq.new ev id))
    nextPtr := c.nextPtr + 1
    m_requestQueue := c.m_requestQueue ++ [c.nextPtr]
    m_pendingRequests := c.m_pendingRequests.insert id c.nextPtr }

/-- The state after the backend accepted the front request. -/
def issued (ptr : Nat) (rest : List Nat) (req : MemReq) : ScratchBackendConvertor :=
  let req' := req.increment c.m_backendRequestWidth
  { c with
    heap := update c.heap ptr (some req')
    m_requestQueue :=
      if c.m_backendRequestWidth ≤ processed req' then rest else ptr :: rest }

/--
The loop of `clock`.  `backend` tells which of the next calls of `issue` the
backend accepts; it refuses when the list ends.
-/
def clockLoop (maxReqPerCycle : Int) :
    List Bool → Nat → ScratchBackendConvertor →
      Option (List Issue × ScratchBackendConvertor)
  | backend, reqsThisCycle, c =>
    match c.m_requestQueue with
    | [] => some ([], c)
    | ptr :: rest =>
      if (reqsThisCycle : Int) = maxReqPerCycle then some ([], c)
      else
        match c.heap ptr, backend with
        | none, _ => none
        | some _, [] => some ([], c)
        | some _, false :: _ => some ([], c)
        | some req, true :: more =>
          (clockLoop maxReqPerCycle more (reqsThisCycle + 1) (c.issued ptr rest req)).map
            (fun r => (issue req :: r.1, r.2))

/-- `clock`: the accepted requests and the next state. -/
def clock (maxReqPerCycle : Int) (backend : List Bool) :
    Option (List Issue × ScratchBackendConvertor) :=
  clockLoop maxReqPerCycle backend 0 c

/-- The event that a finished request tells of, if it wants a response. -/
def notified (ev : MemEvent) : Option Nat :=
  if ev.queryFlag MemEvent.F_NORESPONSE then none else some ev.eventID_

/-- `doResponse`: the event to notify and the next state. -/
def doResponse (reqId : ReqId) : Option (Option Nat × ScratchBackendConvertor) :=
  let id := reqId.getBaseId
  match c.m_pendingRequests.find? id with
  | none => none
  | some ptr =>
    match (c.heap ptr).map MemReq.decrement with
    | none => none
    | some req =>
      if req.isDone then
        some (notified req.m_event,
          { c with
            m_pendingRequests := c.m_pendingRequests.erase id
            heap := update c.heap ptr none })
      else some (none, { c with heap := update c.heap ptr (some req) })

end ScratchBackendConvertor

/-- A convertor, its backend's obligations, and history. -/
structure ScratchRun where
  conv : ScratchBackendConvertor
  handed : List MemEvent
  issued : List Issue
  outstanding : List Issue
  responses : List Nat

/-- What can happen at a convertor. -/
inductive ScratchOp where
  | memEvent (ev : MemEvent)
  | clock (maxReqPerCycle : Int) (backend : List Bool)
  | respond (i : Issue)
deriving Repr

namespace ScratchRun

open ScratchBackendConvertor (issue)

/-- Nothing handed over yet. -/
def start (width : UInt32) : ScratchRun :=
  { conv := .new width, handed := [], issued := [], outstanding := [], responses := [] }

def ids (s : ScratchRun) : List Nat := s.handed.map MemEvent.eventID_

def width (s : ScratchRun) : UInt32 := s.conv.m_backendRequestWidth

/-- The requests issued for an event, in order. -/
def issuedTo (s : ScratchRun) (x : Nat) : List Issue := s.issued.filter (·.evId = x)

/-- The requests of an event that the backend still has to answer. -/
def outstandingTo (s : ScratchRun) (x : Nat) : List Issue := s.outstanding.filter (·.evId = x)

/-- One step; identifiers of events are not used twice. -/
def step (s : ScratchRun) : ScratchOp → Option ScratchRun
  | .memEvent ev =>
    if ev.eventID_ ∈ s.ids then none
    else some { s with conv := s.conv.setupMemReq ev, handed := s.handed ++ [ev] }
  | .clock maxReqPerCycle backend =>
    (s.conv.clock maxReqPerCycle backend).map (fun r =>
      { s with
        conv := r.2
        issued := s.issued ++ r.1
        outstanding := s.outstanding ++ r.1 })
  | .respond i =>
    if i ∈ s.outstanding then
      (s.conv.doResponse i.reqId).map (fun r =>
        { s with
          conv := r.2
          outstanding := s.outstanding.erase i
          responses := s.responses ++ r.1.toList })
    else none

section Effects

variable (s : ScratchRun)

/-- A request object was made for an event. -/
def afterEvent (ev : MemEvent) : ScratchRun :=
  { s with conv := s.conv.setupMemReq ev, handed := s.handed ++ [ev] }

/-- The front request was issued. -/
def afterIssue (ptr : Nat) (rest : List Nat) (req : MemReq) : ScratchRun :=
  { s with
    conv := s.conv.issued ptr rest req
    issued := s.issued ++ [issue req]
    outstanding := s.outstanding ++ [issue req] }

/-- The request of an event was answered, and its event is done. -/
def afterLast (i : Issue) (ptr : Nat) (ev : MemEvent) : ScratchRun :=
  { s with
    conv := { s.conv with
      m_pendingRequests := s.conv.m_pendingRequests.erase i.reqId.getBaseId
      heap := update s.conv.heap ptr none }
    outstanding := s.outstanding.erase i
    responses := s.responses ++ (ScratchBackendConvertor.notified ev).toList }

end Effects

section StepCases

variable {s t : ScratchRun}

theorem memEvent_cases {ev : MemEvent} (h : s.step (.memEvent ev) = some t) :
    ev.eventID_ ∉ s.ids ∧ t = s.afterEvent ev := by
  simp only [step] at h
  split at h
  · cases h
  · exact ⟨by assumption, (some.inj h).symm⟩

theorem clock_induction {P : ScratchRun → Prop}
    (hissue : ∀ (u : ScratchRun) ptr rest req, P u →
      u.conv.m_requestQueue = ptr :: rest → u.conv.heap ptr = some req →
      P (u.afterIssue ptr rest req))
    {maxReqPerCycle : Int} {backend : List Bool}
    (h : s.step (.clock maxReqPerCycle backend) = some t) (hs : P s) :
    P t := by
  simp only [step, ScratchBackendConvertor.clock, map_eq_some_iff] at h
  obtain ⟨⟨issues, conv⟩, hloop, rfl⟩ := h
  generalize (0 : Nat) = n at hloop
  generalize hconv : s.conv = c at hloop
  fun_induction ScratchBackendConvertor.clockLoop maxReqPerCycle backend n c
    generalizing s issues with
  | case3 => cases hloop
  | case6 n c ptr rest hqueue hlimit req more hreq ih =>
    subst hconv
    obtain ⟨⟨issues', conv'⟩, hrest, heq⟩ := map_eq_some_iff.1 hloop
    cases heq
    have hnext := ih (hissue s ptr rest req hs hqueue hreq) _ rfl hrest
    simpa [afterIssue] using hnext
  | _ =>
    subst hconv
    cases hloop
    simpa using hs

end StepCases

section Tracking

variable {s t : ScratchRun}

/-- The request object that was made for an event, by the number of the event. -/
def made (x : MemEvent × Nat) : MemReq := MemReq.new x.1 (UInt32.ofNat (x.2 + 1))

/-- The only request that is issued for an event. -/
def part (x : MemEvent × Nat) : Issue := issue (made x)

/--
The numbered events are at the backend, finished or in the queue; each was
issued once, and the objects of the unfinished ones are known.
-/
structure Tracked (s : ScratchRun) (waiting finished queued : List (MemEvent × Nat)) :
    Prop where
  ids_nodup : s.ids.Nodup
  fits : ∀ ev ∈ s.handed, ev.size_ ≤ s.width
  next : s.conv.nextPtr = s.handed.length
  number : s.conv.m_reqId = UInt32.ofNat s.handed.length
  split : s.handed.zipIdx.Perm (waiting ++ finished ++ queued)
  queue : s.conv.m_requestQueue = queued.map Prod.snd
  issued : s.issued.Perm ((waiting ++ finished).map part)
  outstanding : s.outstanding.Perm (waiting.map part)
  responses : s.responses =
    finished.filterMap fun x => ScratchBackendConvertor.notified x.1
  at_backend : ∀ x ∈ waiting, s.conv.heap x.2 = some ((made x).increment s.width)
  in_queue : ∀ x ∈ queued, s.conv.heap x.2 = some (made x)
  pending : ∀ x ∈ waiting ++ queued,
    s.conv.m_pendingRequests.find? (made x).m_reqId = some x.2

theorem tracked_start (width : UInt32) : Tracked (start width) [] [] [] := by
  constructor <;> simp [start, ids, ScratchBackendConvertor.new]

variable {waiting finished queued : List (MemEvent × Nat)} {x : MemEvent × Nat}

theorem Tracked.ptrs_nodup (h : Tracked s waiting finished queued) :
    ((waiting ++ finished ++ queued).map Prod.snd).Nodup := by
  refine (h.split.map Prod.snd).nodup_iff.1 ?_
  rw [zipIdx_map_snd]
  exact nodup_range'

theorem Tracked.afterEvent (h : Tracked s waiting finished queued) {ev : MemEvent}
    (hfresh : ev.eventID_ ∉ s.ids) (hsize : ev.size_ ≤ s.width)
    (hfree : s.conv.m_pendingRequests.find? (s.conv.m_reqId + 1) = none) :
    Tracked (s.afterEvent ev) waiting finished (queued ++ [(ev, s.handed.length)]) := by
  have hnum : s.conv.m_reqId + 1 = UInt32.ofNat (s.handed.length + 1) := by
    rw [h.number]
    exact (UInt32.ofNat_add _ 1).symm
  have hold : ∀ x ∈ waiting ++ finished ++ queued, x.2 ≠ s.conv.nextPtr := by
    intro x hx
    rw [h.next]
    exact (snd_lt_of_mem_zipIdx (h.split.mem_iff.2 hx)).ne
  exact { h with
    ids_nodup := by
      rw [ids, ScratchRun.afterEvent, map_append, ← ids]
      exact nodup_append.2 ⟨h.ids_nodup, nodup_singleton _, fun _ hx _ hy heq =>
        hfresh (mem_singleton.1 hy ▸ heq ▸ hx)⟩
    fits := by
      intro e he
      rcases mem_append.1 he with he | he
      · exact h.fits e he
      · exact mem_singleton.1 he ▸ hsize
    next := by simp [ScratchRun.afterEvent, ScratchBackendConvertor.setupMemReq, h.next]
    number := by
      simp [ScratchRun.afterEvent, ScratchBackendConvertor.setupMemReq, hnum]
    split := by
      rw [ScratchRun.afterEvent, zipIdx_append, ← append_assoc, zero_add]
      exact h.split.append_right _
    queue := by
      simp [ScratchRun.afterEvent, ScratchBackendConvertor.setupMemReq, h.queue, h.next]
    at_backend := by
      intro x hx
      exact (update_of_ne (hold x (by simp [hx])) _ _).trans (h.at_backend x hx)
    in_queue := by
      intro x hx
      rcases mem_append.1 hx with hx | hx
      · exact (update_of_ne (hold x (by simp [hx])) _ _).trans (h.in_queue x hx)
      · rw [mem_singleton.1 hx, ← h.next]
        refine (update_self _ _ _).trans ?_
        rw [made, hnum, h.next]
    pending := by
      intro x hx
      show (s.conv.m_pendingRequests.insert _ _).find? _ = _
      rcases mem_append.1 (append_assoc .. ▸ hx) with hx | hx
      · have hfind := h.pending x hx
        rw [OrderedMap.find?_insert_of_ne _ _ fun heq => by simp [heq, hfree] at hfind]
        exact hfind
      · rw [mem_singleton.1 hx, hnum, h.next]
        exact OrderedMap.find?_insert_self _ _ _ }

theorem Tracked.afterIssue (h : Tracked s waiting finished (x :: queued))
    {ptr : Nat} {rest : List Nat} {req : MemReq} (hqueue : s.conv.m_requestQueue = ptr :: rest)
    (hptr : s.conv.heap ptr = some req) :
    Tracked (s.afterIssue ptr rest req) (x :: waiting) finished queued := by
  obtain ⟨rfl, rfl⟩ := List.cons.inj (hqueue.symm.trans h.queue)
  obtain rfl := some.inj (hptr.symm.trans (h.in_queue x mem_cons_self))
  have hnodup := h.ptrs_nodup
  have hmoved : (x :: waiting ++ finished ++ queued).Perm (waiting ++ finished ++ x :: queued) :=
    perm_middle.symm
  have hother : ∀ y ∈ waiting ++ finished ++ queued, y.2 ≠ x.2 := by
    intro y hy
    have hcons := nodup_cons.1 ((hmoved.map Prod.snd).nodup_iff.2 hnodup)
    exact fun heq => hcons.1 (heq ▸ mem_map_of_mem hy)
  exact { h with
    split := h.split.trans hmoved.symm
    queue := by
      simp [ScratchRun.afterIssue, ScratchBackendConvertor.issued,
        ScratchBackendConvertor.processed, MemReq.increment, made, MemReq.new]
    issued := perm_append_comm.trans (h.issued.cons (part x))
    outstanding := perm_append_comm.trans (h.outstanding.cons (part x))
    at_backend := by
      intro y hy
      rcases mem_cons.1 hy with rfl | hy
      · exact update_self _ _ _
      · exact (update_of_ne (hother y (by simp [hy])) _ _).trans (h.at_backend y hy)
    in_queue := by
      intro y hy
      exact (update_of_ne (hother y (by simp [hy])) _ _).trans
        (h.in_queue y (mem_cons_of_mem x hy))
    pending := fun y hy => h.pending y (perm_middle.mem_iff.2 hy) }

theorem getBaseId_part (x : MemEvent × Nat) : (part x).reqId.getBaseId = (made x).m_reqId :=
  ReqId.getBaseId_pack _ 0

/-- An answer finds the request object, which is then done. -/
theorem Tracked.doResponse_part (h : Tracked s waiting finished queued) (hx : x ∈ waiting) :
    s.conv.doResponse (part x).reqId =
      some (ScratchBackendConvertor.notified x.1, (s.afterLast (part x) x.2 x.1).conv) := by
  have hev : x.1 ∈ s.handed := by
    have := mem_map_of_mem (f := Prod.fst) (h.split.mem_iff.2 (by simp [hx] : x ∈ _))
    rwa [zipIdx_map_fst] at this
  have hdone : ((made x).increment s.width).decrement.isDone = true := by
    simp [MemReq.isDone, MemReq.decrement, MemReq.increment, made, MemReq.new, h.fits x.1 hev]
  have hfind := h.pending x (mem_append_left _ hx)
  simp only [ScratchBackendConvertor.doResponse, getBaseId_part, hfind, h.at_backend x hx,
    Option.map_some, hdone, if_true]
  simp [ScratchRun.afterLast, getBaseId_part, MemReq.decrement, MemReq.increment, made, MemReq.new]

theorem Tracked.afterLast (h : Tracked s (x :: waiting) finished queued) :
    Tracked (s.afterLast (part x) x.2 x.1) waiting (finished ++ [x]) queued := by
  have hmoved : (waiting ++ (finished ++ [x])).Perm (x :: waiting ++ finished) := by
    rw [← append_assoc]
    exact perm_append_singleton x _
  have hother : ∀ y ∈ waiting ++ queued, y.2 ≠ x.2 := by
    intro y hy heq
    refine (nodup_cons.1 h.ptrs_nodup).1 (heq ▸ mem_map_of_mem ?_)
    rcases mem_append.1 hy with hy | hy <;> simp [hy]
  exact { h with
    split := h.split.trans (hmoved.symm.append_right queued)
    issued := h.issued.trans (hmoved.symm.map part)
    outstanding := by
      refine (h.outstanding.erase (part x)).trans ?_
      simp
    responses := by
      show s.responses ++ _ = _
      rw [h.responses, filterMap_append, filterMap_cons, filterMap_nil]
      cases ScratchBackendConvertor.notified x.1 <;> rfl
    at_backend := by
      intro y hy
      exact (update_of_ne (hother y (by simp [hy])) _ _).trans
        (h.at_backend y (mem_cons_of_mem x hy))
    in_queue := by
      intro y hy
      exact (update_of_ne (hother y (by simp [hy])) _ _).trans (h.in_queue y hy)
    pending := by
      intro y hy
      have hfind := h.pending y (mem_cons_of_mem x hy)
      show (s.conv.m_pendingRequests.erase _).find? _ = _
      rw [getBaseId_part, OrderedMap.find?_erase_of_ne _ fun heq => hother y hy ?_]
      · exact hfind
      · rw [heq, h.pending x mem_cons_self] at hfind
        exact (some.inj hfind).symm }

/-- The condition on a step: the event fits and its request number is free. -/
def Fits (s : ScratchRun) : ScratchOp → Prop
  | .memEvent ev =>
    ev.size_ ≤ s.width ∧ s.conv.m_pendingRequests.find? (s.conv.m_reqId + 1) = none
  | _ => True

theorem Tracked.perm_waiting (h : Tracked s waiting finished queued)
    {waiting' : List (MemEvent × Nat)} (hperm : waiting.Perm waiting') :
    Tracked s waiting' finished queued :=
  { h with
    split := h.split.trans ((hperm.append_right _).append_right _)
    issued := h.issued.trans ((hperm.append_right _).map part)
    outstanding := h.outstanding.trans (hperm.map part)
    at_backend := fun x hx => h.at_backend x (hperm.mem_iff.2 hx)
    pending := fun x hx => h.pending x ((hperm.append_right queued).mem_iff.2 hx) }

def Accounted (s : ScratchRun) : Prop :=
  ∃ waiting finished queued, Tracked s waiting finished queued

/-- Every operation keeps account of the requests. -/
theorem accounted_step {op : ScratchOp} (hs : Accounted s) (hfits : Fits s op)
    (h : s.step op = some t) :
    Accounted t := by
  cases op with
  | memEvent ev =>
    obtain ⟨waiting, finished, queued, hs⟩ := hs
    obtain ⟨hfresh, rfl⟩ := memEvent_cases h
    exact ⟨_, _, _, hs.afterEvent hfresh hfits.1 hfits.2⟩
  | clock maxReqPerCycle backend =>
    refine clock_induction ?_ h hs
    rintro u ptr rest req ⟨waiting, finished, queued, hu⟩ hqueue hptr
    cases queued with
    | nil => exact absurd (hqueue.symm.trans hu.queue) (by simp)
    | cons x queued => exact ⟨_, _, _, hu.afterIssue hqueue hptr⟩
  | respond i =>
    obtain ⟨waiting, finished, queued, hs⟩ := hs
    simp only [step] at h
    split at h
    case isFalse => cases h
    case isTrue hi =>
      obtain ⟨x, hx, rfl⟩ := mem_map.1 (hs.outstanding.mem_iff.1 hi)
      rw [hs.doResponse_part hx] at h
      cases h
      exact ⟨_, _, _, (hs.perm_waiting (perm_cons_erase hx)).afterLast⟩

end Tracking

section Main

variable {s t : ScratchRun}

/-- The requests issued for an event cover all its bytes. -/
def Covered (s : ScratchRun) (ev : MemEvent) : Prop :=
  0 < (s.issuedTo ev.eventID_).length ∧
    ∀ b < ev.size_.toNat, ∃ i < (s.issuedTo ev.eventID_).length,
      i * s.width.toNat ≤ b ∧ b < (i + 1) * s.width.toNat

/--
What the scratchpad is promised.  Requests of an event start at its base
address, one width apart, each but the first below its end, with different
identifiers; the event stays in the queue until they cover it.  Once they do
and are all answered, it has been answered, exactly once if it wants a response.
Every answer of the backend is accepted.
-/
structure AnsweredOnce (s : ScratchRun) : Prop where
  in_order : ∀ ev ∈ s.handed,
    (s.issuedTo ev.eventID_).map Issue.addr =
        (range (s.issuedTo ev.eventID_).length).map (fun i =>
          some (ev.baseAddr_ + UInt64.ofNat (i * s.width.toNat))) ∧
      ∀ i < (s.issuedTo ev.eventID_).length,
        i * s.width.toNat < ev.size_.toNat ∨ i = 0
  distinct : ∀ ev ∈ s.handed, ((s.issuedTo ev.eventID_).map Issue.reqId).Nodup
  leaves_queue : ∀ ev ∈ s.handed,
    (∀ p ∈ s.conv.m_requestQueue, ∀ r, s.conv.heap p = some r → r.m_event ≠ ev) →
      Covered s ev
  once : ∀ ev ∈ s.handed, s.responses.count ev.eventID_ ≤ 1 ∧
    (s.responses.count ev.eventID_ = 1 ↔
      ev.queryFlag MemEvent.F_NORESPONSE = false ∧ Covered s ev ∧
        s.outstandingTo ev.eventID_ = [])
  accepted : ∀ i ∈ s.outstanding, (s.conv.doResponse i.reqId).isSome

section Places

variable {waiting finished queued : List (MemEvent × Nat)} {x : MemEvent × Nat}

section

variable (h : Tracked s waiting finished queued)
include h

theorem Tracked.eq_of_id {y : MemEvent × Nat}
    (hx : x ∈ waiting ++ finished ++ queued) (hy : y ∈ waiting ++ finished ++ queued)
    (hid : y.1.eventID_ = x.1.eventID_) :
    y = x := by
  have hnodup : (s.handed.zipIdx.map (MemEvent.eventID_ ∘ Prod.fst)).Nodup := by
    rw [← List.map_map, zipIdx_map_fst]
    exact h.ids_nodup
  exact inj_on_of_nodup_map hnodup (h.split.mem_iff.2 hy) (h.split.mem_iff.2 hx) hid

variable {l : List (MemEvent × Nat)}

theorem Tracked.nodup (hl : l.Sublist (waiting ++ finished ++ queued)) :
    l.Nodup :=
  (Nodup.of_map _ h.ptrs_nodup).sublist hl

section

variable (hx : x ∈ waiting ++ finished ++ queued)
include hx

theorem Tracked.filter_perm {issues : List Issue} (hl : l.Sublist (waiting ++ finished ++ queued))
    (hperm : issues.Perm (l.map part)) :
    issues.filter (·.evId = x.1.eventID_) = if x ∈ l then [part x] else [] := by
  have hsame : l.filter ((fun i => decide (i.evId = x.1.eventID_)) ∘ part) =
      l.filter (· == x) := by
    refine filter_congr fun y hy => ?_
    have hiff : y.1.eventID_ = x.1.eventID_ ↔ y = x :=
      ⟨h.eq_of_id hx (hl.subset hy), fun heq => heq ▸ rfl⟩
    rw [Bool.eq_iff_iff, beq_iff_eq]
    exact decide_eq_true_iff.trans hiff
  have hfilter := hperm.filter (·.evId = x.1.eventID_)
  rw [List.filter_map, hsame, filter_beq, (h.nodup hl).count] at hfilter
  split at hfilter
  case isTrue hmem => exact (if_pos hmem).symm ▸ hfilter.eq_singleton
  case isFalse hmem => exact (if_neg hmem).symm ▸ hfilter.eq_nil

theorem Tracked.issuedTo_eq :
    s.issuedTo x.1.eventID_ = if x ∈ waiting ++ finished then [part x] else [] :=
  h.filter_perm hx (sublist_append_left _ _) h.issued

theorem Tracked.outstandingTo_eq :
    s.outstandingTo x.1.eventID_ = if x ∈ waiting then [part x] else [] :=
  h.filter_perm hx (append_assoc .. ▸ sublist_append_left _ _) h.outstanding

theorem Tracked.count_responses :
    s.responses.count x.1.eventID_ =
      if x ∈ finished ∧ x.1.queryFlag MemEvent.F_NORESPONSE = false then 1 else 0 := by
  have hsub : finished.Sublist (waiting ++ finished ++ queued) :=
    (sublist_append_right _ _).trans (sublist_append_left _ _)
  rw [h.responses, count_filterMap]
  cases hflag : x.1.queryFlag MemEvent.F_NORESPONSE with
  | true =>
    rw [if_neg (by simp), countP_eq_zero]
    intro y hy heq
    rw [beq_iff_eq, ScratchBackendConvertor.notified] at heq
    split at heq
    · cases heq
    · rename_i hwants
      rw [h.eq_of_id hx (hsub.subset hy) (some.inj heq)] at hwants
      exact hwants hflag
  | false =>
    have hsame : finished.countP
        (fun y => ScratchBackendConvertor.notified y.1 == some x.1.eventID_) =
          finished.count x := by
      refine countP_congr fun y hy => ?_
      rw [beq_iff_eq, beq_iff_eq]
      constructor
      · intro heq
        rw [ScratchBackendConvertor.notified] at heq
        split at heq
        · cases heq
        · exact h.eq_of_id hx (hsub.subset hy) (some.inj heq)
      · rintro rfl
        rw [ScratchBackendConvertor.notified, if_neg (by simp [hflag])]
    rw [hsame, (h.nodup hsub).count]
    simp

end

end

end Places

theorem answeredOnce_of_accounted (h : Accounted s) : AnsweredOnce s := by
  obtain ⟨waiting, finished, queued, h⟩ := h
  have hplace : ∀ ev ∈ s.handed, ∃ p, (ev, p) ∈ waiting ++ finished ++ queued := by
    intro ev hev
    rw [← zipIdx_map_fst 0 s.handed] at hev
    obtain ⟨⟨_, p⟩, hp, rfl⟩ := mem_map.1 hev
    exact ⟨p, h.split.mem_iff.1 hp⟩
  have hcovered : ∀ ev ∈ s.handed, ∀ p, (ev, p) ∈ waiting ++ finished ++ queued →
      (Covered s ev ↔ (ev, p) ∈ waiting ++ finished) := by
    intro ev hev p hp
    rw [Covered, h.issuedTo_eq hp]
    by_cases hmem : (ev, p) ∈ waiting ++ finished
    · have hsize : ev.size_.toNat ≤ s.width.toNat := UInt32.le_iff_toNat_le.1 (h.fits ev hev)
      rw [if_pos hmem]
      exact iff_of_true ⟨Nat.one_pos, fun b hb => ⟨0, Nat.one_pos, by simp, by omega⟩⟩ hmem
    · rw [if_neg hmem]
      exact iff_of_false (fun hcov => absurd hcov.1 (by simp)) hmem
  constructor
  case in_order =>
    intro ev hev
    obtain ⟨p, hp⟩ := hplace ev hev
    rw [h.issuedTo_eq hp]
    split <;> simp [part, issue, made, MemReq.new, MemReq.addr]
  case distinct =>
    intro ev hev
    obtain ⟨p, hp⟩ := hplace ev hev
    rw [h.issuedTo_eq hp]
    split <;> simp
  case leaves_queue =>
    intro ev hev hgone
    obtain ⟨p, hp⟩ := hplace ev hev
    refine (hcovered ev hev p hp).2 ((mem_append.1 hp).resolve_right fun hq => ?_)
    have hmem : p ∈ s.conv.m_requestQueue := by
      rw [h.queue]
      exact mem_map_of_mem hq
    exact hgone p hmem _ (h.in_queue _ hq) rfl
  case once =>
    intro ev hev
    obtain ⟨p, hp⟩ := hplace ev hev
    have hcount := h.count_responses hp
    have hout := h.outstandingTo_eq hp
    have hapart := disjoint_of_nodup_append (h.nodup (sublist_append_left _ _))
    rw [hcovered ev hev p hp, hcount, hout]
    refine ⟨by split <;> omega, ?_⟩
    by_cases hw : (ev, p) ∈ waiting
    · have hnot : (ev, p) ∉ finished := fun hf => hapart hw hf
      simp [hw, hnot]
    · simp [hw, and_comm]
  case accepted =>
    intro i hi
    obtain ⟨x, hx, rfl⟩ := mem_map.1 (h.outstanding.mem_iff.1 hi)
    simp [h.doResponse_part hx]

/--
In every run in which every event fits in one request of the backend and gets a
request number that is free, events are issued exactly and answered once.
-/
theorem answeredOnce_of_fits {width : UInt32} {ops : List ScratchOp}
    (hfits : StepsMeet step Fits (start width) ops)
    (hrun : runOps step (start width) ops = some t) :
    AnsweredOnce t :=
  answeredOnce_of_accounted
    (runOps_invariant_of_stepsMeet (fun _ _ _ => accounted_step)
      ⟨_, _, _, tracked_start width⟩ hfits hrun)

/-- Two events of at most four bytes, the second answered first. -/
theorem answeredOnce_of_fits_two_events :
    ∃ t, runOps step (start 4)
        [.memEvent { MemEvent.new 1 "cpu" 8 8 .GetS with size_ := 4 },
          .memEvent { MemEvent.new 2 "cpu" 16 16 .GetX with size_ := 3 },
          .clock (-1) [true, true], .respond ⟨2, 0x200000000, some 16, false⟩,
          .respond ⟨1, 0x100000000, some 8, false⟩] = some t ∧
      t.responses = [2, 1] ∧ AnsweredOnce t := by
  have hmap : (runOps step (start 4)
        [.memEvent { MemEvent.new 1 "cpu" 8 8 .GetS with size_ := 4 },
          .memEvent { MemEvent.new 2 "cpu" 16 16 .GetX with size_ := 3 },
          .clock (-1) [true, true], .respond ⟨2, 0x200000000, some 16, false⟩,
          .respond ⟨1, 0x100000000, some 8, false⟩]).map responses = some [2, 1] := by
    decide +kernel
  obtain ⟨t, hrun, hans⟩ := map_eq_some_iff.1 hmap
  refine ⟨t, hrun, hans, answeredOnce_of_fits ?_ hrun⟩
  refine ⟨⟨by decide, rfl⟩, fun _ h => ?_⟩
  cases h
  exact ⟨⟨by decide, by decide +kernel⟩, fun _ _ => ⟨trivial, fun _ _ =>
    ⟨trivial, fun _ _ => ⟨trivial, fun _ _ => trivial⟩⟩⟩⟩

/-- An event of two bytes leaves the queue after its first byte was issued. -/
theorem not_answeredOnce_two_bytes :
    ¬ ∀ (width : UInt32) (ops : List ScratchOp) (t : ScratchRun),
        runOps step (start width) ops = some t → AnsweredOnce t := by
  intro h
  have hmap : (runOps step (start 1)
        [.memEvent { MemEvent.new 1 "cpu" 0 0 .GetS with size_ := 2 },
          .clock (-1) [true, true]]).map
        (fun t => (t.handed, t.conv.m_requestQueue, (t.issuedTo 1).length, t.width)) =
      some ([{ MemEvent.new 1 "cpu" 0 0 .GetS with size_ := 2 }], [], 1, 1) := by
    decide +kernel
  obtain ⟨t, hrun, heq⟩ := map_eq_some_iff.1 hmap
  simp only [Prod.mk.injEq] at heq
  obtain ⟨hhanded, hqueue, hlen, hwidth⟩ := heq
  have hcov := (h _ _ t hrun).leaves_queue { MemEvent.new 1 "cpu" 0 0 .GetS with size_ := 2 }
    (by rw [hhanded]; exact mem_singleton_self _) (by simp [hqueue])
  obtain ⟨i, hi, hlo, hhi⟩ := hcov.2 1 (by decide)
  change i < (t.issuedTo 1).length at hi
  rw [hwidth] at hhi
  obtain rfl : i = 0 := by omega
  exact absurd hhi (by decide)

end Main

end ScratchRun
end SstElements.MemHierarchy
