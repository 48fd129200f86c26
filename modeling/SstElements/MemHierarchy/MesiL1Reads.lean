import SstElements.MemHierarchy.MesiL1Lines

/-!
# Reads of an L1 coherence manager

A read is answered with the bytes of its line that it asks for.  `ReadView` is
what an answer depends on, and `AnswersRead` says that an answer is the right
one: it is given for the line of the address, has the bytes of the line, and is
queued as a response.

`intendedGetSX` is `handleGetSX` as its sibling handlers would have it: a hit
is answered as in `handleGetS`, and after a miss the line is looked up again as
in `handleGetX`.  The source differs from it in two cases, which `GetSXFails`
names.
-/

namespace SstElements.MemHierarchy

open Library Function List Option

/-- What the answer to a read depends on. -/
structure ReadView where
  ways : Addr → List Nat
  addr : Nat → Addr
  data : Nat → List UInt8
  answers : List Answer
  queued : List CoherenceController.Response
  config : MESIL1Config

namespace ReadView

/-- The way that holds an address. -/
def find (v : ReadView) (addr : Addr) : Option Nat :=
  (v.ways addr).find? (fun i => decide (v.addr i = addr))

/-- The bytes of a line that a request asks for. -/
def slice (v : ReadView) (i : Nat) (req : MemEvent) : List UInt8 :=
  ((v.data i).drop req.lineOffset).take req.size_.toNat

/-- The request is answered with the bytes that the line of the address has. -/
def AnswersRead (v w : ReadView) (addr : Addr) (req : MemEvent) : Prop :=
  ∃ i, w.find addr = some i ∧
    (w.slice i req).length = req.size_.toNat ∧
    w.answers = v.answers ++ [⟨req, some (w.slice i req), true⟩] ∧
    ∃ r ∈ w.queued, r.event =
      { req.makeResponse.setPayload (w.slice i req) with
        src_ := v.config.cachename_ }

theorem AnswersRead.of_eq {v v' w : ReadView} {addr : Addr} {req : MemEvent}
    (h : v.AnswersRead w addr req) (hanswers : v.answers = v'.answers)
    (hconfig : v.config = v'.config) :
    v'.AnswersRead w addr req := by
  obtain ⟨i, hfind, hlength, hgiven, hqueued⟩ := h
  rw [hanswers] at hgiven
  rw [hconfig] at hqueued
  exact ⟨i, hfind, hlength, hgiven, hqueued⟩

end ReadView

namespace MESIL1

variable {P : ReplacementPolicy}

/-- What the answer to a read depends on in a manager. -/
def readView (s : MESIL1 P) : ReadView :=
  { ways := fun addr => s.cacheArray_.waysOf (s.cacheArray_.setOf addr)
    addr := fun i => (s.cacheArray_.lines_ i).addr_
    data := fun i => (s.cacheArray_.lines_ i).data_
    answers := s.answers
    queued := s.outgoingEventQueueUp_ ++ s.outgoingEventQueueDown_
    config := s.config }

instance : KeptByManagement (Same (readView (P := P))) where

section Intended

/-- A hit of a `GetSX` that is answered as the other reads are. -/
def intendedHitGetSX (event : Nat) (ev : MemEvent) (line : Option Nat)
    (inMSHR : Bool) : L1M P Unit := do
  recordPrefetchResult line
  checkProfiled ev.baseAddr_ inMSHR
  modifyLine line (fun l => l.incLock)
  answerRequest ev line inMSHR true
  cleanUpAfterRequest event inMSHR

/-- What `handleGetSX` is to do: after a miss it looks the line up again. -/
def intendedGetSX (event : Nat) (inMSHR : Bool) : L1M P Bool := do
  let ev ← readEvent event
  let line ← lookup ev.baseAddr_ true
  let found ← stateOf line
  beginReplay ev.baseAddr_ inMSHR
  let state ← upgradeLastLevel line found
  match state with
  | .I => do
      let status ← processCacheMiss event line inMSHR
      runIf (status = .OK) (do
        let line ← lookup ev.baseAddr_ false
        issueMiss ev line none .IM false)
      pure (status ≠ .Reject)
  | .S => do
      let status ← processCacheMiss event line inMSHR
      runIf (status = .OK) (issueMiss ev line none .SM true)
      pure (status ≠ .Reject)
  | .E => do
      modifyLine line (fun l => l.setState .M)
      intendedHitGetSX event ev line inMSHR
      pure true
  | .M => do
      intendedHitGetSX event ev line inMSHR
      pure true
  | _ => stallInMshr event inMSHR

/-- `processEvent` with the intended `handleGetSX`. -/
def intendedRead (event : Nat) (inMSHR : Bool) : L1M P Bool := do
  let ev ← readEvent event
  if ev.cmd_ = .GetSX then intendedGetSX event inMSHR
  else processEvent event inMSHR

end Intended

section Requests

def lineState (s : MESIL1 P) (addr : Addr) : State :=
  (s.cacheArray_.findWay addr).elim .I (fun i => (s.cacheArray_.lines_ i).state_)

def IsCoreRead (cfg : MESIL1Config) (ev : MemEvent) : Prop :=
  (ev.cmd_ = .GetS ∨ ev.cmd_ = .GetSX) ∧ isLocalPrefetch cfg ev = false

/-- The line of the request can be read at once. -/
def ReadHit (s : MESIL1 P) (ev : MemEvent) : Prop :=
  match s.lineState ev.baseAddr_ with
  | .S => ev.cmd_ = .GetS ∨ s.config.lastLevel_ = true
  | .E | .M => True
  | _ => False

/-- What a miss is told: that it may go on, has to wait or is refused. -/
def missOutcome (event : Nat) (ev : MemEvent) (inMSHR : Bool) : L1M P MemEventStatus := do
  let line ← lookup ev.baseAddr_ true
  beginReplay ev.baseAddr_ inMSHR
  processCacheMiss event line inMSHR

/-- The miss gets an MSHR entry and a line. -/
def MissGoesOn (s : MESIL1 P) (event : Nat) (ev : MemEvent) (inMSHR : Bool) : Prop :=
  (missOutcome event ev inMSHR s).map Prod.fst = some .OK

/--
A `GetSX` that the handler cannot complete: a hit that asks for some bytes, or a
miss that was given a new line.
-/
def GetSXFails (s : MESIL1 P) (event : Nat) (ev : MemEvent) (inMSHR : Bool) : Prop :=
  ev.cmd_ = .GetSX ∧
    ((s.ReadHit ev ∧ ev.size_ ≠ 0) ∨
      (s.cacheArray_.findWay ev.baseAddr_ = none ∧ s.MissGoesOn event ev inMSHR))

/-- Where `forwardByAddress` sends an event. -/
def targetOf (cfg : MESIL1Config) (addr : Addr) : String :=
  if cfg.findTargetDestinationDown addr ≠ "" then
    cfg.findTargetDestinationDown addr
  else cfg.findTargetDestinationUp addr

/-- The request is forwarded for its line, which waits in a state. -/
def ForwardsRead (t : MESIL1 P) (ev : MemEvent) (x : State) : Prop :=
  ∃ i, t.cacheArray_.findWay ev.baseAddr_ = some i ∧
    (t.cacheArray_.lines_ i).state_ = x ∧
    ∃ r ∈ t.readView.queued,
      r.event = { ev with
        payload_ := [], size_ := t.config.lineSize_.toUInt32
        src_ := t.config.cachename_, dst_ := targetOf t.config ev.baseAddr_ }

/-- What a step makes of a read of the core. -/
structure ReadOutcome (s t : MESIL1 P) (event : Nat) (ev : MemEvent) (inMSHR : Bool) : Prop where
  hit : s.ReadHit ev →
    s.readView.AnswersRead t.readView ev.baseAddr_ ev ∧
      t.readView.data = s.readView.data
  other : ¬ s.ReadHit ev → t.answers = s.answers
  issued : s.lineState ev.baseAddr_ = .I → s.MissGoesOn event ev inMSHR →
    t.ForwardsRead ev (if ev.cmd_ = .GetS then .IS else .IM)

/-- What a response makes of the read that waits for it. -/
def ReadFilled (s t : MESIL1 P) (ev : MemEvent) : Prop :=
  ∀ p req, s.mshr_.getFrontEvent ev.baseAddr_ = some (some p) →
    s.heap p = some req → IsCoreRead s.config req →
      s.readView.AnswersRead t.readView ev.baseAddr_
        { req with memFlags_ := ev.memFlags_ }

def ServesRead (s : MESIL1 P) (event : Nat) (ev : MemEvent) (inMSHR : Bool) : Prop :=
  ∃ b t, processEvent event inMSHR s = some (b, t) ∧
    (IsCoreRead s.config ev → ReadOutcome s t event ev inMSHR) ∧
    (ev.cmd_ = .GetSResp ∨ ev.cmd_ = .GetXResp → ReadFilled s t ev)

end Requests

section Rules

variable {s : MESIL1 P} {line : Option Nat}

theorem find_readView (s : MESIL1 P) (addr : Addr) :
    s.readView.find addr = s.cacheArray_.findWay addr :=
  rfl

variable {addr : Addr} {Q : Unit → MESIL1 P → Prop} {event : MemEvent} {ts : SimTime}

theorem wlp_lookup_mgr {Q : Option Nat → MESIL1 P → Prop} {use : Bool}
    (h : ∀ mgr, Q (s.cacheArray_.findWay addr)
      { s with cacheArray_ := { s.cacheArray_ with replacementMgr_ := mgr } }) :
    wlp (lookup addr use) Q s := by
  refine wlp_stepState.2 fun a t hrun => ?_
  obtain ⟨⟨found, c⟩, hlook, heq⟩ := map_eq_some_iff.1 hrun
  cases heq
  unfold CacheArray.lookup at hlook
  cases hfind : s.cacheArray_.findWay addr with
  | none =>
    simp only [hfind, Option.some.injEq, Prod.mk.injEq] at hlook
    obtain ⟨rfl, rfl⟩ := hlook
    exact hfind ▸ h s.cacheArray_.replacementMgr_
  | some i =>
    simp only [hfind] at hlook
    split at hlook
    · obtain ⟨mgr, -, heq'⟩ := map_eq_some_iff.1 hlook
      cases heq'
      exact hfind ▸ h mgr
    · cases hlook
      exact hfind ▸ h s.cacheArray_.replacementMgr_

theorem lookup_false_run (s : MESIL1 P) (addr : Addr) :
    lookup addr false s = some (s.cacheArray_.findWay addr, s) := by
  have hlook : s.cacheArray_.lookup addr false =
      some (s.cacheArray_.findWay addr, s.cacheArray_) := by
    unfold CacheArray.lookup
    cases s.cacheArray_.findWay addr <;> rfl
  simp only [lookup, stepState, hlook, map_some]

theorem modifyLine_keepsRead {f : L1CacheLine → L1CacheLine}
    (hf : ∀ l, (f l).addr_ = l.addr_ ∧ (f l).data_ = l.data_) :
    Steps (Same readView) (modifyLine line f : L1M P Unit) := by
  refine changeState_steps fun s t hrun => ?_
  obtain ⟨i, -, rfl⟩ := map_eq_some_iff.1 hrun
  have haddr : (fun j => (update s.cacheArray_.lines_ i (f (s.cacheArray_.lines_ i)) j).addr_) =
      fun j => (s.cacheArray_.lines_ j).addr_ := by
    funext j
    by_cases hj : j = i
    · subst hj
      rw [update_self, (hf _).1]
    · rw [update_of_ne hj]
  have hdata : (fun j => (update s.cacheArray_.lines_ i (f (s.cacheArray_.lines_ i)) j).data_) =
      fun j => (s.cacheArray_.lines_ j).data_ := by
    funext j
    by_cases hj : j = i
    · subst hj
      rw [update_self, (hf _).2]
    · rw [update_of_ne hj]
  simp only [Same, readView, CacheArray.setLine]
  rw [haddr, hdata]
  rfl

theorem recordPrefetchResult_keepsRead :
    Steps (Same readView) (recordPrefetchResult line : L1M P Unit) :=
  modifyLine_keepsRead (fun _ => ⟨rfl, rfl⟩)

theorem setTimestamp_keepsRead (ts : SimTime) :
    Steps (Same readView)
      (modifyLine line (fun l => l.setTimestamp ts) : L1M P Unit) :=
  modifyLine_keepsRead (fun _ => ⟨rfl, rfl⟩)

theorem setState_keepsRead (x : State) :
    Steps (Same readView)
      (modifyLine line (fun l => l.setState x) : L1M P Unit) :=
  modifyLine_keepsRead (fun _ => ⟨rfl, rfl⟩)

theorem incLock_keepsRead :
    Steps (Same readView) (modifyLine line (fun l => l.incLock) : L1M P Unit) :=
  modifyLine_keepsRead (fun _ => ⟨rfl, rfl⟩)

theorem atomicStart_keepsRead (time : SimTime) :
    Steps (Same readView)
      (modifyLine line (fun l => l.atomicStart time) : L1M P Unit) :=
  modifyLine_keepsRead (fun _ => ⟨rfl, rfl⟩)

theorem startIfLoadLink_keepsRead {req : MemEvent} :
    Steps (Same readView) (startIfLoadLink req line : L1M P Unit) := by
  unfold startIfLoadLink
  refine (ask_steps _).bind fun cfg => (ask_steps _).bind fun now => ?_
  exact (atomicStart_keepsRead _).runIf

theorem wlp_setLineData {bytes : List UInt8} {offset : Nat}
    (h : ∀ t, t.readView = { s.readView with data := t.readView.data } → Q () t) :
    wlp (setLineData line bytes offset) Q s := by
  refine wlp_changeState.2 fun t hrun => ?_
  obtain ⟨i, -, hi⟩ := bind_eq_some_iff.1 hrun
  split at hi
  · cases hi
    refine h _ ?_
    have haddr : (fun j => (update s.cacheArray_.lines_ i
        ((s.cacheArray_.lines_ i).setData bytes offset) j).addr_) =
        fun j => (s.cacheArray_.lines_ j).addr_ := by
      funext j
      by_cases hj : j = i
      · subst hj
        rw [update_self]
        rfl
      · rw [update_of_ne hj]
    simp only [readView, CacheArray.setLine]
    rw [haddr]
    rfl
  · cases hi

theorem wlp_requestedBytes {Q : List UInt8 → MESIL1 P → Prop} {ev : MemEvent}
    (h : ∀ i, line = some i →
      (s.readView.slice i ev).length = ev.size_.toNat → Q (s.readView.slice i ev) s) :
    wlp (requestedBytes line ev) Q s := by
  refine wlp_readState.2 fun data hdata => ?_
  obtain ⟨i, hi, hslice⟩ := bind_eq_some_iff.1 hdata
  dsimp only at hslice
  split at hslice
  · rename_i hfits
    cases hslice
    refine h i hi ?_
    simp only [ReadView.slice, readView, length_take, length_drop, MemEvent.lineOffset]
    omega
  · cases hslice

theorem mem_insertFromBack (resp : CoherenceController.Response)
    (queue : List CoherenceController.Response) :
    resp ∈ resp.insertFromBack queue := by
  induction queue with
  | nil =>
    exact mem_singleton_self _
  | cons r rest ih =>
    unfold CoherenceController.Response.insertFromBack
    split
    · exact mem_cons_self
    · exact mem_cons_of_mem _ ih

theorem mem_addToOutgoingQueue (resp : CoherenceController.Response)
    (queue : List CoherenceController.Response) :
    resp ∈ CoherenceController.Response.addToOutgoingQueue queue resp :=
  mem_reverse.2 (mem_insertFromBack _ _)

theorem wlp_forwardByDestination
    (h : ∀ t, t.readView = { s.readView with queued := t.readView.queued } →
      (∃ r ∈ t.readView.queued, r.event = { event with src_ := s.config.cachename_ }) → Q () t) :
    wlp (forwardByDestination event ts) Q s := by
  unfold forwardByDestination
  rw [wlp_bind]
  refine wlp_ask ?_
  rw [wlp_ite]
  refine ⟨fun _ => wlp_changeState.2 (fun t ht => ?_), fun _ => ?_⟩
  · cases ht
    exact h _ rfl ⟨_, mem_append_left _ (mem_addToOutgoingQueue _ _), rfl⟩
  · rw [wlp_ite]
    refine ⟨fun _ => wlp_changeState.2 (fun t ht => ?_), fun _ => wlp_fail⟩
    cases ht
    exact h _ rfl ⟨_, mem_append_right _ (mem_addToOutgoingQueue _ _), rfl⟩

theorem wlp_forwardByAddress
    (h : ∀ t, t.readView = { s.readView with queued := t.readView.queued } →
      t.lineView = s.lineView →
      (∃ r ∈ t.readView.queued,
        r.event = { event with
          src_ := s.config.cachename_
          dst_ := targetOf s.config event.baseAddr_ }) → Q () t) :
    wlp (forwardByAddress event ts) Q s := by
  unfold forwardByAddress
  rw [wlp_bind]
  refine wlp_ask ?_
  rw [wlp_ite]
  refine ⟨fun hdown => wlp_changeState.2 (fun t ht => ?_), fun hdown => ?_⟩
  · cases ht
    refine h _ rfl rfl
      ⟨_, mem_append_right _ (mem_addToOutgoingQueue _ _), ?_⟩
    rw [targetOf, if_pos hdown]
    rfl
  · rw [wlp_ite]
    refine ⟨fun hup => wlp_changeState.2 (fun t ht => ?_), fun _ => wlp_fail⟩
    cases ht
    refine h _ rfl rfl
      ⟨_, mem_append_left _ (mem_addToOutgoingQueue _ _), ?_⟩
    rw [targetOf, if_neg hdown]
    rfl

theorem wlp_answerRequest_read {req : MemEvent} {inMSHR : Bool}
    (hline : line = s.readView.find addr)
    (h : ∀ t, s.readView.AnswersRead t.readView addr req →
      t.readView.data = s.readView.data → Q () t) :
    wlp (answerRequest req line inMSHR true) Q s := by
  simp only [answerRequest, sendResponseUp, wlp_bind]
  refine wlp_requestedBytes fun i hi hlength => ?_
  refine wlp_readState.2 fun l _ => wlp_ask (wlp_ask ?_)
  refine wlp_forwardByDestination fun t₁ h₁ hqueued => ?_
  refine wlp_changeState.2 fun t₂ h₂ => wlp_pure.2 ?_
  cases h₂
  refine (setTimestamp_keepsRead _).wlp fun _ t₃ h₃ => ?_
  -- the answer is the only change besides the queue
  have hview : t₃.readView = { s.readView with
      answers := s.readView.answers ++ [⟨req, some (s.readView.slice i req), true⟩]
      queued := t₁.readView.queued } := by
    have hanswers : t₁.answers = s.answers := congrArg ReadView.answers h₁
    have hgiven : ∀ given, ({ t₁ with answers := given } : MESIL1 P).readView =
        { t₁.readView with answers := given } := fun _ => rfl
    refine Eq.trans h₃ ?_
    rw [hgiven, hanswers, h₁]
    rfl
  refine h t₃ ⟨i, ?_, ?_, ?_, ?_⟩ ?_
  · rw [hview, ← hi, hline]
    rfl
  · rw [hview]
    exact hlength
  · rw [hview]
    rfl
  · rw [hview]
    exact hqueued
  · rw [hview]

end Rules

end MESIL1

end SstElements.MemHierarchy
