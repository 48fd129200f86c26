import SstElements.MemHierarchy.MesiL1Handled
import SstElements.MemHierarchy.ServedReads

/-!
# The outcome of a flush

A flush that was forwarded waits at the front of its address until a
`FlushLineResp` arrives.  Its handler answers the flush, but passes the time
and the success of the response in the places of `inMSHR` and of the time, so
that the answer always succeeds and has the latency of the MSHR only if the
time is not zero.

`FlushStep` is what a step has to meet as long as the flush waits, and
`FlushOutcome` is what a run from there on brings.  A flush of a locked line
is refused and leaves the array as it is.
-/

namespace SstElements.MemHierarchy

open Library Option Bool

namespace MESIL1

variable {P : ReplacementPolicy}

section Statement

def IsFlush (ev : MemEvent) : Prop := ev.cmd_ = .FlushLine ∨ ev.cmd_ = .FlushLineInv

/-- A flush that was forwarded: issued, at the front of its address. -/
structure Forwarded (s : MESIL1 P) (p : Nat) (req : MemEvent) : Prop where
  alive : s.heap p = some req
  flush : IsFlush req
  front : s.mshr_.getFrontEvent req.baseAddr_ = some (some p)
  issued : s.mshr_.getInProgress req.baseAddr_ = true

/-- A response from below to a flush of an address. -/
def AnswersFlush (req ev : MemEvent) : Prop :=
  ev.cmd_ = .FlushLineResp ∧ ev.baseAddr_ = req.baseAddr_

/--
While the flush waits it is not handled again, and the only response for its
address is the one to the flush, which it finds at the front.
-/
structure Orderly (p : Nat) (req : MemEvent) (s : MESIL1 P) (event : Nat)
    (ev : MemEvent) : Prop where
  other : p ≠ event
  response : ev.cmd_.answersFront = true → ev.baseAddr_ = req.baseAddr_ →
    ev.cmd_ = .FlushLineResp ∧
      s.mshr_.getFrontEvent ev.baseAddr_ = some (some p)

/-- The response reports success, and its time stands for true or the latency
of the tags is long enough. -/
def CallIsRight (s : MESIL1 P) (ev : MemEvent) : Prop :=
  ev.success = true ∧
    (s.timestamp_ ≠ 0 ∨ s.config.mshrLatency_ ≤ s.config.tagLatency_ + 1)

/-- What a step meets: requests have distinct identifiers, and while the flush
waits, the step is orderly and the call for its answer is right. -/
def FlushStep (p : Nat) (req : MemEvent) (s : MESIL1 P) (op : L1Op) : Prop :=
  ∀ event ev, s.handled op = some (event, ev) →
    (∀ q r, s.requestOf event ev = some (q, r) → q ≠ p → r.eventID_ ≠ req.eventID_) ∧
    (s.heap p = some req → Orderly p req s event ev ∧ (AnswersFlush req ev → CallIsRight s ev))

/-- The answers to a request that are new in the second state. -/
def Gives (id : Nat) (given : List Answer) (s t : MESIL1 P) : Prop :=
  ∃ new, t.answers = s.answers ++ new ∧
    new.filter (fun ans => ans.request.eventID_ = id) = given

/-- A response is put into one of the outgoing queues. -/
def Queues (s t : MESIL1 P) (r : CoherenceController.Response) : Prop :=
  t.outgoingEventQueueUp_ =
      CoherenceController.Response.addToOutgoingQueue s.outgoingEventQueueUp_ r ∨
    t.outgoingEventQueueDown_ =
      CoherenceController.Response.addToOutgoingQueue s.outgoingEventQueueDown_ r

/-- The response to a request, marked as failed or not. -/
def responseTo (cfg : MESIL1Config) (req : MemEvent) (success : Bool) : MemEvent :=
  { if success then req.makeResponse else req.makeResponse.setFail with
    src_ := cfg.cachename_ }

/-- The flush is answered as the response from below reports, not before the
latency of the MSHR has passed. -/
structure FlushAnswered (s t : MESIL1 P) (p : Nat) (req ev : MemEvent) : Prop where
  answers : t.answers = s.answers ++ [⟨req, none, ev.success⟩]
  queued : ∃ r, Queues s t r ∧ r.event = responseTo s.config req ev.success ∧
    s.timestamp_ + s.config.mshrLatency_ ≤ r.deliveryTime
  deleted : t.heap p = none

/--
The flush still waits, got no response and was not answered; or one step got
the response, answered the flush, and the run has no other answer to it.
-/
def FlushOutcome (p : Nat) (req : MemEvent) (s : MESIL1 P) (ops : List L1Op)
    (u : MESIL1 P) : Prop :=
  (u.heap p = some req ∧ Gives req.eventID_ [] s u ∧
      StepsMeet step (fun t op => ∀ event ev,
        t.handled op = some (event, ev) → ¬ AnswersFlush req ev) s ops) ∨
    ∃ before op after t t' event ev, ops = before ++ op :: after ∧
      runOps step s before = some t ∧ step t op = some t' ∧
      t.handled op = some (event, ev) ∧ AnswersFlush req ev ∧
      FlushAnswered t t' p req ev ∧
      Gives req.eventID_ [⟨req, none, ev.success⟩] s u ∧ u.heap p = none

/-- A flush that may go on and finds its line locked. -/
structure FindsLocked (s : MESIL1 P) (event : Nat) (ev : MemEvent) (inMSHR : Bool) : Prop where
  alive : s.heap event = some ev
  flush : IsFlush ev
  free : inMSHR = false → s.mshr_.exists? ev.baseAddr_ = false
  front : inMSHR = true → ev.cmd_ = .FlushLineInv →
    s.mshr_.getFrontEvent ev.baseAddr_ = some (some event)
  locked : ∃ i, s.cacheArray_.findWay ev.baseAddr_ = some i ∧
    (s.cacheArray_.lines_ i).state_ ≠ .I ∧
    (s.cacheArray_.lines_ i).isLocked s.timestamp_ = true

/-- Such a flush is answered as failed, and the array stays as it is. -/
def RefusesLocked (s : MESIL1 P) : Prop :=
  ∀ event ev inMSHR, s.FindsLocked event ev inMSHR →
    wlp (processEvent event inMSHR)
      (fun b t => b = true ∧ t.answers = s.answers ++ [⟨ev, none, false⟩] ∧
        t.cacheArray_ = s.cacheArray_) s

end Statement

section Refusal

variable {s : MESIL1 P} {event : Nat} {ev : MemEvent} {inMSHR : Bool}

/-- What a refusal leaves as it is. -/
def arrayAndAnswers (s : MESIL1 P) : CacheArray L1CacheLine P × List Answer :=
  (s.cacheArray_, s.answers)

instance : KeptBySends (Same (arrayAndAnswers (P := P))) where

instance : KeptByManagement (Same (arrayAndAnswers (P := P))) where

theorem failFlush_refuses {line : Option Nat} :
    wlp (failFlush event ev line inMSHR)
      (fun _ t => t.answers = s.answers ++ [⟨ev, none, false⟩] ∧
        t.cacheArray_ = s.cacheArray_) s := by
  unfold failFlush
  refine (checkProfiled_steps (R := Same arrayAndAnswers) _ _).andThen
    (refl s) (fun _ t₁ h₁ => ?_)
  refine (readLine_steps _).andThen h₁ fun l t₂ h₂ => ?_
  unfold sendResponseUp
  rw [wlp_bind, wlp_bind]
  refine wlp_ask ?_
  rw [wlp_bind]
  refine wlp_ask ?_
  refine (forwardByDestination_steps _ _).andThen h₂ fun _ t₃ h₃ => ?_
  rw [wlp_bind]
  refine wlp_changeState.2 fun t₄ h₄ => ?_
  cases h₄
  refine wlp_pure.2 ?_
  refine (cleanUpAfterRequest_steps (R := Same arrayAndAnswers) _ _).wlp
    (fun _ t ht => ?_)
  obtain ⟨harray, hanswers⟩ := Prod.mk.inj ht
  obtain ⟨harray₃, hanswers₃⟩ := Prod.mk.inj h₃
  exact ⟨hanswers.trans (by rw [hanswers₃]), harray.trans harray₃⟩

theorem wlp_ifLocked {m : MSHR Nat} {i : Nat} {other : L1M P Bool}
    (hstate : (s.cacheArray_.lines_ i).state_ ≠ .I)
    (hlocked : (s.cacheArray_.lines_ i).isLocked s.timestamp_ = true) :
    wlp (do
        let locked ← lockedNow (some i) (s.cacheArray_.lines_ i).state_
        if locked then do
          failFlush event ev (some i) inMSHR
          pure true
        else other)
      (fun b t => b = true ∧ t.answers = s.answers ++ [⟨ev, none, false⟩] ∧
        t.cacheArray_ = s.cacheArray_) { s with mshr_ := m } := by
  rw [wlp_bind]
  refine wlp_ask ?_
  simp only [any_some, hlocked, hstate, ne_eq, not_false_eq_true,
    decide_true, Bool.and_self, if_true]
  rw [wlp_bind]
  exact wlp_mono failFlush_refuses fun _ t ht => wlp_pure.2 ⟨rfl, ht⟩

theorem handleFlushLine_refuses (h : s.FindsLocked event ev inMSHR) :
    wlp (handleFlushLine event inMSHR)
      (fun b t => b = true ∧ t.answers = s.answers ++ [⟨ev, none, false⟩] ∧
        t.cacheArray_ = s.cacheArray_) s := by
  obtain ⟨i, hfind, hstate, hlocked⟩ := h.locked
  unfold handleFlushLine
  rw [wlp_bind_of_run (readEvent_run h.alive),
    wlp_bind_of_run (lookup_false_run s _), hfind, wlp_bind]
  refine wlp_ask ?_
  rw [wlp_bind]
  refine wlp_ask ?_
  rw [wlp_ite]
  refine ⟨fun hwaits => ?_, fun _ => ?_⟩
  · simp only [and_eq_true, not_eq_true'] at hwaits
    rw [h.free hwaits.1] at hwaits
    exact absurd hwaits.2 false_ne_true
  · rw [wlp_bind]
    intro u t hbegin
    obtain ⟨m, rfl⟩ := beginReplay_facts hbegin
    exact wlp_ifLocked hstate hlocked

theorem handleFlushLineInv_refuses (h : s.FindsLocked event ev inMSHR)
    (hcmd : ev.cmd_ = .FlushLineInv) :
    wlp (handleFlushLineInv event inMSHR)
      (fun b t => b = true ∧ t.answers = s.answers ++ [⟨ev, none, false⟩] ∧
        t.cacheArray_ = s.cacheArray_) s := by
  obtain ⟨i, hfind, hstate, hlocked⟩ := h.locked
  unfold handleFlushLineInv
  rw [wlp_bind_of_run (readEvent_run h.alive),
    wlp_bind_of_run (lookup_false_run s _), hfind, wlp_bind]
  refine wlp_ask ?_
  rw [wlp_bind]
  refine wlp_ask ?_
  cases inMSHR with
  | false =>
    simp only [h.free rfl, Bool.not_false, Bool.and_false, Bool.false_eq_true, if_false]
    unfold startFlushLineInv
    exact wlp_ifLocked (m := s.mshr_) hstate hlocked
  | true =>
    simp only [Bool.not_true, Bool.false_and, Bool.false_eq_true, if_false, if_true]
    rw [wlp_bind]
    refine wlp_runIf.2 ⟨fun _ => wlp_changeState.2 (fun t ht => ?_), fun hnot => by cases hnot⟩
    obtain ⟨m, hm, rfl⟩ := map_eq_some_iff.1 ht
    have hfront : m.getFrontEvent ev.baseAddr_ = some (some event) := by
      rw [← h.front rfl hcmd]
      unfold MSHR.getFrontEvent MSHR.getFront
      rw [(MSHR.removePendingRetry_entriesAt hm).2]
    rw [wlp_bind]
    refine wlp_readState.2 fun front hget => ?_
    cases hfront.symm.trans hget
    rw [if_pos rfl]
    exact wlp_ifLocked hstate hlocked

theorem refusesLocked (s : MESIL1 P) : s.RefusesLocked := by
  intro event ev inMSHR h
  unfold processEvent
  rw [wlp_bind_of_run (readEvent_run h.alive)]
  rcases h.flush with hcmd | hcmd
  · rw [hcmd]
    exact handleFlushLine_refuses h
  · rw [hcmd]
    exact handleFlushLineInv_refuses h hcmd

end Refusal

section Response

variable {s : MESIL1 P} {event p : Nat} {ev req : MemEvent} {inMSHR : Bool}

/-- What the answer to a flush depends on, and what the clean-up leaves. -/
def outbox (s : MESIL1 P) :
    MESIL1Config × SimTime × List Answer ×
      List CoherenceController.Response × List CoherenceController.Response :=
  (s.config, s.timestamp_, s.answers, s.outgoingEventQueueUp_, s.outgoingEventQueueDown_)

/-- Where the events are. -/
def whereabouts (s : MESIL1 P) : (Nat → Option MemEvent) × Nat × MSHR Nat :=
  (s.heap, s.nextPtr, s.mshr_)

instance : KeptByArray (Same (outbox (P := P))) where

instance : KeptByManagement (Same (outbox (P := P))) where

instance : KeptByArray (Same (whereabouts (P := P))) where

theorem wlp_sendResponseUp_queues {time : SimTime} {success : Bool} :
    wlp (sendResponseUp req none inMSHR time success)
      (fun _ t => t.whereabouts = s.whereabouts ∧ t.answers = s.answers ++ [⟨req, none, success⟩] ∧
        ∃ r, Queues s t r ∧ r.event = responseTo s.config req success ∧ r.deliveryTime =
            (if inMSHR then s.config.mshrLatency_ else s.config.tagLatency_) +
              (if time < s.timestamp_ then s.timestamp_ else time)) s := by
  unfold sendResponseUp
  rw [wlp_bind]
  refine wlp_ask ?_
  rw [wlp_bind]
  refine wlp_ask ?_
  unfold forwardByDestination
  rw [wlp_bind, wlp_bind]
  refine wlp_ask ?_
  have hevent : ∀ ts, (outgoing s.config
      { (if success then req.makeResponse else req.makeResponse.setFail) with
        src_ := s.config.cachename_ } ts).event =
      responseTo s.config req success := fun _ => rfl
  rw [wlp_ite]
  refine ⟨fun _ => wlp_changeState.2 (fun t ht => ?_), fun _ => ?_⟩
  · cases ht
    rw [wlp_bind]
    refine wlp_changeState.2 fun u hu => wlp_pure.2 ?_
    cases hu
    exact ⟨rfl, rfl, _, .inl rfl, hevent _, rfl⟩
  · rw [wlp_ite]
    refine ⟨fun _ => wlp_changeState.2 (fun t ht => ?_), fun _ => wlp_fail⟩
    cases ht
    rw [wlp_bind]
    refine wlp_changeState.2 fun u hu => wlp_pure.2 ?_
    cases hu
    exact ⟨rfl, rfl, _, .inr rfl, hevent _, rfl⟩

section

variable (hev : s.heap event = some ev)
variable (hfront : s.mshr_.getFrontEvent ev.baseAddr_ = some (some p))
include hev hfront

theorem cleanUpAfterResponse_dangles (hlt : p < s.nextPtr) :
    wlp (cleanUpAfterResponse event) (fun _ t => Dangles p t) s := by
  unfold cleanUpAfterResponse
  rw [wlp_bind_of_run (readEvent_run hev), wlp_bind]
  refine wlp_readState.2 fun front hget => ?_
  cases hfront.symm.trans hget
  rw [wlp_bind]
  refine wlp_changeState.2 fun t₁ h₁ => ?_
  obtain ⟨m, -, rfl⟩ := map_eq_some_iff.1 h₁
  rw [wlp_bind]
  refine wlp_changeState.2 fun t₂ h₂ => ?_
  obtain ⟨ev', -, rfl⟩ := map_eq_some_iff.1 h₂
  rw [wlp_bind]
  refine wlp_changeState.2 fun t₃ h₃ => ?_
  obtain ⟨req', -, rfl⟩ := map_eq_some_iff.1 h₃
  refine (replayAfterResponse_steps (R := Preserves (Dangles p)) _).wlp
    (fun _ t ht => ht ⟨Function.update_self _ _ _, hlt⟩)

theorem handleFlushLineResp_answers (hreq : s.heap p = some req) (hlt : p < s.nextPtr) :
    wlp (handleFlushLineResp event)
      (fun _ t => Dangles p t ∧ t.answers = s.answers ++ [⟨req, none, true⟩] ∧
        ∃ r, Queues s t r ∧ r.event = responseTo s.config req true ∧ r.deliveryTime =
            (if s.timestamp_ ≠ 0 then s.config.mshrLatency_
              else s.config.tagLatency_) +
            (if (if ev.success then 1 else 0) < s.timestamp_ then s.timestamp_
              else if ev.success then 1 else 0)) s := by
  unfold handleFlushLineResp
  rw [wlp_bind_of_run (readEvent_run hev), wlp_bind_of_run (lookup_false_run s _), wlp_bind]
  refine wlp_ask ?_
  rw [wlp_bind]
  refine wlp_ask ?_
  rw [wlp_bind]
  refine wlp_frontRequest_of fun q hq => ?_
  obtain rfl := some.inj (some.inj (hfront.symm.trans hq))
  rw [wlp_bind]
  intro u s₁ hrun
  have hout : s₁.outbox = s.outbox := flushRespAction_steps (R := Same outbox) _ _ s u s₁ hrun
  have hwhere : s₁.whereabouts = s.whereabouts :=
    flushRespAction_steps (R := Same whereabouts) _ _ s u s₁ hrun
  simp only [outbox, Prod.mk.injEq] at hout
  simp only [whereabouts, Prod.mk.injEq] at hwhere
  obtain ⟨hconfig, htime, hanswers, hup, hdown⟩ := hout
  obtain ⟨hheap, hnext, hmshr⟩ := hwhere
  rw [wlp_bind_of_run (readEvent_run (by rw [hheap]; exact hreq)), wlp_bind]
  refine wlp_mono wlp_sendResponseUp_queues fun _ s₂ h₂ => ?_
  obtain ⟨hwhere₂, hanswers₂, r, hqueues, hresp, hdelivery⟩ := h₂
  simp only [whereabouts, Prod.mk.injEq] at hwhere₂
  obtain ⟨hheap₂, hnext₂, hmshr₂⟩ := hwhere₂
  rw [wlp_bind]
  intro u t hclean
  have hdangles : Dangles p t :=
    cleanUpAfterResponse_dangles
      (by rw [hheap₂, hheap]; exact hev) (by rw [hmshr₂, hmshr]; exact hfront)
      (by rw [hnext₂, hnext]; exact hlt) u t hclean
  have hout := cleanUpAfterResponse_steps (R := Same outbox) event s₂ u t hclean
  simp only [Same, outbox, Prod.mk.injEq] at hout
  refine wlp_pure.2 ⟨hdangles, ?_, r, ?_, ?_, ?_⟩
  · rw [hout.2.2.1, hanswers₂, hanswers]
  · unfold Queues at hqueues ⊢
    rw [hout.2.2.2.1, hout.2.2.2.2, ← hup, ← hdown]
    exact hqueues
  · rw [hresp, hconfig]
  · rw [hdelivery, hconfig, htime]
    simp only [decide_eq_true_eq]

end

theorem latency_le_deliveryTime (h : CallIsRight s ev) :
    s.timestamp_ + s.config.mshrLatency_ ≤ (if s.timestamp_ ≠ 0 then s.config.mshrLatency_
        else s.config.tagLatency_) +
      (if (if ev.success then 1 else 0) < s.timestamp_ then s.timestamp_
        else if ev.success then 1 else 0) := by
  obtain ⟨hsuccess, htime⟩ := h
  simp only [hsuccess, if_true]
  by_cases hzero : s.timestamp_ = 0
  · have hlatency := htime.resolve_left (not_not.2 hzero)
    rw [hzero, if_neg (not_not.2 rfl), if_neg (by decide), UInt64.zero_add]
    exact hlatency
  · rw [if_pos hzero, UInt64.add_comm]
    have htime : (if 1 < s.timestamp_ then s.timestamp_ else 1) =
        s.timestamp_ := by
      split
      · rfl
      · rename_i hle
        apply UInt64.toNat_inj.1
        rw [UInt64.lt_iff_toNat_lt] at hle
        have hne : s.timestamp_.toNat ≠ 0 := fun h0 => hzero (UInt64.toNat_inj.1 h0)
        have h1 : (1 : UInt64).toNat = 1 := rfl
        omega
    rw [htime]

end Response

section Run

variable {s t u : MESIL1 P} {op : L1Op} {p : Nat} {req : MemEvent}
variable {event : Nat} {ev : MemEvent} {ops : List L1Op}

theorem Presented.outbox (h : Presented s event ev t) : t.outbox = s.outbox := by
  rcases h with ⟨-, rfl⟩ | ⟨-, rfl⟩ <;> rfl

theorem Concluded.outbox (h : Concluded event s t) : t.outbox = s.outbox := by
  rcases h with rfl | rfl | ⟨_, rfl⟩ <;> rfl

theorem Gives.trans {id : Nat} {xs ys : List Answer} (h : Gives id xs s t) (h' : Gives id ys t u) :
    Gives id (xs ++ ys) s u := by
  obtain ⟨new, hnew, rfl⟩ := h
  obtain ⟨new', hnew', rfl⟩ := h'
  exact ⟨new ++ new', by rw [hnew', hnew, List.append_assoc],
    List.filter_append _ _⟩

theorem requestOf_cases {q : Nat} {r : MemEvent} (h : s.requestOf event ev = some (q, r)) :
    ev.cmd_.answersFront = false ∧ q = event ∨ ev.cmd_.answersFront = true ∧ s.heap q = some r ∧
        s.mshr_.getFrontEvent ev.baseAddr_ = some (some q) := by
  unfold requestOf at h
  split at h
  · rename_i hcmd
    simp only [bind_eq_bind, bind_eq_some_iff, pure_def,
      some.injEq, Prod.mk.injEq] at h
    obtain ⟨front, hfront, q', rfl, r', hr', rfl, rfl⟩ := h
    exact .inr ⟨hcmd, hr', hfront⟩
  · rename_i hcmd
    cases h
    exact .inl ⟨by simpa using hcmd, rfl⟩

theorem gives_nil (hs : s.Filed) (hstep : step s op = some t) (hok : FlushStep p req s op)
    (hother : ∀ event ev, s.handled op = some (event, ev) →
      ∀ q r, s.requestOf event ev = some (q, r) → q ≠ p) :
    Gives req.eventID_ [] s t := by
  obtain ⟨new, hnew, hid⟩ := step_answers hs hstep
  refine ⟨new, hnew, List.filter_eq_nil_iff.2 (fun ans hans heq => ?_)⟩
  obtain ⟨event, ev, q, r, hhandled, hrequest, hr⟩ := hid ans hans
  have hne := (hok event ev hhandled).1 q r hrequest
    (hother event ev hhandled q r hrequest)
  exact hne (hr.trans (by simpa using heq))

/-- Once answered, a flush gets no second answer. -/
theorem step_answered (hs : s.Filed) (hdangles : Dangles p s) (hok : FlushStep p req s op)
    (hstep : step s op = some t) :
    Gives req.eventID_ [] s t := by
  refine gives_nil hs hstep hok fun event ev hhandled q r hrequest => ?_
  rintro rfl
  rcases requestOf_cases hrequest with ⟨-, rfl⟩ | ⟨-, hq, -⟩
  · cases op with
    | receive ev' =>
      cases hhandled
      exact lt_irrefl _ hdangles.2
    | replay event' =>
      obtain ⟨ev', hev', heq⟩ := map_eq_some_iff.1 hhandled
      cases heq
      rw [hdangles.1] at hev'
      cases hev'
    | nack _ => cases hhandled
    | clock _ => cases hhandled
    | updateTimestamp _ _ => cases hhandled
  · rw [hdangles.1] at hq
    cases hq

/-- Until the next level responds, the flush waits. -/
theorem step_waits (hs : s.Filed) (halive : Alive p req s) (hok : FlushStep p req s op)
    (hstep : step s op = some t)
    (hnone : ∀ event ev, s.handled op = some (event, ev) → ¬ AnswersFlush req ev) :
    Alive p req t ∧ Gives req.eventID_ [] s t := by
  have hother : ∀ event ev, s.handled op = some (event, ev) →
      p ≠ event ∧ (ev.cmd_.answersFront = true →
        s.mshr_.getFrontEvent ev.baseAddr_ ≠ some (some p)) := by
    intro event ev hhandled
    obtain ⟨horderly, -⟩ := (hok event ev hhandled).2 halive.1
    refine ⟨horderly.other, fun hcmd hfront => ?_⟩
    have hbase : req.baseAddr_ = ev.baseAddr_ := hs.base _ p req (hs.front_lt hfront).1 halive.1
    obtain ⟨hresp, -⟩ := horderly.response hcmd hbase.symm
    exact hnone event ev hhandled ⟨hresp, hbase.symm⟩
  refine ⟨halive.step hstep hother,
    gives_nil hs hstep hok (fun event ev hhandled q r hrequest => ?_)⟩
  rintro rfl
  obtain ⟨hne, hfront⟩ := hother event ev hhandled
  rcases requestOf_cases hrequest with ⟨-, heq⟩ | ⟨hcmd, -, hq⟩
  · exact hne heq
  · exact hfront hcmd hq

/-- The response of the next level answers the flush. -/
theorem step_responds (halive : Alive p req s) (hok : FlushStep p req s op)
    (hstep : step s op = some t) (hhandled : s.handled op = some (event, ev))
    (hresp : AnswersFlush req ev) :
    FlushAnswered s t p req ev ∧ Dangles p t := by
  obtain ⟨horderly, hright⟩ := (hok event ev hhandled).2 halive.1
  have hcall := hright hresp
  obtain ⟨-, hfront⟩ := horderly.response (by rw [hresp.1]; rfl) hresp.2
  rcases step_cases hstep with ⟨hnone, -⟩ | ⟨event', ev', hhandled', hhandles⟩
  · rw [hhandled] at hnone
    cases hnone
  obtain ⟨rfl, rfl⟩ := Prod.mk.inj
    (some.inj (hhandled.symm.trans hhandled'))
  obtain ⟨s₁, inMSHR, b, s₂, hpres, hrun, hconc⟩ := hhandles
  have hlt := hpres.heap_of_lt halive.2
  unfold processEvent at hrun
  rw [bind_run (readEvent_run hpres.heap), hresp.1] at hrun
  obtain ⟨hdangles, hanswers, r, hqueues, hevent, hdelivery⟩ :=
    handleFlushLineResp_answers hpres.heap (by rw [hpres.mshr]; exact hfront)
      (hlt.1.trans halive.1) hlt.2 b s₂ hrun
  have hout₁ := hpres.outbox
  have hout₂ := hconc.outbox
  simp only [outbox, Prod.mk.injEq] at hout₁ hout₂
  obtain ⟨hconfig, htime, hanswers₁, hup, hdown⟩ := hout₁
  refine ⟨⟨?_, ⟨r, ?_, ?_, ?_⟩, (hconc.dangles hdangles).1⟩, hconc.dangles hdangles⟩
  · rw [hout₂.2.2.1, hanswers, hanswers₁, hcall.1]
  · unfold Queues at hqueues ⊢
    rw [hout₂.2.2.2.1, hout₂.2.2.2.2, ← hup, ← hdown]
    exact hqueues
  · rw [hevent, hconfig, hcall.1]
  · rw [hdelivery, ← hconfig, ← htime]
    have hcall₁ : CallIsRight s₁ ev := by
      refine ⟨hcall.1, ?_⟩
      rw [hconfig, htime]
      exact hcall.2
    exact latency_le_deliveryTime hcall₁

theorem run_answered (hs : s.Filed) (hdangles : Dangles p s)
    (hok : StepsMeet step (FlushStep p req) s ops) (hrun : runOps step s ops = some u) :
    Gives req.eventID_ [] s u ∧ u.heap p = none := by
  induction ops generalizing s with
  | nil =>
    cases hrun
    exact ⟨⟨[], by simp, rfl⟩, hdangles.1⟩
  | cons op rest ih =>
    obtain ⟨mid, hmid, hrest⟩ := runOps_cons_iff.1 hrun
    obtain ⟨hgives, hnone⟩ := ih (hs.step hmid) (hdangles.step hmid) (hok.2 mid hmid) hrest
    exact ⟨(step_answered hs hdangles hok.1 hmid).trans hgives, hnone⟩

/-- By induction on the run: waiting until the response, answered from then on. -/
theorem run_flushOutcome (hs : s.Filed) (halive : Alive p req s)
    (hok : StepsMeet step (FlushStep p req) s ops) (hrun : runOps step s ops = some u) :
    FlushOutcome p req s ops u := by
  induction ops generalizing s with
  | nil =>
    cases hrun
    exact .inl ⟨halive.1, ⟨[], by simp, rfl⟩, trivial⟩
  | cons op rest ih =>
    obtain ⟨mid, hmid, hrest⟩ := runOps_cons_iff.1 hrun
    by_cases hresp : ∃ event ev, s.handled op = some (event, ev) ∧
        AnswersFlush req ev
    · obtain ⟨event, ev, hhandled, hflush⟩ := hresp
      obtain ⟨hanswered, hdangles⟩ := step_responds halive hok.1 hmid hhandled hflush
      obtain ⟨hgives, hnone⟩ := run_answered (hs.step hmid) hdangles (hok.2 mid hmid) hrest
      have hone : Gives req.eventID_ [⟨req, none, ev.success⟩] s mid :=
        ⟨_, hanswered.answers, by simp⟩
      exact .inr ⟨[], op, rest, s, mid, event, ev, rfl, rfl, hmid, hhandled,
        hflush, hanswered, hone.trans hgives, hnone⟩
    · push Not at hresp
      obtain ⟨halive', hnil⟩ := step_waits hs halive hok.1 hmid hresp
      rcases ih (hs.step hmid) halive' (hok.2 mid hmid) hrest with
        ⟨hwaits, hgives, hmeet⟩ |
        ⟨before, op', after, t, t', event, ev, rfl, hbefore, hstep, hhandled,
          hflush, hanswered, hgives, hnone⟩
      · refine .inl ⟨hwaits, hnil.trans hgives, hresp, fun t ht => ?_⟩
        cases hmid.symm.trans ht
        exact hmeet
      · exact .inr ⟨op :: before, op', after, t, t', event, ev, rfl,
          runOps_cons_iff.2 ⟨mid, hmid, hbefore⟩, hstep, hhandled, hflush,
          hanswered, hnil.trans hgives, hnone⟩

theorem filed_start {cfg : MESIL1Config} {numLines associativity : Nat} {hash : Addr → UInt64}
    {sliceSize sliceStep : Addr} {mshrSize : Int}
    (hstart : start P cfg numLines associativity hash sliceSize sliceStep mshrSize = some s) :
    s.Filed := by
  obtain ⟨c, -, rfl⟩ := map_eq_some_iff.1 hstart
  exact ⟨by simp, by simp [MSHR.eventsAt, MSHR.entriesAt, MSHR.eventsIn, MSHR.new],
    by simp⟩

/--
In a run from a new manager, a flush that was forwarded comes out as it
should if every later step meets `FlushStep`; a flush that finds its line locked
is refused in every state.
-/
theorem flushOutcome_of_flushSteps
    {cfg : MESIL1Config} {numLines associativity : Nat} {hash : Addr → UInt64}
    {sliceSize sliceStep : Addr} {mshrSize : Int} {s₀ : MESIL1 P} {before ops : List L1Op}
    (hstart : start P cfg numLines associativity hash sliceSize sliceStep mshrSize = some s₀)
    (hbefore : runOps step s₀ before = some s)
    (hp : s.Forwarded p req)
    (hok : StepsMeet step (FlushStep p req) s ops)
    (hrun : runOps step s ops = some u) :
    FlushOutcome p req s ops u ∧ u.RefusesLocked := by
  have hs : s.Filed :=
    runOps_invariant (fun _ _ _ h hstep => h.step hstep) (filed_start hstart)
      hbefore
  exact ⟨run_flushOutcome hs ⟨hp.alive, hs.alive_lt p req hp.alive⟩ hok hrun, refusesLocked u⟩

end Run

def flushOf : MemEvent := MemEvent.new 7 "core" 64 64 .FlushLine

/-- A response to it. -/
def flushResp (success : Bool) : MemEvent :=
  if success then MemEvent.new 7 "memory" 64 64 .FlushLineResp
  else (MemEvent.new 7 "memory" 64 64 .FlushLineResp).setFail

/-- A run of a new manager of one line. -/
def smallRun (ops : List L1Op) : Option (MESIL1 LRU) :=
  (start LRU smallConfig 1 1 (fun _ => 0) 0 0 16).bind
    (fun s => runOps step s ops)

/-- The flush is forwarded at time 10. -/
def flushOps : List L1Op := [.updateTimestamp 10 10, .receive flushOf]

theorem smallRun_flushOps :
    (smallRun flushOps).map (fun s =>
      ((s.heap 0, s.mshr_.getFrontEvent 64), s.mshr_.getInProgress 64, s.timestamp_, s.nextPtr)) =
      some ((some flushOf, some (some 0)), true, 10, 1) := by
  decide

theorem smallRun_responded (success : Bool) :
    ((smallRun flushOps).bind (fun s => runOps step s [.receive (flushResp success)])).map
        (fun u => (u.heap 0, u.answers)) = some (none, [⟨flushOf, none, true⟩]) := by
  cases success <;> decide

theorem smallRun_exists (success : Bool) :
    ∃ s₀ s u, start LRU smallConfig 1 1 (fun _ => 0) 0 0 16 = some s₀ ∧
      runOps step s₀ flushOps = some s ∧ runOps step s [.receive (flushResp success)] = some u ∧
      ((s.heap 0, s.mshr_.getFrontEvent 64), s.mshr_.getInProgress 64, s.timestamp_, s.nextPtr) =
        ((some flushOf, some (some 0)), true, 10, 1) ∧
      (u.heap 0, u.answers) = (none, [⟨flushOf, none, true⟩]) := by
  obtain ⟨u, hu, hfacts⟩ := map_eq_some_iff.1 (smallRun_responded success)
  obtain ⟨s, hs, hrun⟩ := bind_eq_some_iff.1 hu
  have hflushed := smallRun_flushOps
  rw [hs, map_some, some.injEq] at hflushed
  obtain ⟨s₀, hstart, hflush⟩ := bind_eq_some_iff.1 hs
  exact ⟨s₀, s, u, hstart, hflush, hrun, hflushed, hfacts⟩

/-- A flush that succeeds at time 10. -/
theorem flushOutcome_of_flushSteps_success :
    ∃ s u : MESIL1 LRU, smallRun flushOps = some s ∧
      runOps step s [.receive (flushResp true)] = some u ∧
      FlushOutcome 0 flushOf s [.receive (flushResp true)] u ∧
      u.RefusesLocked := by
  obtain ⟨s₀, s, u, hstart, hbefore, hrun, hfacts, -⟩ := smallRun_exists true
  simp only [Prod.mk.injEq] at hfacts
  obtain ⟨⟨hheap, hfront⟩, hissued, htime, hnext⟩ := hfacts
  have hstep : FlushStep 0 flushOf s (.receive (flushResp true)) := by
    intro event ev hhandled
    cases hhandled
    refine ⟨fun q r hrequest hne => ?_, fun _ => ⟨⟨by rw [hnext]; decide,
      fun _ _ => ⟨rfl, hfront⟩⟩, fun _ => ⟨by decide, .inl ?_⟩⟩⟩
    · rcases requestOf_cases hrequest with ⟨hcmd, -⟩ | ⟨-, -, hq⟩
      · cases hcmd
      · exact absurd (some.inj (some.inj (hq.symm.trans hfront))) hne
    · rw [htime]
      decide
  refine ⟨s, u, ?_, hrun, flushOutcome_of_flushSteps hstart hbefore
    ⟨hheap, .inl rfl, hfront, hissued⟩ ⟨hstep, fun _ _ => trivial⟩ hrun⟩
  unfold smallRun
  rw [hstart]
  exact hbefore

/-- A flush that fails below is answered as if it had succeeded. -/
theorem not_flushOutcome_failed :
    ∃ s u : MESIL1 LRU, smallRun flushOps = some s ∧ s.Forwarded 0 flushOf ∧
      runOps step s [.receive (flushResp false)] = some u ∧
      u.answers = [⟨flushOf, none, true⟩] ∧
      ¬ FlushOutcome 0 flushOf s [.receive (flushResp false)] u := by
  obtain ⟨s₀, s, u, hstart, hbefore, hrun, hfacts, hend⟩ := smallRun_exists false
  simp only [Prod.mk.injEq] at hfacts hend
  obtain ⟨⟨hheap, hfront⟩, hissued, -, -⟩ := hfacts
  refine ⟨s, u, ?_, ⟨hheap, .inl rfl, hfront, hissued⟩, hrun, hend.2, ?_⟩
  · unfold smallRun
    rw [hstart]
    exact hbefore
  · rintro (⟨halive, -⟩ |
      ⟨before, op, after, t, t', event, ev, hops, hbefore', hstep, hhandled, -, hanswered, -⟩)
    · rw [hend.1] at halive
      cases halive
    · obtain ⟨rfl, rfl, rfl⟩ : before = [] ∧ op = .receive (flushResp false) ∧
          after = [] := by
        cases before with
        | nil =>
          obtain ⟨rfl, rfl⟩ := List.cons.inj hops
          exact ⟨rfl, rfl, rfl⟩
        | cons a rest => simp at hops
      cases hbefore'
      obtain ⟨mid, hmid, hdone⟩ := runOps_cons_iff.1 hrun
      cases hdone
      cases hmid.symm.trans hstep
      cases hhandled
      have hlast := congrArg List.getLast? hanswered.answers
      rw [hend.2] at hlast
      simp [flushResp, MemEvent.success, MemEvent.queryFlag, MemEvent.setFail,
        MemEvent.setFlag, MemEvent.F_FAIL, MemEvent.new] at hlast

end MESIL1

end SstElements.MemHierarchy
