import SstElements.MemHierarchy.MesiL1Lines

/-!
# Handling one event in an L1 coherence manager

An event that is no response is the only one that its handler deletes and
answers.  The handler of a response deletes it with the request that waits at
the front of its address, and answers that request.

`handled` is the event of a step and `requestOf` the request that it can
answer.  `wlp_request` and `wlp_response` are the rules of the handlers for an
arbitrary relation on states; the last section applies them to the events that
stay, to the pointers that dangle and to the answers.
-/

namespace SstElements.MemHierarchy

open Library Function List Option

def Command.answersFront : Command → Bool
  | .GetSResp | .GetXResp | .FlushLineResp | .AckPut => true
  | _ => false

namespace MESIL1

variable {P : ReplacementPolicy}

/-- The pointer and the event that a step handles. -/
def handled (s : MESIL1 P) : L1Op → Option (Nat × MemEvent)
  | .receive ev => some (s.nextPtr, ev)
  | .replay event => (s.heap event).map (fun ev => (event, ev))
  | _ => none

/-- The request that can be answered when an event is handled. -/
def requestOf (s : MESIL1 P) (event : Nat) (ev : MemEvent) : Option (Nat × MemEvent) :=
  if ev.cmd_.answersFront then do
    let front ← s.mshr_.getFrontEvent ev.baseAddr_
    let p ← front
    let req ← s.heap p
    pure (p, req)
  else some (event, ev)

instance : KeptByArray (Same (MESIL1.heap (P := P))) where

section Rules

variable {R : MESIL1 P → MESIL1 P → Prop} {s : MESIL1 P} {event : Nat} {ev : MemEvent}
variable {addr : Addr} {Q : Bool → MESIL1 P → Prop}

theorem wlp_lookup_array {Q : Option Nat → MESIL1 P → Prop} {use : Bool}
    (h : ∀ found c, Q found { s with cacheArray_ := c }) :
    wlp (lookup addr use) Q s := by
  refine wlp_stepState.2 fun found t hrun => ?_
  obtain ⟨r, -, heq⟩ := map_eq_some_iff.1 hrun
  cases heq
  exact h r.1 r.2

theorem wlp_frontRequest_of {Q : Nat → MESIL1 P → Prop}
    (h : ∀ p, s.mshr_.getFrontEvent addr = some (some p) → Q p s) :
    wlp (frontRequest addr) Q s := by
  refine wlp_readState.2 fun p hp => ?_
  obtain ⟨front, hfront, hsome⟩ := bind_eq_some_iff.1 hp
  refine h p (hfront.trans ?_)
  exact congrArg some hsome

/-- What has to be shown of a relation up to the end of a response. -/
structure KeptByResponse (R : MESIL1 P → MESIL1 P → Prop) (s : MESIL1 P)
    (ev : MemEvent) : Prop where
  answers : ∀ p req, s.mshr_.getFrontEvent ev.baseAddr_ = some (some p) →
    s.heap p = some req → KeptByAnswers R req
  setMemFlags : ∀ p, s.mshr_.getFrontEvent ev.baseAddr_ = some (some p) →
    Steps R (modifyEvent p (fun req => { req with memFlags_ := ev.memFlags_ }) : L1M P Unit)

theorem KeptByAnswers.of_id {req req' : MemEvent} (h : KeptByAnswers R req)
    (hid : req'.eventID_ = req.eventID_) :
    KeptByAnswers R req' :=
  fun s r data success hr => h s r data success (hr.trans hid)

theorem wlp_setFlags {α : Type} {Q : α → MESIL1 P → Prop} {p : Nat} {f : MemEvent → L1M P α}
    (hkept : Steps R (modifyEvent p
      (fun req => { req with memFlags_ := ev.memFlags_ }) : L1M P Unit))
    (h : ∀ req t, s.heap p = some req → R s t →
      wlp (f { req with memFlags_ := ev.memFlags_ }) Q t) :
    wlp (modifyEvent p (fun req => { req with memFlags_ := ev.memFlags_ }) >>=
      fun _ => readEvent p >>= f) Q s := by
  rw [wlp_bind]
  intro u t hrun
  have hR : R s t := hkept s u t hrun
  simp only [modifyEvent, changeState, Option.map_map, map_eq_some_iff, comp, Prod.mk.injEq] at hrun
  obtain ⟨req, hreq, -, rfl⟩ := hrun
  rw [wlp_bind]
  refine wlp_readEvent fun req' hreq' => ?_
  dsimp only at hreq'
  rw [update_self] at hreq'
  cases hreq'
  exact h req _ hreq hR

/-- A relation that holds up to the end of a response. -/
def UntilClean (R : MESIL1 P → MESIL1 P → Prop) (s : MESIL1 P) (event : Nat)
    (Q : Bool → MESIL1 P → Prop) : Prop :=
  ∀ t, R s t → wlp (cleanUpAfterResponse event) (fun _ u => Q true u) t

theorem wlp_cleanUp {t : MESIL1 P} (h : UntilClean R s event Q) (hst : R s t) :
    wlp (cleanUpAfterResponse event >>= fun _ => pure true) Q t := by
  rw [wlp_bind]
  exact wlp_mono (h t hst) fun _ u hu => wlp_pure.2 hu

variable [IsPreorder (MESIL1 P) R] [KeptBySends R] [KeptByArray R]

theorem wlp_request [KeptByBookkeeping R] (hev : s.heap event = some ev)
    (hcmd : ev.cmd_.answersFront = false) (hdel : Steps R (deleteEvent event : L1M P Unit))
    (hans : KeptByAnswers R ev) (inMSHR : Bool) :
    wlp (processEvent event inMSHR) (fun _ t => R s t) s := by
  unfold processEvent
  refine wlp_eventOf hev ?_
  cases hc : ev.cmd_
  case GetS => exact handleGetS_keeps hev hdel hans _
  case GetX => exact handleGetX_keeps hev hdel hans _
  case Write => exact handleGetX_keeps hev hdel hans _
  case GetSX => exact handleGetSX_keeps hev hdel hans _
  case FlushLine => exact handleFlushLine_keeps hev hdel hans _
  case FlushLineInv => exact handleFlushLineInv_keeps hev hdel hans _
  case FetchInv => exact handleFetchInv_keeps hev hdel _
  case FetchInvX => exact handleFetchInvX_keeps hev hdel _
  case ForceInv => exact handleForceInv_keeps hev _
  case Inv => exact handleInv_keeps hev hdel _
  case Fetch => exact handleFetch_keeps hev hdel _
  case NULLCMD => exact handleNULLCMD_keeps hev hdel
  case GetSResp => simp [hc, Command.answersFront] at hcmd
  case GetXResp => simp [hc, Command.answersFront] at hcmd
  case FlushLineResp => simp [hc, Command.answersFront] at hcmd
  case AckPut => simp [hc, Command.answersFront] at hcmd
  all_goals exact wlp_fail

section

variable (hev : s.heap event = some ev)
variable (hkept : KeptByResponse R s ev)
variable (hclean : UntilClean R s event Q)
include hev hkept hclean

theorem wlp_getSResp : wlp (handleGetSResp event) Q s := by
  unfold handleGetSResp
  refine wlp_eventOf hev ?_
  rw [wlp_bind]
  refine wlp_lookup_array fun line c => ?_
  rw [wlp_bind]
  refine wlp_frontRequest_of fun p hp => ?_
  refine wlp_setFlags (hkept.setMemFlags p hp) fun req t hreq ht => ?_
  have hans : KeptByAnswers R { req with memFlags_ := ev.memFlags_ } :=
    (hkept.answers p req hp hreq).of_id rfl
  have hst : R s t := IsTrans.trans _ _ _ (KeptByArray.cacheArray s c) ht
  refine (setLineData_steps _ _ _).andThen hst fun _ t₁ h₁ => ?_
  refine (modifyLine_steps _ _).andThen h₁ fun _ t₂ h₂ => ?_
  refine (startIfLoadLink_steps _ _).andThen h₂ fun _ t₃ h₃ => ?_
  refine (answerRead_steps hans _).andThen h₃ fun _ t₄ h₄ => ?_
  exact wlp_cleanUp hclean h₄

theorem wlp_getXResp : wlp (handleGetXResp event) Q s := by
  unfold handleGetXResp
  refine wlp_eventOf hev ?_
  rw [wlp_bind]
  refine wlp_lookup_array fun line c => ?_
  rw [wlp_bind]
  refine wlp_ask ?_
  rw [wlp_bind]
  refine wlp_frontRequest_of fun p hp => ?_
  refine wlp_setFlags (hkept.setMemFlags p hp) fun req t hreq ht => ?_
  have hans : KeptByAnswers R { req with memFlags_ := ev.memFlags_ } :=
    (hkept.answers p req hp hreq).of_id rfl
  have hst : R s t := IsTrans.trans _ _ _ (KeptByArray.cacheArray s c) ht
  refine (getXRespAction_steps hans _ _ _).andThen hst fun _ t₁ h₁ => ?_
  exact wlp_cleanUp hclean h₁

theorem wlp_flushLineResp : wlp (handleFlushLineResp event) Q s := by
  unfold handleFlushLineResp
  refine wlp_eventOf hev ?_
  rw [wlp_bind]
  refine wlp_lookup_array fun line c => ?_
  rw [wlp_bind]
  refine wlp_ask ?_
  rw [wlp_bind]
  refine wlp_ask ?_
  rw [wlp_bind]
  refine wlp_frontRequest_of fun p hp => ?_
  have hst : R s { s with cacheArray_ := c } := KeptByArray.cacheArray s c
  rw [wlp_bind]
  intro u t₁ hrun
  have hheap : Same MESIL1.heap { s with cacheArray_ := c } t₁ :=
    flushRespAction_steps _ _ _ u t₁ hrun
  have h₁ : R s t₁ := IsTrans.trans _ _ _ hst (flushRespAction_steps _ _ _ u t₁ hrun)
  rw [wlp_bind]
  refine wlp_readEvent fun req hreq => ?_
  rw [show t₁.heap = s.heap from hheap] at hreq
  refine (sendResponseUp_steps (hkept.answers p req hp hreq) _ _ _ _).andThen h₁
    (fun _ t₂ h₂ => ?_)
  exact wlp_cleanUp hclean h₂

end

theorem wlp_response {inMSHR : Bool} (hev : s.heap event = some ev)
    (hcmd : ev.cmd_.answersFront = true) (hkept : KeptByResponse R s ev)
    (hclean : UntilClean R s event Q) :
    wlp (processEvent event inMSHR) Q s := by
  unfold processEvent
  refine wlp_eventOf hev ?_
  cases hc : ev.cmd_
  case GetSResp => exact wlp_getSResp hev hkept hclean
  case GetXResp => exact wlp_getXResp hev hkept hclean
  case FlushLineResp => exact wlp_flushLineResp hev hkept hclean
  case AckPut => exact wlp_cleanUp hclean (refl s)
  all_goals simp [hc, Command.answersFront] at hcmd

end Rules

section Kept

variable {s : MESIL1 P} {event : Nat} {ev : MemEvent} {inMSHR : Bool}

theorem processEvent_keeps {R : MESIL1 P → MESIL1 P → Prop} [IsPreorder (MESIL1 P) R]
    [KeptBySends R] [KeptByManagement R] [KeptByLines R] (hev : s.heap event = some ev) :
    wlp (processEvent event inMSHR) (fun _ t => R s t) s := by
  cases hcmd : ev.cmd_.answersFront with
  | false =>
    exact wlp_request hev hcmd (deleteEvent_steps event)
      (KeptByLines.keptByAnswers ev) inMSHR
  | true =>
    refine wlp_response hev hcmd
      (R := R) ⟨fun _ req _ _ => KeptByLines.keptByAnswers req,
        fun p _ => setMemFlags_steps p _⟩ (fun t ht => ?_)
    exact (cleanUpAfterResponse_steps event).wlp
      (fun _ u htu => IsTrans.trans _ _ _ ht htu)

/-- The event at a pointer that was handed out. -/
def Alive (p : Nat) (req : MemEvent) (s : MESIL1 P) : Prop := s.heap p = some req ∧ p < s.nextPtr

/-- A pointer that was handed out dangles. -/
def Dangles (p : Nat) (s : MESIL1 P) : Prop := s.heap p = none ∧ p < s.nextPtr

variable {p : Nat} {req : MemEvent}

instance : KeptBySends (Preserves (Alive (P := P) p req)) where

instance : KeptByLines (Preserves (Alive (P := P) p req)) where

instance : KeptByBookkeeping (Preserves (Alive (P := P) p req)) where
  newEviction := fun _ _ _ _ _ h =>
    ⟨(update_of_ne (ne_of_lt h.2) _ _).trans h.1, Nat.lt_succ_of_lt h.2⟩

instance : KeptBySends (Preserves (Dangles (P := P) p)) where

instance : KeptByLines (Preserves (Dangles (P := P) p)) where

instance : KeptByManagement (Preserves (Dangles (P := P) p)) where
  newEviction := fun _ _ _ _ _ h =>
    ⟨(update_of_ne (ne_of_lt h.2) _ _).trans h.1, Nat.lt_succ_of_lt h.2⟩
  deleteEvent := fun _ q _ _ h => by
    refine ⟨?_, h.2⟩
    by_cases hq : p = q
    · subst hq
      exact update_self _ _ _
    · exact (update_of_ne hq _ _).trans h.1
  setMemFlags := fun s q _ _ hq h => by
    refine ⟨?_, h.2⟩
    have hne : p ≠ q := by
      rintro rfl
      rw [h.1] at hq
      cases hq
    exact (update_of_ne hne _ _).trans h.1

theorem deleteEvent_alive (hne : p ≠ event) :
    Steps (Preserves (Alive p req)) (deleteEvent event : L1M P Unit) := by
  refine changeState_steps fun s t h hs => ?_
  obtain ⟨ev, -, rfl⟩ := map_eq_some_iff.1 h
  exact ⟨(update_of_ne hne _ _).trans hs.1, hs.2⟩

/-- A response whose request at the front is another event. -/
structure Elsewhere (p : Nat) (req : MemEvent) (event : Nat) (addr : Addr)
    (s : MESIL1 P) : Prop where
  alive : Alive p req s
  event : ∃ ev, s.heap event = some ev ∧ ev.baseAddr_ = addr
  front : s.mshr_.getFrontEvent addr ≠ some (some p)

instance {addr : Addr} : KeptBySends (Preserves (Elsewhere (P := P) p req event addr)) where
  queueDown := fun _ _ h => ⟨h.alive, h.event, h.front⟩
  queueUp := fun _ _ h => ⟨h.alive, h.event, h.front⟩
  nextID := fun _ _ h => ⟨h.alive, h.event, h.front⟩

instance {addr : Addr} : KeptByLines (Preserves (Elsewhere (P := P) p req event addr)) where
  cacheArray := fun _ _ h => ⟨h.alive, h.event, h.front⟩
  answers := fun _ _ h => ⟨h.alive, h.event, h.front⟩

theorem setMemFlags_elsewhere {addr : Addr} {q : Nat} {flags : UInt32} (hne : p ≠ q) :
    Steps (Preserves (Elsewhere p req event addr))
      (modifyEvent q (fun req => { req with memFlags_ := flags }) :
        L1M P Unit) := by
  refine changeState_steps fun s t h hs => ?_
  obtain ⟨ev, hq, rfl⟩ := map_eq_some_iff.1 h
  obtain ⟨ev', hev', hbase⟩ := hs.event
  refine ⟨⟨(update_of_ne hne _ _).trans hs.alive.1, hs.alive.2⟩, ?_, hs.front⟩
  by_cases heq : event = q
  · subst heq
    cases hq.symm.trans hev'
    exact ⟨_, update_self _ _ _, hbase⟩
  · exact ⟨ev', (update_of_ne heq _ _).trans hev', hbase⟩

theorem cleanUpAfterResponse_elsewhere {addr : Addr} (hne : p ≠ event)
    (hs : Elsewhere p req event addr s) :
    wlp (cleanUpAfterResponse event) (fun _ t => Alive p req t) s := by
  obtain ⟨ev, hev, hbase⟩ := hs.event
  unfold cleanUpAfterResponse
  refine wlp_eventOf hev ?_
  rw [wlp_bind]
  refine wlp_readState.2 fun front hfront => ?_
  rw [hbase] at hfront
  refine (removeFront_steps (R := Preserves (Alive p req)) _).andThen id
    (fun _ t₁ h₁ => ?_)
  refine (deleteEvent_alive hne).andThen h₁ fun _ t₂ h₂ => ?_
  have hdel : Steps (Preserves (Alive p req))
      (deleteRequest front : L1M P Unit) := by
    cases front with
    | none => exact Steps.pure _
    | some q =>
      refine deleteEvent_alive ?_
      rintro rfl
      exact hs.front hfront
  refine hdel.andThen h₂ fun _ t₃ h₃ => ?_
  exact (replayAfterResponse_steps (R := Preserves (Alive p req)) _).wlp
    (fun _ t h => h (h₃ hs.alive))

theorem processEvent_alive (hev : s.heap event = some ev) (hne : p ≠ event) (halive : Alive p req s)
    (hfront : ev.cmd_.answersFront = true → s.mshr_.getFrontEvent ev.baseAddr_ ≠ some (some p)) :
    wlp (processEvent event inMSHR) (fun _ t => Alive p req t) s := by
  cases hcmd : ev.cmd_.answersFront with
  | false =>
    exact wlp_mono (wlp_request hev hcmd (deleteEvent_alive hne)
      (KeptByLines.keptByAnswers ev) inMSHR) (fun _ _ h => h halive)
  | true =>
    have hs : Elsewhere p req event ev.baseAddr_ s := ⟨halive, ⟨ev, hev, rfl⟩, hfront hcmd⟩
    refine wlp_response hev hcmd
      (R := Preserves (Elsewhere p req event ev.baseAddr_))
      ⟨fun _ r _ _ => KeptByLines.keptByAnswers r, fun q hq => ?_⟩
      (fun t ht => cleanUpAfterResponse_elsewhere hne (ht hs))
    refine setMemFlags_elsewhere ?_
    rintro rfl
    exact hs.front hq

end Kept

section Answers

variable {s : MESIL1 P} {event : Nat} {ev : MemEvent} {inMSHR : Bool}
variable {I : Nat → Prop}

/-- The answers are extended by answers to requests with some identifiers. -/
def AnswersIn (I : Nat → Prop) (s t : MESIL1 P) : Prop :=
  ∃ new, t.answers = s.answers ++ new ∧ ∀ ans ∈ new, I ans.request.eventID_

theorem AnswersIn.of_eq {t : MESIL1 P} (h : t.answers = s.answers) : AnswersIn I s t :=
  ⟨[], by rw [h, append_nil], by simp⟩

instance : IsPreorder (MESIL1 P) (AnswersIn I) where
  refl := fun _ => .of_eq rfl
  trans := by
    rintro s t u ⟨xs, hxs, hx⟩ ⟨ys, hys, hy⟩
    refine ⟨xs ++ ys, by rw [hys, hxs, append_assoc], fun ans hans => ?_⟩
    rcases mem_append.1 hans with h | h
    · exact hx ans h
    · exact hy ans h

instance : KeptBySends (AnswersIn (P := P) I) where
  queueDown := fun _ _ => .of_eq rfl
  queueUp := fun _ _ => .of_eq rfl
  nextID := fun _ _ => .of_eq rfl

instance : KeptByArray (AnswersIn (P := P) I) where cacheArray := fun _ _ => .of_eq rfl

instance : KeptByManagement (AnswersIn (P := P) I) where
  newEviction := fun _ _ _ _ _ => .of_eq rfl
  deleteEvent := fun _ _ _ _ => .of_eq rfl
  setMemFlags := fun _ _ _ _ _ => .of_eq rfl
  note := fun _ _ _ => .of_eq rfl
  removeFront := fun _ _ _ _ => .of_eq rfl
  insertEvent := fun _ _ _ _ _ _ _ => .of_eq rfl
  retryBuffer := fun _ _ => .of_eq rfl
  nextID := fun _ _ => .of_eq rfl

theorem AnswersIn.keptByAnswers {req : MemEvent} (h : I req.eventID_) :
    KeptByAnswers (AnswersIn (P := P) I) req := by
  intro s r data success hr
  refine ⟨_, rfl, fun ans hans => ?_⟩
  rw [mem_singleton] at hans
  subst hans
  rw [hr]
  exact h

theorem processEvent_answers (hev : s.heap event = some ev) :
    wlp (processEvent event inMSHR)
      (fun _ t => AnswersIn
        (fun id => ∃ p req, s.requestOf event ev = some (p, req) ∧ req.eventID_ = id) s t) s := by
  cases hcmd : ev.cmd_.answersFront with
  | false =>
    refine wlp_request hev hcmd (deleteEvent_steps event)
      (AnswersIn.keptByAnswers ⟨event, ev, ?_, rfl⟩) inMSHR
    simp [requestOf, hcmd]
  | true =>
    refine wlp_response hev hcmd
      (R := AnswersIn (fun id => ∃ p req,
        s.requestOf event ev = some (p, req) ∧ req.eventID_ = id))
      ⟨fun p req hp hreq => ?_, fun p _ => setMemFlags_steps p _⟩
      (fun t ht => ?_)
    · refine AnswersIn.keptByAnswers ⟨p, req, ?_, rfl⟩
      simp [requestOf, hcmd, hp, hreq]
    · exact (cleanUpAfterResponse_steps event).wlp
        (fun _ u htu => IsTrans.trans _ _ _ ht htu)

end Answers

section OneStep

variable {s t u : MESIL1 P} {event : Nat} {ev : MemEvent}

/-- The state in which an event is handled: it is on the heap. -/
def Presented (s : MESIL1 P) (event : Nat) (ev : MemEvent) (t : MESIL1 P) : Prop :=
  s.heap event = some ev ∧ t = s ∨
    event = s.nextPtr ∧ t = { s with
      heap := update s.heap s.nextPtr (some ev)
      nextPtr := s.nextPtr + 1 }

/-- The end of a step: a refused event is deleted, a replayed one is taken from
the retry buffer. -/
def Concluded (event : Nat) (s t : MESIL1 P) : Prop :=
  t = s ∨ t = { s with heap := update s.heap event none } ∨
    ∃ buffer, t = { s with retryBuffer_ := buffer }

/-- Without an event only time passes, or a message is sent. -/
structure Idles (s t : MESIL1 P) : Prop where
  heap : t.heap = s.heap
  nextPtr : t.nextPtr = s.nextPtr
  mshr : t.mshr_ = s.mshr_
  answers : t.answers = s.answers

instance : IsPreorder (MESIL1 P) Idles where
  refl := fun _ => ⟨rfl, rfl, rfl, rfl⟩
  trans := fun _ _ _ h h' => ⟨h'.heap.trans h.heap,
    h'.nextPtr.trans h.nextPtr, h'.mshr.trans h.mshr, h'.answers.trans h.answers⟩

instance : KeptBySends (Idles (P := P)) where
  queueDown := fun _ _ => ⟨rfl, rfl, rfl, rfl⟩
  queueUp := fun _ _ => ⟨rfl, rfl, rfl, rfl⟩
  nextID := fun _ _ => ⟨rfl, rfl, rfl, rfl⟩

def Handles (s t : MESIL1 P) (event : Nat) (ev : MemEvent) : Prop :=
  ∃ s₁ inMSHR b s₂, Presented s event ev s₁ ∧
    processEvent event inMSHR s₁ = some (b, s₂) ∧ Concluded event s₂ t

theorem receiveEvent_handles : wlp (receiveEvent ev) (fun _ t => Handles s t s.nextPtr ev) s := by
  unfold receiveEvent
  rw [wlp_bind]
  refine wlp_ask ?_
  rw [wlp_ite]
  refine ⟨fun _ => ?_, fun _ => wlp_fail⟩
  rw [wlp_bind]
  refine wlp_stepState.2 fun event s₁ hnew => ?_
  cases hnew
  rw [wlp_bind]
  intro b s₂ hprocess
  have hdone : ∀ t, Concluded s.nextPtr s₂ t → Handles s t s.nextPtr ev :=
    fun t ht => ⟨_, false, b, s₂, .inr ⟨rfl, rfl⟩, hprocess, ht⟩
  rw [wlp_runIf]
  refine ⟨fun _ => wlp_changeState.2 (fun t ht => hdone t ?_), fun _ => hdone s₂ (.inl rfl)⟩
  obtain ⟨_, -, rfl⟩ := map_eq_some_iff.1 ht
  exact .inr (.inl rfl)

theorem replayEvent_handles :
    wlp (replayEvent event)
      (fun _ t => ∃ ev, s.heap event = some ev ∧ Handles s t event ev) s := by
  unfold replayEvent
  rw [wlp_bind]
  refine wlp_ask ?_
  rw [wlp_ite]
  refine ⟨fun _ => ?_, fun _ => wlp_fail⟩
  rw [wlp_bind]
  intro b s₂ hprocess
  obtain ⟨ev, hev⟩ : ∃ ev, s.heap event = some ev := by
    have hread : wlp (processEvent event true)
        (fun _ _ => ∃ ev, s.heap event = some ev) s := by
      unfold processEvent
      rw [wlp_bind]
      exact wlp_readEvent fun ev hev _ _ _ => ⟨ev, hev⟩
    exact hread b s₂ hprocess
  have hdone : ∀ t, Concluded event s₂ t →
      ∃ ev, s.heap event = some ev ∧ Handles s t event ev :=
    fun t ht => ⟨ev, hev, s, true, b, s₂, .inl ⟨hev, rfl⟩, hprocess, ht⟩
  rw [wlp_runIf]
  refine ⟨fun _ => wlp_changeState.2 (fun t ht => hdone t ?_), fun _ => hdone s₂ (.inl rfl)⟩
  cases ht
  exact .inr (.inr ⟨_, rfl⟩)

variable {op : L1Op} {p : Nat}

/-- A step handles one event or idles. -/
theorem step_cases (h : step s op = some t) :
    (s.handled op = none ∧ Idles s t) ∨
      ∃ event ev, s.handled op = some (event, ev) ∧ Handles s t event ev := by
  cases op with
  | receive ev =>
    right
    obtain ⟨⟨u, v⟩, hrun, rfl⟩ := map_eq_some_iff.1 h
    exact ⟨s.nextPtr, ev, rfl, receiveEvent_handles u v hrun⟩
  | nack nackedEvent =>
    left
    obtain ⟨⟨u, v⟩, hrun, rfl⟩ := map_eq_some_iff.1 h
    exact ⟨rfl, resendEvent_steps (R := Idles) nackedEvent s u v hrun⟩
  | replay event =>
    right
    obtain ⟨⟨u, v⟩, hrun, rfl⟩ := map_eq_some_iff.1 h
    obtain ⟨ev, hev, hhandles⟩ := replayEvent_handles u v hrun
    exact ⟨event, ev, by simp [handled, hev], hhandles⟩
  | clock simCycle =>
    left
    cases h
    exact ⟨rfl, rfl, rfl, rfl, rfl⟩
  | updateTimestamp timestamp simCycle =>
    left
    cases h
    exact ⟨rfl, rfl, rfl, rfl, rfl⟩

section

variable (h : Presented s event ev t)
include h

theorem Presented.heap : t.heap event = some ev := by
  rcases h with ⟨hev, rfl⟩ | ⟨rfl, rfl⟩
  · exact hev
  · exact update_self _ _ _

theorem Presented.mshr : t.mshr_ = s.mshr_ := by
  rcases h with ⟨-, rfl⟩ | ⟨-, rfl⟩ <;> rfl

theorem Presented.answers : t.answers = s.answers := by
  rcases h with ⟨-, rfl⟩ | ⟨-, rfl⟩ <;> rfl

theorem Presented.heap_of_lt (hp : p < s.nextPtr) : t.heap p = s.heap p ∧ p < t.nextPtr := by
  rcases h with ⟨-, rfl⟩ | ⟨-, rfl⟩
  · exact ⟨rfl, hp⟩
  · exact ⟨update_of_ne (ne_of_lt hp) _ _, Nat.lt_succ_of_lt hp⟩

theorem Presented.filed (hs : s.Filed) : t.Filed := by
  rcases h with ⟨-, rfl⟩ | ⟨-, rfl⟩
  · exact hs
  · exact hs.newEvent ev

end

section

variable (h : Concluded event s t)
include h

theorem Concluded.answers : t.answers = s.answers := by
  rcases h with rfl | rfl | ⟨_, rfl⟩ <;> rfl

theorem Concluded.filed (hs : s.Filed) : t.Filed := by
  rcases h with rfl | rfl | ⟨_, rfl⟩
  · exact hs
  · exact hs.deleteEvent event
  · exact hs.congr rfl rfl fun _ _ hp => hp

theorem Concluded.alive {req : MemEvent} (hne : p ≠ event) (hs : Alive p req s) :
    Alive p req t := by
  rcases h with rfl | rfl | ⟨_, rfl⟩
  · exact hs
  · exact ⟨(update_of_ne hne _ _).trans hs.1, hs.2⟩
  · exact hs

theorem Concluded.dangles (hs : Dangles p s) : Dangles p t := by
  rcases h with rfl | rfl | ⟨_, rfl⟩
  · exact hs
  · refine ⟨?_, hs.2⟩
    by_cases hp : p = event
    · subst hp
      exact update_self _ _ _
    · exact (update_of_ne hp _ _).trans hs.1
  · exact hs

end

variable {op : L1Op}

/-- Every step keeps the events of the MSHR at their base addresses. -/
theorem Filed.step (hs : s.Filed) (h : step s op = some t) : t.Filed := by
  rcases step_cases h with ⟨-, hidle⟩ |
    ⟨event, ev, -, s₁, inMSHR, b, s₂, hpres, hrun, hconc⟩
  · exact hs.congr hidle.heap hidle.nextPtr fun _ _ hp => by rwa [hidle.mshr] at hp
  · refine hconc.filed ?_
    exact processEvent_keeps (R := Preserves Filed) hpres.heap b s₂ hrun
      (hpres.filed hs)

theorem Dangles.step {p : Nat} (hs : Dangles p s) (h : MESIL1.step s op = some t) :
    Dangles p t := by
  rcases step_cases h with ⟨-, hidle⟩ |
    ⟨event, ev, -, s₁, inMSHR, b, s₂, hpres, hrun, hconc⟩
  · exact ⟨by rw [hidle.heap, hs.1], by rw [hidle.nextPtr]; exact hs.2⟩
  · have h₁ := hpres.heap_of_lt hs.2
    refine hconc.dangles ?_
    exact processEvent_keeps (R := Preserves (Dangles p)) hpres.heap b s₂ hrun
      ⟨h₁.1.trans hs.1, h₁.2⟩

theorem Filed.front_lt (hs : s.Filed) {addr : Addr}
    (hfront : s.mshr_.getFrontEvent addr = some (some p)) :
    p ∈ s.mshr_.eventsAt addr ∧ p < s.nextPtr := by
  have hmem : p ∈ s.mshr_.eventsAt addr := by
    obtain ⟨e, he, hev⟩ := map_eq_some_iff.1 hfront
    unfold MSHR.eventsAt MSHR.eventsIn
    exact mem_filterMap.2 ⟨e, mem_of_mem_head? he, hev⟩
  exact ⟨hmem, hs.mshr_lt addr p hmem⟩

theorem Presented.requestOf (h : Presented s event ev t) (hs : s.Filed) :
    t.requestOf event ev = s.requestOf event ev := by
  unfold MESIL1.requestOf
  rw [h.mshr]
  split
  · cases hfront : s.mshr_.getFrontEvent ev.baseAddr_ with
    | none => rfl
    | some front =>
      cases front with
      | none => rfl
      | some p =>
        simp only [bind_eq_bind, bind_some]
        rw [(h.heap_of_lt (hs.front_lt hfront).2).1]
  · rfl

theorem step_answers (hs : s.Filed) (h : step s op = some t) :
    AnswersIn (fun id => ∃ event ev p req, s.handled op = some (event, ev) ∧
      s.requestOf event ev = some (p, req) ∧ req.eventID_ = id) s t := by
  rcases step_cases h with ⟨-, hidle⟩ |
    ⟨event, ev, hhandled, s₁, inMSHR, b, s₂, hpres, hrun, hconc⟩
  · exact .of_eq hidle.answers
  · obtain ⟨new, hnew, hid⟩ := processEvent_answers hpres.heap b s₂ hrun
    refine ⟨new, by rw [hconc.answers, hnew, hpres.answers], fun ans hans => ?_⟩
    obtain ⟨p, req, hreq, heq⟩ := hid ans hans
    rw [hpres.requestOf hs] at hreq
    exact ⟨event, ev, p, req, hhandled, hreq, heq⟩

theorem Alive.step {p : Nat} {req : MemEvent} (hs : Alive p req s)
    (h : MESIL1.step s op = some t)
    (hother : ∀ event ev, s.handled op = some (event, ev) →
      p ≠ event ∧ (ev.cmd_.answersFront = true →
        s.mshr_.getFrontEvent ev.baseAddr_ ≠ some (some p))) :
    Alive p req t := by
  rcases step_cases h with ⟨-, hidle⟩ |
    ⟨event, ev, hhandled, s₁, inMSHR, b, s₂, hpres, hrun, hconc⟩
  · exact ⟨by rw [hidle.heap, hs.1], by rw [hidle.nextPtr]; exact hs.2⟩
  · obtain ⟨hne, hfront⟩ := hother event ev hhandled
    have h₁ := hpres.heap_of_lt hs.2
    refine hconc.alive hne (processEvent_alive hpres.heap hne ⟨h₁.1.trans hs.1, h₁.2⟩ ?_ b s₂ hrun)
    rw [hpres.mshr]
    exact hfront

end OneStep

end MESIL1

end SstElements.MemHierarchy
