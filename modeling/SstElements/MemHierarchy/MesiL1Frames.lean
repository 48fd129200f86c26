import SstElements.MemHierarchy.MesiL1

/-!
# What the functions of an L1 coherence manager touch

The functions of the manager change the state in three ways: they send, they
manage the events and the MSHR, and they change lines.  A preorder on states
that one of these ways respects is respected by every function that changes the
state in this way only, and a preorder that all three respect is respected by
every handler.
-/

namespace SstElements.MemHierarchy

open Library Function Option

namespace MESIL1

variable {P : ReplacementPolicy}

section Ways

/-- A relation that sending respects. -/
class KeptBySends (R : MESIL1 P → MESIL1 P → Prop) : Prop where
  queueDown : ∀ s resp, R s { s with
    outgoingEventQueueDown_ :=
      CoherenceController.Response.addToOutgoingQueue s.outgoingEventQueueDown_ resp
    enqueuedDown_ := s.enqueuedDown_ ++ [resp] } := by
      intros; first | exact rfl | exact id
  queueUp : ∀ s resp, R s { s with
    outgoingEventQueueUp_ :=
      CoherenceController.Response.addToOutgoingQueue s.outgoingEventQueueUp_ resp
    enqueuedUp_ := s.enqueuedUp_ ++ [resp] } := by
      intros; first | exact rfl | exact id
  nextID : ∀ s n, R s { s with nextID := n } := by intros; first | exact rfl | exact id

/-- The calls that change the MSHR but none of its events. -/
inductive MshrNote : MSHR Nat → MSHR Nat → Prop where
  | addPendingRetry {m t addr} (h : m.addPendingRetry addr = some t) :
      MshrNote m t
  | removePendingRetry {m t addr} (h : m.removePendingRetry addr = some t) :
      MshrNote m t
  | setProfiled {m t addr} (h : m.setProfiled addr = some t) : MshrNote m t
  | setInProgress {m t addr value}
      (h : m.setInProgress addr value = some t) : MshrNote m t
  | insertWriteback (m addr downgrade now) :
      MshrNote m (m.insertWriteback addr downgrade now)
  | insertEviction (m oldAddr newAddr now) :
      MshrNote m (m.insertEviction oldAddr newAddr now)
  | removeEvictPointer {m t addr addrPtr retry}
      (h : m.removeEvictPointer addr addrPtr = some (retry, t)) :
      MshrNote m t

/-- A relation that the management of the MSHR and of new events respects. -/
class KeptByBookkeeping (R : MESIL1 P → MESIL1 P → Prop) : Prop where
  newEviction : ∀ s id src oldAddr newAddr, R s { s with
    heap := update s.heap s.nextPtr
      (some (MemEvent.new id src oldAddr newAddr .NULLCMD))
    nextPtr := s.nextPtr + 1 } := by intros; first | exact rfl | exact id
  note : ∀ s m, MshrNote s.mshr_ m → R s { s with mshr_ := m } := by
    intros; first | exact rfl | exact id
  removeFront : ∀ s m addr, s.mshr_.removeFront addr = some m → R s { s with mshr_ := m } := by
    intros; first | exact rfl | exact id
  insertEvent : ∀ s p ev pos fwdReq prefetches, s.heap p = some ev → R s { s with
    mshr_ := (s.mshr_.insertEvent ev.baseAddr_ p pos fwdReq false s.simCycle).2
    outstandingPrefetches_ := prefetches } := by intros; first | exact rfl | exact id
  retryBuffer : ∀ s buffer, R s { s with retryBuffer_ := buffer } := by
    intros; first | exact rfl | exact id
  nextID : ∀ s n, R s { s with nextID := n } := by intros; first | exact rfl | exact id

/-- A relation that also the end of events respects. -/
class KeptByManagement (R : MESIL1 P → MESIL1 P → Prop) : Prop extends KeptByBookkeeping R where
  deleteEvent : ∀ s p ev, s.heap p = some ev → R s { s with heap := update s.heap p none } := by
    intros; first | exact rfl | exact id
  setMemFlags : ∀ s p ev flags, s.heap p = some ev →
    R s { s with heap := update s.heap p (some { ev with memFlags_ := flags }) } := by
      intros; first | exact rfl | exact id

/-- A relation that changes of lines respect. -/
class KeptByArray (R : MESIL1 P → MESIL1 P → Prop) : Prop where
  cacheArray : ∀ s c, R s { s with cacheArray_ := c } := by intros; first | exact rfl | exact id

/-- A relation that changes of lines and answers respect. -/
class KeptByLines (R : MESIL1 P → MESIL1 P → Prop) : Prop extends KeptByArray R where
  answers : ∀ s a, R s { s with answers := a } := by intros; first | exact rfl | exact id

/-- A relation that the answers to a request respect. -/
def KeptByAnswers (R : MESIL1 P → MESIL1 P → Prop) (req : MemEvent) : Prop :=
  ∀ s r data success, r.eventID_ = req.eventID_ →
    R s { s with answers := s.answers ++ [⟨r, data, success⟩] }

variable {R : MESIL1 P → MESIL1 P → Prop}

theorem KeptByLines.keptByAnswers [KeptByLines R] (req : MemEvent) : KeptByAnswers R req :=
  fun s _ _ _ _ => KeptByLines.answers s _

end Ways

section Primitives

variable {R : MESIL1 P → MESIL1 P → Prop}

theorem changeState_steps {f : MESIL1 P → Option (MESIL1 P)} (h : ∀ s t, f s = some t → R s t) :
    Steps R (changeState f) :=
  fun s => wlp_changeState.2 (fun t ht => h s t ht)

variable {α : Type}

theorem stepState_steps {f : MESIL1 P → Option (α × MESIL1 P)}
    (h : ∀ s a t, f s = some (a, t) → R s t) :
    Steps R (stepState f) :=
  fun s => wlp_stepState.2 (fun a t ht => h s a t ht)

variable [IsPreorder (MESIL1 P) R]

theorem ask_steps (f : MESIL1 P → α) : Steps R (ask f) :=
  Steps.readState _

theorem readEvent_steps (p : Nat) : Steps R (readEvent p) :=
  Steps.readState _

theorem readLine_steps (line : Option Nat) : Steps R (readLine line) :=
  Steps.readState _

theorem askMshr_steps (f : MSHR Nat → Option α) : Steps R (askMshr f : L1M P α) :=
  Steps.readState _

theorem requestedBytes_steps (line : Option Nat) (ev : MemEvent) :
    Steps R (requestedBytes line ev) :=
  Steps.readState _

theorem checkProfiled_steps (addr : Addr) (inMSHR : Bool) : Steps R (checkProfiled addr inMSHR) :=
  ((askMshr_steps _).bind (fun _ => Steps.pure _)).runIf

end Primitives

section Sends

variable {R : MESIL1 P → MESIL1 P → Prop} [KeptBySends R]

theorem newID_steps : Steps R (newID) := by
  refine stepState_steps fun s a t h => ?_
  cases h
  exact KeptBySends.nextID s _

theorem addToOutgoingQueueDown_steps (resp : CoherenceController.Response) :
    Steps R (addToOutgoingQueueDown resp) := by
  refine changeState_steps fun s t h => ?_
  cases h
  exact KeptBySends.queueDown s _

theorem addToOutgoingQueueUp_steps (resp : CoherenceController.Response) :
    Steps R (addToOutgoingQueueUp resp) := by
  refine changeState_steps fun s t h => ?_
  cases h
  exact KeptBySends.queueUp s _

variable [IsPreorder (MESIL1 P) R]

section

variable (event : MemEvent)

theorem forwardByAddress_steps (ts : SimTime) : Steps R (forwardByAddress event ts) := by
  unfold forwardByAddress
  refine (ask_steps _).bind fun cfg => ?_
  refine Steps.ite (addToOutgoingQueueDown_steps _) ?_
  exact Steps.ite (addToOutgoingQueueUp_steps _) Steps.fail

theorem forwardByDestination_steps (ts : SimTime) : Steps R (forwardByDestination event ts) := by
  unfold forwardByDestination
  refine (ask_steps _).bind fun cfg => ?_
  refine Steps.ite (addToOutgoingQueueUp_steps _) ?_
  exact Steps.ite (addToOutgoingQueueDown_steps _) Steps.fail

theorem forwardMessage_steps (requestSize : UInt32) (base : SimTime) (fwdCmd : Option Command) :
    Steps R (forwardMessage event requestSize base fwdCmd) := by
  unfold forwardMessage
  refine (ask_steps _).bind fun cfg => ?_
  refine (ask_steps _).bind fun now => ?_
  exact (forwardByAddress_steps _ _).bind fun _ => Steps.pure _

theorem resendEvent_steps : Steps R (resendEvent event) := by
  unfold resendEvent
  refine (ask_steps _).bind fun cfg => ?_
  exact (ask_steps _).bind fun now => forwardByDestination_steps _ _

theorem sendResponseDown_steps (line : Option Nat) (data : Bool) :
    Steps R (sendResponseDown event line data) := by
  unfold sendResponseDown
  refine (ask_steps _).bind fun cfg => ?_
  refine (ask_steps _).bind fun now => ?_
  refine Steps.ite ?_ (forwardByDestination_steps _ _)
  exact (readLine_steps _).bind fun l => forwardByDestination_steps _ _

theorem snoopCores_steps (ts : SimTime) (cores : List String) :
    Steps R (snoopCores event ts cores) := by
  induction cores with
  | nil =>
    exact Steps.pure _
  | cons core rest ih =>
    unfold snoopCores
    refine (ask_steps _).bind fun cfg => ?_
    refine newID_steps.bind fun id => ?_
    exact (forwardByDestination_steps _ _).bind fun _ => ih

theorem snoopInvalidation_steps (line : Option Nat) : Steps R (snoopInvalidation event line) := by
  unfold snoopInvalidation
  refine (ask_steps _).bind fun cfg => ?_
  refine (ask_steps _).bind fun base => ?_
  exact (snoopCores_steps _ _ _).runIf

end

end Sends

section Bookkeeping

variable {R : MESIL1 P → MESIL1 P → Prop} [KeptByBookkeeping R]

theorem newEviction_steps (id : Nat) (src : String) (oldAddr newAddr : Addr) :
    Steps R (newEvent (MemEvent.new id src oldAddr newAddr .NULLCMD) :
      L1M P Nat) := by
  refine stepState_steps fun s a t h => ?_
  cases h
  exact KeptByBookkeeping.newEviction s _ _ _ _

theorem newEventID_steps : Steps R (newID) := by
  refine stepState_steps fun s a t h => ?_
  cases h
  exact KeptByBookkeeping.nextID s _

theorem pushRetry_steps (p : Nat) : Steps R (pushRetry p) := by
  refine changeState_steps fun s t h => ?_
  cases h
  exact KeptByBookkeeping.retryBuffer s _

theorem changeMshr_steps {f : MSHR Nat → Option (MSHR Nat)}
    (hf : ∀ m t, f m = some t → MshrNote m t) :
    Steps R (changeMshr f) := by
  refine changeState_steps fun s t h => ?_
  obtain ⟨m, hm, rfl⟩ := map_eq_some_iff.1 h
  exact KeptByBookkeeping.note s m (hf _ _ hm)

theorem removeFront_steps (addr : Addr) : Steps R (changeMshr (fun m => m.removeFront addr)) := by
  refine changeState_steps fun s t h => ?_
  obtain ⟨m, hm, rfl⟩ := map_eq_some_iff.1 h
  exact KeptByBookkeeping.removeFront s m addr hm

theorem removeEvictPointer_steps (oldAddr newAddr : Addr) :
    Steps R (stepState (fun s =>
      (s.mshr_.removeEvictPointer oldAddr newAddr).map
        (fun r => (r.1, { s with mshr_ := r.2 })))) := by
  refine stepState_steps fun s a t h => ?_
  obtain ⟨⟨b, m⟩, hm, hst⟩ := map_eq_some_iff.1 h
  cases hst
  exact KeptByBookkeeping.note s m (.removeEvictPointer hm)

theorem insertEviction_steps (oldAddr newAddr : Addr) (now : SimTime) :
    Steps R (changeMshr (fun m => some (m.insertEviction oldAddr newAddr now)) :
      L1M P Unit) := by
  refine changeMshr_steps fun m t h => ?_
  cases h
  exact .insertEviction _ _ _ _

variable [IsPreorder (MESIL1 P) R]

theorem allocateMSHR_steps (event : Nat) (fwdReq : Bool) (pos : Int) :
    Steps R (allocateMSHR event fwdReq pos) := by
  intro s
  simp only [allocateMSHR, readEvent, ask, wlp_bind, wlp_readState, wlp_ite]
  rintro ev hev limited -
  refine ⟨fun _ => wlp_pure.2 (refl s), fun _ => wlp_stepState.2 ?_⟩
  intro status t h
  split at h
  · cases h
    exact refl s
  · cases h
    exact KeptByBookkeeping.insertEvent s event ev pos fwdReq _ hev

theorem scheduleEvictions_steps (addr : Addr) (ptrs : List Addr) :
    Steps R (scheduleEvictions addr ptrs) := by
  induction ptrs with
  | nil =>
    exact Steps.pure _
  | cons newAddr rest ih =>
    unfold scheduleEvictions
    refine (ask_steps _).bind fun cfg => ?_
    refine newEventID_steps.bind fun id => ?_
    refine (newEviction_steps _ _ _ _).bind fun ev => ?_
    exact (pushRetry_steps ev).bind fun _ => ih

theorem scheduleEvent_steps (addr : Addr) (event : Nat) : Steps R (scheduleEvent addr event) := by
  unfold scheduleEvent
  refine (pushRetry_steps event).bind fun _ => ?_
  exact changeMshr_steps fun _ _ h => .addPendingRetry h

theorem replayAfterRequest_steps (addr : Addr) : Steps R (replayAfterRequest addr) := by
  unfold replayAfterRequest
  refine (ask_steps _).bind fun waiting => ?_
  refine Steps.ite ?_ (Steps.pure _)
  refine (askMshr_steps _).bind fun front => ?_
  cases front.body with
  | event event =>
    exact (ask_steps _).bind fun _ => (scheduleEvent_steps _ _).runIf
  | evict ptrs =>
    exact scheduleEvictions_steps _ _
  | writeback _ =>
    exact Steps.pure _

theorem replayAfterResponse_steps (addr : Addr) : Steps R (replayAfterResponse addr) := by
  unfold replayAfterResponse
  refine (ask_steps _).bind fun waiting => ?_
  refine Steps.ite ?_ (Steps.pure _)
  refine (askMshr_steps _).bind fun front => ?_
  cases front.body with
  | event event =>
    exact (ask_steps _).bind fun _ => (scheduleEvent_steps _ _).runIf
  | evict ptrs =>
    exact scheduleEvictions_steps _ _
  | writeback _ =>
    exact Steps.fail

theorem retry_steps (addr : Addr) : Steps R (retry addr) := by
  unfold retry
  refine (ask_steps _).bind fun waiting => ?_
  refine Steps.ite ?_ (Steps.pure _)
  refine (askMshr_steps _).bind fun front => ?_
  cases front.body with
  | event event =>
    exact scheduleEvent_steps _ _
  | evict ptrs =>
    exact scheduleEvictions_steps _ _
  | writeback _ =>
    exact Steps.pure _

theorem missStatus_steps (event : Nat) (ev : MemEvent) (inMSHR : Bool) :
    Steps R (missStatus event ev inMSHR) := by
  unfold missStatus
  refine Steps.ite ?_ (allocateMSHR_steps _ _ _)
  exact (askMshr_steps _).bind fun _ => Steps.pure _

theorem stallInMshr_steps (event : Nat) (inMSHR : Bool) : Steps R (stallInMshr event inMSHR) := by
  unfold stallInMshr
  refine Steps.ite (Steps.pure _) ?_
  exact (allocateMSHR_steps _ _ _).bind fun _ => Steps.pure _

theorem stallForLock_steps (event : Nat) (inMSHR : Bool) : Steps R (stallForLock event inMSHR) := by
  unfold stallForLock
  refine Steps.ite (Steps.pure _) ?_
  exact (allocateMSHR_steps _ _ _).bind fun _ => Steps.pure _

theorem beginReplay_steps (addr : Addr) (inMSHR : Bool) : Steps R (beginReplay addr inMSHR) :=
  (changeMshr_steps (fun _ _ h => .removePendingRetry h)).runIf

theorem stopWaiting_steps (oldAddr newAddr : Addr) : Steps R (stopWaiting oldAddr newAddr) := by
  unfold stopWaiting
  exact (removeEvictPointer_steps _ _).bind fun _ => (retry_steps _).runIf

theorem flushStatus_steps (event : Nat) (inMSHR : Bool) : Steps R (flushStatus event inMSHR) :=
  Steps.ite (Steps.pure _) (allocateMSHR_steps _ _ _)

theorem cleanUpAfterRequest_keeps {event : Nat} (hdel : Steps R (deleteEvent event))
    (inMSHR : Bool) :
    Steps R (cleanUpAfterRequest event inMSHR) := by
  unfold cleanUpAfterRequest
  refine (readEvent_steps _).bind fun ev => ?_
  refine (removeFront_steps _).runIf.bind fun _ => ?_
  exact hdel.bind fun _ => replayAfterRequest_steps _

end Bookkeeping

section Management

variable {R : MESIL1 P → MESIL1 P → Prop} [KeptByManagement R]

theorem deleteEvent_steps (p : Nat) : Steps R (deleteEvent p) := by
  refine changeState_steps fun s t h => ?_
  obtain ⟨ev, hev, rfl⟩ := map_eq_some_iff.1 h
  exact KeptByManagement.deleteEvent s p ev hev

theorem setMemFlags_steps (p : Nat) (flags : UInt32) :
    Steps R (modifyEvent p (fun req => { req with memFlags_ := flags }) :
      L1M P Unit) := by
  refine changeState_steps fun s t h => ?_
  obtain ⟨ev, hev, rfl⟩ := map_eq_some_iff.1 h
  exact KeptByManagement.setMemFlags s p ev flags hev

variable [IsPreorder (MESIL1 P) R]

theorem cleanUpAfterRequest_steps (event : Nat) (inMSHR : Bool) :
    Steps R (cleanUpAfterRequest event inMSHR) :=
  cleanUpAfterRequest_keeps (deleteEvent_steps event) _

theorem deleteRequest_steps (req : Option Nat) : Steps R (deleteRequest req) := by
  cases req with
  | none =>
    exact Steps.pure _
  | some p =>
    exact deleteEvent_steps p

theorem cleanUpAfterResponse_steps (event : Nat) : Steps R (cleanUpAfterResponse event) := by
  unfold cleanUpAfterResponse
  refine (readEvent_steps _).bind fun ev => ?_
  refine (askMshr_steps _).bind fun req => ?_
  refine (removeFront_steps _).bind fun _ => ?_
  refine (deleteEvent_steps _).bind fun _ => ?_
  exact (deleteRequest_steps _).bind fun _ => replayAfterResponse_steps _

end Management

section Lines

variable {R : MESIL1 P → MESIL1 P → Prop} [KeptByArray R]

theorem lookup_steps (addr : Addr) (updateReplacement : Bool) :
    Steps R (lookup addr updateReplacement) := by
  refine stepState_steps fun s a t h => ?_
  obtain ⟨r, -, hst⟩ := map_eq_some_iff.1 h
  cases hst
  exact KeptByArray.cacheArray s _

theorem modifyLine_steps (line : Option Nat) (f : L1CacheLine → L1CacheLine) :
    Steps R (modifyLine line f) := by
  refine changeState_steps fun s t h => ?_
  obtain ⟨i, -, rfl⟩ := map_eq_some_iff.1 h
  exact KeptByArray.cacheArray s _

theorem setLineData_steps (line : Option Nat) (bytes : List UInt8) (offset : Nat) :
    Steps R (setLineData line bytes offset) := by
  refine changeState_steps fun s t h => ?_
  obtain ⟨i, -, hi⟩ := bind_eq_some_iff.1 h
  split at hi
  · cases hi
    exact KeptByArray.cacheArray s _
  · cases hi

theorem recordPrefetchResult_steps (line : Option Nat) : Steps R (recordPrefetchResult line) :=
  modifyLine_steps _ _

variable [IsPreorder (MESIL1 P) R]

theorem chooseVictim_steps (addr : Addr) (line : Option Nat) :
    Steps R (chooseVictim addr line) := by
  cases line with
  | some i =>
    exact Steps.pure _
  | none =>
    refine stepState_steps fun s a t h => ?_
    obtain ⟨r, -, hst⟩ := map_eq_some_iff.1 h
    cases hst
    exact KeptByArray.cacheArray s _

theorem upgradeLastLevel_steps (line : Option Nat) (state : State) :
    Steps R (upgradeLastLevel line state) := by
  unfold upgradeLastLevel
  refine (ask_steps _).bind fun cfg => ?_
  refine Steps.ite ?_ (Steps.pure _)
  exact (modifyLine_steps _ _).bind fun _ => Steps.pure _

theorem startIfLoadLink_steps (req : MemEvent) (line : Option Nat) :
    Steps R (startIfLoadLink req line) := by
  unfold startIfLoadLink
  refine (ask_steps _).bind fun cfg => ?_
  exact (ask_steps _).bind fun now => (modifyLine_steps _ _).runIf

theorem flushRespAction_steps (line : Option Nat) (state : State) :
    Steps R (flushRespAction line state) := by
  unfold flushRespAction
  split
  · exact Steps.pure _
  · exact (modifyLine_steps _ _).bind fun _ => modifyLine_steps _ _
  · exact modifyLine_steps _ _
  · exact Steps.fail

end Lines

section LinesAndSends

variable {R : MESIL1 P → MESIL1 P → Prop}
  [IsPreorder (MESIL1 P) R] [KeptBySends R]

theorem sendResponseUp_steps {event : MemEvent} (hans : KeptByAnswers R event)
    (data : Option (List UInt8)) (inMSHR : Bool) (time : SimTime) (success : Bool) :
    Steps R (sendResponseUp event data inMSHR time success) := by
  unfold sendResponseUp
  refine (ask_steps _).bind fun cfg => ?_
  refine (ask_steps _).bind fun now => ?_
  refine (forwardByDestination_steps _ _).bind fun _ => ?_
  refine (changeState_steps (fun s t h => ?_)).bind fun _ => Steps.pure _
  cases h
  exact hans s event data success rfl

theorem fetchAction_steps (ev : MemEvent) (line : Option Nat) (state : State) :
    Steps R (fetchAction ev line state) := by
  unfold fetchAction
  split
  all_goals first
    | exact sendResponseDown_steps _ _ _
    | exact Steps.pure _
    | exact Steps.fail

variable [KeptByArray R] {req : MemEvent}

theorem answerRequest_steps (hans : KeptByAnswers R req)
    (line : Option Nat) (inMSHR : Bool) (success : Bool) :
    Steps R (answerRequest req line inMSHR success) := by
  unfold answerRequest
  refine (requestedBytes_steps _ _).bind fun data => ?_
  refine (readLine_steps _).bind fun l => ?_
  exact (sendResponseUp_steps hans _ _ _ _).bind fun _ => modifyLine_steps _ _

theorem forwardFlush_steps (event : MemEvent) (line : Option Nat) (evict : Bool) :
    Steps R (forwardFlush event line evict) := by
  unfold forwardFlush
  refine (ask_steps _).bind fun cfg => ?_
  refine (ask_steps _).bind fun base => ?_
  refine Steps.ite ?_ ?_
  · refine (readLine_steps _).bind fun l => ?_
    exact (forwardByAddress_steps _ _).bind fun _ => modifyLine_steps _ _
  · refine (forwardByAddress_steps _ _).bind fun _ => ?_
    exact (modifyLine_steps _ _).runIf

theorem sendWriteback_steps (cmd : Command) (line : Option Nat) (dirty : Bool) :
    Steps R (sendWriteback cmd line dirty) := by
  unfold sendWriteback
  refine (ask_steps _).bind fun cfg => ?_
  refine newID_steps.bind fun id => ?_
  refine (readLine_steps _).bind fun l => ?_
  refine (ask_steps _).bind fun base => ?_
  exact (forwardByAddress_steps _ _).bind fun _ => modifyLine_steps _ _

section

variable (ev : MemEvent) (line : Option Nat)

theorem invalidateLine_steps (data : Bool) (state : State) :
    Steps R (invalidateLine ev line data state) := by
  unfold invalidateLine
  refine (modifyLine_steps _ _).bind fun _ => ?_
  exact (sendResponseDown_steps _ _ _).bind fun _ => modifyLine_steps _ _

theorem invAction_steps (state : State) :
    Steps R (invAction ev line state) := by
  unfold invAction
  split
  all_goals first
    | exact invalidateLine_steps _ _ _ _
    | exact modifyLine_steps _ _
    | exact Steps.pure _
    | exact Steps.fail

theorem forceInvAction_steps (state : State) :
    Steps R (forceInvAction ev line state) := by
  unfold forceInvAction
  split
  all_goals first
    | exact invalidateLine_steps _ _ _ _
    | exact modifyLine_steps _ _
    | exact Steps.pure _
    | exact Steps.fail

theorem fetchInvAction_steps (state : State) :
    Steps R (fetchInvAction ev line state) := by
  unfold fetchInvAction
  split
  all_goals first
    | exact invalidateLine_steps _ _ _ _
    | exact modifyLine_steps _ _
    | exact Steps.pure _
    | exact Steps.fail

theorem fetchInvXAction_steps (state : State) :
    Steps R (fetchInvXAction ev line state) := by
  unfold fetchInvXAction
  split
  all_goals first
    | exact invalidateLine_steps _ _ _ _
    | exact Steps.pure _
    | exact Steps.fail

end

section

variable (hans : KeptByAnswers R req)
include hans

theorem answerRead_steps (line : Option Nat) : Steps R (answerRead req line) := by
  unfold answerRead
  refine (ask_steps _).bind fun cfg => ?_
  exact Steps.ite (modifyLine_steps _ _) (answerRequest_steps hans _ _ _)

theorem fillShared_steps (ev : MemEvent) (line : Option Nat) :
    Steps R (fillShared ev req line) := by
  unfold fillShared
  refine (ask_steps _).bind fun cfg => ?_
  refine (setLineData_steps _ _ _).bind fun _ => ?_
  refine (modifyLine_steps _ _).bind fun _ => ?_
  exact (startIfLoadLink_steps _ _).bind fun _ => answerRead_steps hans _

theorem grantExclusive_steps (line : Option Nat) : Steps R (grantExclusive req line) := by
  unfold grantExclusive
  refine (modifyLine_steps _ _).bind fun _ => ?_
  refine (readLine_steps _).bind fun l => ?_
  refine Steps.ite ?_ ?_
  · refine ((setLineData_steps _ _ _).bind (fun _ => modifyLine_steps _ _)).runIf.bind (fun _ => ?_)
    exact (modifyLine_steps _ _).runIf.bind fun _ => answerRequest_steps hans _ _ _
  · exact (modifyLine_steps _ _).bind fun _ => answerRequest_steps hans _ _ _

theorem getXRespAction_steps (ev : MemEvent) (line : Option Nat) (state : State) :
    Steps R (getXRespAction ev req line state) := by
  unfold getXRespAction
  split
  · exact fillShared_steps hans _ _
  · exact (setLineData_steps _ _ _).bind fun _ => grantExclusive_steps hans _
  · exact grantExclusive_steps hans _
  · exact Steps.fail

end

end LinesAndSends

section Handlers

variable {R : MESIL1 P → MESIL1 P → Prop} {ev : MemEvent} {event : Nat}

theorem wlp_withEvent {α : Type} {s : MESIL1 P} {f : MemEvent → L1M P α}
    (hev : s.heap event = some ev) (h : Steps R (f ev)) :
    wlp (readEvent event >>= f) (fun _ t => R s t) s := by
  rw [wlp_bind]
  refine wlp_readState.2 fun ev' hev' => ?_
  cases hev.symm.trans hev'
  exact h s

variable [IsPreorder (MESIL1 P) R]

theorem wlp_withLine [KeptByArray R] {α : Type} {s : MESIL1 P}
    {f : MemEvent → Option Nat → State → L1M P α} {update : Bool} (hev : s.heap event = some ev)
    (h : ∀ line state, Steps R (f ev line state)) :
    wlp (do
        let ev ← readEvent event
        let line ← lookup ev.baseAddr_ update
        let state ← stateOf line
        f ev line state)
      (fun _ t => R s t) s := by
  refine wlp_withEvent hev ?_
  refine (lookup_steps _ _).bind fun line => ?_
  exact (ask_steps _).bind fun state => h line state

variable [KeptByBookkeeping R]

theorem waitForEviction_steps (oldAddr newAddr : Addr) (victim : Nat) :
    Steps R (waitForEviction oldAddr newAddr victim) := by
  unfold waitForEviction
  refine (readLine_steps _).bind fun l => ?_
  refine (ask_steps _).bind fun now => ?_
  exact ((insertEviction_steps _ _ _).bind (fun _ => stopWaiting_steps _ _)).runIf

theorem finishEviction_steps [KeptByArray R] (oldAddr newAddr : Addr) (victim : Nat) :
    Steps R (finishEviction oldAddr newAddr victim) := by
  unfold finishEviction
  refine (changeState_steps (fun s t h => ?_)).bind fun _ => ?_
  · cases h
    exact KeptByArray.cacheArray s _
  · refine (askMshr_steps _).bind fun front => ?_
    exact (scheduleEvent_steps _ _).bind fun _ => stopWaiting_steps _ _

variable [KeptBySends R]

theorem failFlush_steps (hdel : Steps R (deleteEvent event)) (hans : KeptByAnswers R ev)
    (line : Option Nat) (inMSHR : Bool) :
    Steps R (failFlush event ev line inMSHR) := by
  unfold failFlush
  refine (checkProfiled_steps _ _).bind fun _ => ?_
  refine (readLine_steps _).bind fun l => ?_
  exact (sendResponseUp_steps hans _ _ _ _).bind
    (fun _ => cleanUpAfterRequest_keeps hdel _)

variable [KeptByArray R]

theorem writebackLine_steps (line : Option Nat) (l : L1CacheLine) :
    Steps R (writebackLine line l) := by
  unfold writebackLine
  refine (ask_steps _).bind fun cfg => ?_
  refine ((sendWriteback_steps _ _ _).bind (fun _ => ?_)).runIf
  refine ((ask_steps _).bind (fun now => ?_)).runIf
  refine changeMshr_steps fun m t h => ?_
  cases h
  exact .insertWriteback _ _ _ _

theorem evictLine_steps (victim : Nat) (l : L1CacheLine) : Steps R (evictLine victim l) := by
  unfold evictLine
  refine (writebackLine_steps _ _).bind fun _ => ?_
  refine (modifyLine_steps _ _).bind fun _ => ?_
  exact (modifyLine_steps _ _).bind fun _ => recordPrefetchResult_steps _

theorem handleEviction_steps (addr : Addr) (line : Option Nat) :
    Steps R (handleEviction addr line) := by
  unfold handleEviction
  refine (chooseVictim_steps _ _).bind fun victim => ?_
  refine (readLine_steps _).bind fun l => ?_
  refine (ask_steps _).bind fun now => ?_
  refine (ask_steps _).bind fun retries => ?_
  refine Steps.ite (Steps.pure _) ?_
  split
  all_goals first
    | exact Steps.pure _
    | exact Steps.ite (Steps.pure _)
        ((evictLine_steps _ _).bind (fun _ => Steps.pure _))

theorem allocateLine_steps (ev : MemEvent) : Steps R (allocateLine ev) := by
  unfold allocateLine
  refine (handleEviction_steps _ _).bind fun evicted => ?_
  refine Steps.ite ?_ ?_
  · refine (changeState_steps (fun s t h => ?_)).bind fun _ => Steps.pure _
    obtain ⟨c, -, rfl⟩ := map_eq_some_iff.1 h
    exact KeptByArray.cacheArray s _
  · refine (readLine_steps _).bind fun l => ?_
    refine (ask_steps _).bind fun now => ?_
    exact (insertEviction_steps _ _ _).bind fun _ => Steps.pure _

theorem processCacheMiss_steps (event : Nat) (line : Option Nat) (inMSHR : Bool) :
    Steps R (processCacheMiss event line inMSHR) := by
  unfold processCacheMiss
  refine (readEvent_steps _).bind fun ev => ?_
  refine (missStatus_steps _ _ _).bind fun status => ?_
  refine Steps.ite ?_ (Steps.pure _)
  exact (allocateLine_steps _).bind fun _ => Steps.pure _

theorem issueMiss_steps (ev : MemEvent) (line : Option Nat) (fwdCmd : Option Command)
    (state : State) (upgrade : Bool) :
    Steps R (issueMiss ev line fwdCmd state upgrade) := by
  unfold issueMiss
  refine (ask_steps _).bind fun cfg => ?_
  refine (askMshr_steps _).bind fun profiled => ?_
  refine (changeMshr_steps (fun _ _ h => .setProfiled h)).runIf.bind (fun _ => ?_)
  refine (recordPrefetchResult_steps _).runIf.bind fun _ => ?_
  refine (forwardMessage_steps _ _ _ _).bind fun sendTime => ?_
  refine (modifyLine_steps _ _).bind fun _ => ?_
  refine (modifyLine_steps _ _).bind fun _ => ?_
  exact changeMshr_steps fun _ _ h => .setInProgress h

variable {event : Nat} {ev : MemEvent} {s : MESIL1 P}

theorem issueFlushLine_steps (event : Nat) (ev : MemEvent) (line : Option Nat) (state : State)
    (inMSHR : Bool) :
    Steps R (issueFlushLine event ev line state inMSHR) := by
  unfold issueFlushLine
  refine (flushStatus_steps _ _).bind fun status => ?_
  refine Steps.ite (Steps.pure _) ?_
  refine (askMshr_steps _).bind fun profiled => ?_
  refine (changeMshr_steps (fun _ _ h => .setProfiled h)).runIf.bind (fun _ => ?_)
  refine (changeMshr_steps (fun _ _ h => .setInProgress h)).bind (fun _ => ?_)
  refine (forwardFlush_steps _ _ _).bind fun _ => ?_
  exact (modifyLine_steps _ _).runIf.bind fun _ => Steps.pure _

theorem issueFlushLineInv_steps (event : Nat) (ev : MemEvent) (line : Option Nat) (state : State)
    (inMSHR : Bool) :
    Steps R (issueFlushLineInv event ev line state inMSHR) := by
  unfold issueFlushLineInv
  refine (flushStatus_steps _ _).bind fun status => ?_
  refine Steps.ite (Steps.pure _) ?_
  refine (changeMshr_steps (fun _ _ h => .setInProgress h)).bind (fun _ => ?_)
  refine (askMshr_steps _).bind fun profiled => ?_
  refine ((recordPrefetchResult_steps _).runIf.bind
    (fun _ => changeMshr_steps (fun _ _ h => .setProfiled h))).runIf.bind (fun _ => ?_)
  refine (forwardFlush_steps _ _ _).bind fun _ => ?_
  exact (modifyLine_steps _ _).runIf.bind fun _ => Steps.pure _

section

variable (hev : s.heap event = some ev) (hdel : Steps R (deleteEvent event))
variable (hans : KeptByAnswers R ev)
include hev

theorem handleForceInv_keeps (inMSHR : Bool) :
    wlp (handleForceInv event inMSHR) (fun _ t => R s t) s := by
  unfold handleForceInv finishForceInv
  refine wlp_withLine hev fun line state => ?_
  refine (beginReplay_steps _ _).bind fun _ => ?_
  refine (snoopInvalidation_steps _ _).bind fun _ => ?_
  refine (ask_steps _).bind fun locked => ?_
  refine Steps.ite (stallForLock_steps _ _) ?_
  refine (forceInvAction_steps _ _ _).bind fun _ => ?_
  exact (recordPrefetchResult_steps _).runIf.bind fun _ => Steps.pure _

include hdel

theorem handleFetch_keeps (inMSHR : Bool) :
    wlp (handleFetch event inMSHR) (fun _ t => R s t) s := by
  unfold handleFetch
  refine wlp_withLine hev fun line state => ?_
  refine (snoopInvalidation_steps _ _).bind fun _ => ?_
  refine (beginReplay_steps _ _).bind fun _ => ?_
  refine (fetchAction_steps _ _ _).bind fun _ => ?_
  exact hdel.bind fun _ => Steps.pure _

theorem handleInv_keeps (inMSHR : Bool) :
    wlp (handleInv event inMSHR) (fun _ t => R s t) s := by
  unfold handleInv
  refine wlp_withLine hev fun line state => ?_
  refine (beginReplay_steps _ _).bind fun _ => ?_
  refine (snoopInvalidation_steps _ _).bind fun _ => ?_
  refine (recordPrefetchResult_steps _).runIf.bind fun _ => ?_
  refine (invAction_steps _ _ _).bind fun _ => ?_
  exact hdel.bind fun _ => Steps.pure _

theorem handleFetchInv_keeps (inMSHR : Bool) :
    wlp (handleFetchInv event inMSHR) (fun _ t => R s t) s := by
  unfold handleFetchInv finishFetchInv
  refine wlp_withLine hev fun line state => ?_
  refine (beginReplay_steps _ _).bind fun _ => ?_
  refine (snoopInvalidation_steps _ _).bind fun _ => ?_
  refine (ask_steps _).bind fun locked => ?_
  refine Steps.ite (stallForLock_steps _ _) ?_
  refine (fetchInvAction_steps _ _ _).bind fun _ => ?_
  refine (recordPrefetchResult_steps _).runIf.bind fun _ => ?_
  exact hdel.bind fun _ => Steps.pure _

theorem handleFetchInvX_keeps (inMSHR : Bool) :
    wlp (handleFetchInvX event inMSHR) (fun _ t => R s t) s := by
  unfold handleFetchInvX finishFetchInvX
  refine wlp_withLine hev fun line state => ?_
  refine (beginReplay_steps _ _).bind fun _ => ?_
  refine (snoopInvalidation_steps _ _).bind fun _ => ?_
  refine (ask_steps _).bind fun locked => ?_
  refine Steps.ite (stallForLock_steps _ _) ?_
  refine (fetchInvXAction_steps _ _ _).bind fun _ => ?_
  exact (Steps.ite (cleanUpAfterRequest_keeps hdel _) hdel).bind fun _ => Steps.pure _

omit hev
include hans

section

variable (line : Option Nat) (inMSHR : Bool)

theorem hitGetS_steps : Steps R (hitGetS event ev line inMSHR) := by
  unfold hitGetS
  refine (ask_steps _).bind fun cfg => ?_
  refine (ask_steps _).bind fun now => ?_
  refine (checkProfiled_steps _ _).bind fun _ => ?_
  refine Steps.ite (cleanUpAfterRequest_keeps hdel _) ?_
  refine (recordPrefetchResult_steps _).bind fun _ => ?_
  refine (modifyLine_steps _ _).runIf.bind fun _ => ?_
  exact (answerRequest_steps hans _ _ _).bind
    (fun _ => cleanUpAfterRequest_keeps hdel _)

theorem hitGetX_steps : Steps R (hitGetX event ev line inMSHR) := by
  unfold hitGetX
  refine (recordPrefetchResult_steps _).bind fun _ => ?_
  refine (checkProfiled_steps _ _).bind fun _ => ?_
  refine (readLine_steps _).bind fun l => ?_
  refine ((setLineData_steps _ _ _).bind (fun _ => modifyLine_steps _ _)).runIf.bind (fun _ => ?_)
  refine (modifyLine_steps _ _).runIf.bind fun _ => ?_
  refine (sendResponseUp_steps ?_ _ _ _ _).bind fun sendTime => ?_
  · exact fun s r data success hr => hans s r data success (hr.trans (by split <;> rfl))
  · exact (modifyLine_steps _ _).bind fun _ => cleanUpAfterRequest_keeps hdel _

theorem hitGetSX_steps : Steps R (hitGetSX event ev line inMSHR) := by
  unfold hitGetSX
  refine (recordPrefetchResult_steps _).bind fun _ => ?_
  refine (checkProfiled_steps _ _).bind fun _ => ?_
  refine (modifyLine_steps _ _).bind fun _ => ?_
  refine (requestedBytes_steps _ _).bind fun data => ?_
  refine Steps.ite ?_ Steps.fail
  refine (readLine_steps _).bind fun l => ?_
  refine (sendResponseUp_steps hans _ _ _ _).bind fun sendTime => ?_
  exact (modifyLine_steps _ _).bind fun _ => cleanUpAfterRequest_keeps hdel _

end

theorem startFlushLineInv_steps (line : Option Nat) (state : State) (inMSHR : Bool) :
    Steps R (startFlushLineInv event ev line state inMSHR) := by
  unfold startFlushLineInv
  refine (ask_steps _).bind fun locked => ?_
  refine Steps.ite ?_ (issueFlushLineInv_steps _ _ _ _ _)
  exact (failFlush_steps hdel hans _ _).bind fun _ => Steps.pure _

include hev

section

variable (inMSHR : Bool)

theorem handleGetS_keeps : wlp (handleGetS event inMSHR) (fun _ t => R s t) s := by
  unfold handleGetS
  refine wlp_withLine hev fun line state => ?_
  refine (beginReplay_steps _ _).bind fun _ => ?_
  split
  · refine (processCacheMiss_steps _ _ _).bind fun status => ?_
    refine ((lookup_steps _ _).bind (fun line => ?_)).runIf.bind
      (fun _ => Steps.pure _)
    exact issueMiss_steps _ _ _ _ _
  all_goals first
    | exact (hitGetS_steps hdel hans _ _).bind (fun _ => Steps.pure _)
    | exact stallInMshr_steps _ _

theorem handleGetX_keeps : wlp (handleGetX event inMSHR) (fun _ t => R s t) s := by
  unfold handleGetX
  refine wlp_withLine hev fun line found => ?_
  refine (beginReplay_steps _ _).bind fun _ => ?_
  refine (upgradeLastLevel_steps _ _).bind fun state => ?_
  split
  · refine (processCacheMiss_steps _ _ _).bind fun status => ?_
    refine ((lookup_steps _ _).bind (fun line => ?_)).runIf.bind
      (fun _ => Steps.pure _)
    exact issueMiss_steps _ _ _ _ _
  · refine (processCacheMiss_steps _ _ _).bind fun status => ?_
    exact (issueMiss_steps _ _ _ _ _).runIf.bind fun _ => Steps.pure _
  · refine (modifyLine_steps _ _).bind fun _ => ?_
    exact (hitGetX_steps hdel hans _ _).bind fun _ => Steps.pure _
  · exact (hitGetX_steps hdel hans _ _).bind fun _ => Steps.pure _
  · exact stallInMshr_steps _ _

theorem handleGetSX_keeps : wlp (handleGetSX event inMSHR) (fun _ t => R s t) s := by
  unfold handleGetSX
  refine wlp_withLine hev fun line found => ?_
  refine (beginReplay_steps _ _).bind fun _ => ?_
  refine (upgradeLastLevel_steps _ _).bind fun state => ?_
  split
  · refine (processCacheMiss_steps _ _ _).bind fun status => ?_
    exact (issueMiss_steps _ _ _ _ _).runIf.bind fun _ => Steps.pure _
  · refine (processCacheMiss_steps _ _ _).bind fun status => ?_
    exact (issueMiss_steps _ _ _ _ _).runIf.bind fun _ => Steps.pure _
  · refine (modifyLine_steps _ _).bind fun _ => ?_
    exact (hitGetSX_steps hdel hans _ _).bind fun _ => Steps.pure _
  · exact (hitGetSX_steps hdel hans _ _).bind fun _ => Steps.pure _
  · exact stallInMshr_steps _ _

theorem handleFlushLine_keeps : wlp (handleFlushLine event inMSHR) (fun _ t => R s t) s := by
  unfold handleFlushLine
  refine wlp_withLine hev fun line state => ?_
  refine (ask_steps _).bind fun waiting => ?_
  refine Steps.ite ?_ ?_
  · exact (allocateMSHR_steps _ _ _).bind fun _ => Steps.pure _
  · refine (beginReplay_steps _ _).bind fun _ => ?_
    refine (ask_steps _).bind fun locked => ?_
    refine Steps.ite ?_ (issueFlushLine_steps _ _ _ _ _)
    exact (failFlush_steps hdel hans _ _).bind fun _ => Steps.pure _

theorem handleFlushLineInv_keeps : wlp (handleFlushLineInv event inMSHR) (fun _ t => R s t) s := by
  unfold handleFlushLineInv
  refine wlp_withLine hev fun line state => ?_
  refine (ask_steps _).bind fun waiting => ?_
  refine Steps.ite ?_ (Steps.ite ?_ (startFlushLineInv_steps hdel hans _ _ _))
  · exact (allocateMSHR_steps _ _ _).bind fun _ => Steps.pure _
  · refine (beginReplay_steps _ _).bind fun _ => ?_
    refine (askMshr_steps _).bind fun front => ?_
    exact Steps.ite (startFlushLineInv_steps hdel hans _ _ _) (Steps.pure _)

end

end

theorem handleNULLCMD_keeps (hev : s.heap event = some ev) (hdel : Steps R (deleteEvent event)) :
    wlp (handleNULLCMD event) (fun _ t => R s t) s := by
  unfold handleNULLCMD
  refine wlp_withEvent hev ?_
  refine (lookup_steps _ _).bind fun line => ?_
  refine (handleEviction_steps _ _).bind fun evicted => ?_
  refine (Steps.ite (finishEviction_steps _ _ _) (waitForEviction_steps _ _ _)).bind
    (fun _ => ?_)
  exact hdel.bind fun _ => Steps.pure _

end Handlers

end MESIL1

end SstElements.MemHierarchy
