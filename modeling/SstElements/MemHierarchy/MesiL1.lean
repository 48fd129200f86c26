import SstElements.MemHierarchy.CoherenceController

/-!
# The MESI coherence manager of an L1 cache

The event handlers of `MESIL1`, as the source has them.  A handler gets the
pointer of its event and whether the event is replayed from the MSHR, and
returns whether it accepted the event.

The parts that several handlers share are functions of their own: `issueMiss`
is what a miss does once it has an MSHR entry and a line, `stallInMshr` is the
default case of the requests, `stallForLock` is the case of a locked line, and
`scheduleEvictions` is the loop that replays the evictions waiting for a line.

In each step of a run the manager handles one event: a new one, or one from the
retry buffer, in any order.  An event that is not accepted stays in the buffer it
was in.  Between two events time may pass.  `processEvent` is
`Cache::processEvent` for cacheable events.  The arbitration for banks and the
number of events in a cycle only restrict the order of the steps.
-/

namespace SstElements.MemHierarchy

section Handlers

open Library

namespace MemEvent

/-- A load that starts an atomic sequence. -/
def isLoadLink (e : MemEvent) : Bool := decide (e.cmd_ = .GetS) && e.queryFlag F_LLSC

/-- A store that succeeds only in an atomic sequence. -/
def isStoreConditional (e : MemEvent) : Bool :=
  (decide (e.cmd_ = .GetX) || decide (e.cmd_ = .Write)) && e.queryFlag F_LLSC

/-- `getPayload` enlarges the payload to the size of the event. -/
def fillPayload (e : MemEvent) : MemEvent := { e with payload_ := e.getPayload }

def lineOffset (e : MemEvent) : Nat := (e.addr_ - e.baseAddr_).toNat

end MemEvent

namespace MESIL1

variable {P : ReplacementPolicy}

section Sending

/-- `sendResponseUp`: returns when the line can be accessed again. -/
def sendResponseUp (event : MemEvent) (data : Option (List UInt8))
    (inMSHR : Bool) (time : SimTime) (success : Bool) : L1M P SimTime := do
  let cfg ← ask MESIL1.config
  let now ← ask MESIL1.timestamp_
  let response := event.makeResponse
  let withData :=
    match data with
    | some bytes => response.setPayload bytes
    | none => response
  let responseEvent := if success then withData else withData.setFail
  let latency :=
    if data.isSome then cfg.accessLatency_
    else if inMSHR then cfg.mshrLatency_ else cfg.tagLatency_
  let deliveryTime := latency + (if time < now then now else time)
  forwardByDestination responseEvent deliveryTime
  changeState (fun s => some { s with
    answers := s.answers ++ [⟨event, data, success⟩] })
  pure deliveryTime

def answerRequest (req : MemEvent) (line : Option Nat) (inMSHR : Bool)
    (success : Bool) : L1M P Unit := do
  let data ← requestedBytes line req
  let l ← readLine line
  let sendTime ←
    sendResponseUp req (some data) inMSHR l.lastSendTimestamp_ success
  modifyLine line (fun l => l.setTimestamp (sendTime - 1))

def sendResponseDown (event : MemEvent) (line : Option Nat) (data : Bool) : L1M P Unit := do
  let cfg ← ask MESIL1.config
  let now ← ask MESIL1.timestamp_
  if data then do
    let l ← readLine line
    let responseEvent := event.makeResponse.setPayload l.data_
    forwardByDestination
      { responseEvent with
        dirty_ := decide (l.state_ = .M) || responseEvent.dirty_
        size_ := cfg.lineSize_.toUInt32 }
      (now + cfg.accessLatency_)
  else
    forwardByDestination
      { event.makeResponse with size_ := cfg.lineSize_.toUInt32 }
      (now + cfg.tagLatency_)

/-- The time of the line, if there is one, or the current time if later. -/
def baseTime (line : Option Nat) : L1M P SimTime :=
  ask (fun s =>
    line.elim s.timestamp_ (fun i =>
      let t := (s.cacheArray_.lines_ i).lastSendTimestamp_
      if s.timestamp_ < t then t else s.timestamp_))

/-- `forwardFlush`: with the data of the line if it is given up or cleaned. -/
def forwardFlush (event : MemEvent) (line : Option Nat) (evict : Bool) : L1M P Unit := do
  let cfg ← ask MESIL1.config
  let base ← baseTime line
  if evict then do
    let l ← readLine line
    let deliveryTime := base + cfg.accessLatency_
    forwardByAddress
      { event.setPayload l.data_ with
        isEvict_ := true, dirty_ := decide (l.state_ = .M) }
      deliveryTime
    modifyLine line (fun l => l.setTimestamp (deliveryTime - 1))
  else do
    let deliveryTime := base + cfg.tagLatency_
    forwardByAddress (event.setPayload []) deliveryTime
    runIf line.isSome
      (modifyLine line (fun l => l.setTimestamp (deliveryTime - 1)))

def sendWriteback (cmd : Command) (line : Option Nat) (dirty : Bool) : L1M P Unit := do
  let cfg ← ask MESIL1.config
  let id ← newID
  let l ← readLine line
  let base ← baseTime line
  let writeback : MemEvent :=
    { MemEvent.new id cfg.cachename_ l.addr_ l.addr_ cmd with
      size_ := cfg.lineSize_.toUInt32 }
  let withData := dirty || cfg.writebackCleanBlocks_
  let event : MemEvent :=
    if withData then { writeback.setPayload l.data_ with dirty_ := dirty }
    else writeback
  let deliveryTime := base + (if withData then cfg.accessLatency_ else cfg.tagLatency_)
  forwardByAddress { event with rqstr_ := cfg.cachename_ } deliveryTime
  modifyLine line (fun l => l.setTimestamp (deliveryTime - 1))

/-- The loop of `snoopInvalidation` over the cores. -/
def snoopCores (event : MemEvent) (ts : SimTime) : List String → L1M P Unit
  | [] => pure ()
  | core :: rest => do
      let cfg ← ask MESIL1.config
      let id ← newID
      forwardByDestination
        { MemEvent.new id cfg.cachename_ event.addr_ event.baseAddr_ .Inv with
          dst_ := core }
        ts
      snoopCores event ts rest

/-- `snoopInvalidation`: tell the cores that a line may be lost. -/
def snoopInvalidation (event : MemEvent) (line : Option Nat) : L1M P Unit := do
  let cfg ← ask MESIL1.config
  let base ← baseTime line
  runIf (cfg.snoopL1Invs_ && line.isSome)
    (snoopCores event (base + cfg.tagLatency_) cfg.cpus)

/-- `recordPrefetchResult`: the line is no longer a prefetched one. -/
def recordPrefetchResult (line : Option Nat) : L1M P Unit :=
  modifyLine line (fun l => l.setPrefetch false)

end Sending

section Management

/-- Replay the evictions of a line that wait for it. -/
def scheduleEvictions (addr : Addr) : List Addr → L1M P Unit
  | [] => pure ()
  | newAddr :: rest => do
      let cfg ← ask MESIL1.config
      let id ← newID
      let ev ← newEvent (MemEvent.new id cfg.cachename_ addr newAddr .NULLCMD)
      pushRetry ev
      scheduleEvictions addr rest

/-- Replay the event at the front of an address. -/
def scheduleEvent (addr : Addr) (event : Nat) : L1M P Unit := do
  pushRetry event
  changeMshr (fun m => m.addPendingRetry addr)

/-- What `cleanUpAfterRequest` replays. -/
def replayAfterRequest (addr : Addr) : L1M P Unit := do
  let waiting ← ask (fun s => s.mshr_.exists? addr)
  if waiting then do
    let front ← askMshr (fun m => m.getFront addr)
    match front.body with
    | .event event => do
        let issued ← ask (fun s => s.mshr_.getInProgress addr)
        runIf (!issued) (scheduleEvent addr event)
    | .evict evictPtrs => scheduleEvictions addr evictPtrs
    | .writeback _ => pure ()
  else pure ()

/-- What `cleanUpAfterResponse` replays: a writeback at the front is fatal. -/
def replayAfterResponse (addr : Addr) : L1M P Unit := do
  let waiting ← ask (fun s => s.mshr_.exists? addr)
  if waiting then do
    let front ← askMshr (fun m => m.getFront addr)
    match front.body with
    | .event event => do
        let issued ← ask (fun s => s.mshr_.getInProgress addr)
        runIf (!issued) (scheduleEvent addr event)
    | .evict evictPtrs => scheduleEvictions addr evictPtrs
    | .writeback _ => fail
  else pure ()

def cleanUpAfterRequest (event : Nat) (inMSHR : Bool) : L1M P Unit := do
  let ev ← readEvent event
  runIf inMSHR (changeMshr (fun m => m.removeFront ev.baseAddr_))
  deleteEvent event
  replayAfterRequest ev.baseAddr_

def deleteRequest : Option Nat → L1M P Unit
  | some req => deleteEvent req
  | none => pure ()

/-- `cleanUpAfterResponse`: the request at the front is answered. -/
def cleanUpAfterResponse (event : Nat) : L1M P Unit := do
  let ev ← readEvent event
  let req ← askMshr (fun m => m.getFrontEvent ev.baseAddr_)
  changeMshr (fun m => m.removeFront ev.baseAddr_)
  deleteEvent event
  deleteRequest req
  replayAfterResponse ev.baseAddr_

/-- `retry`: replay the next event of an address. -/
def retry (addr : Addr) : L1M P Unit := do
  let waiting ← ask (fun s => s.mshr_.exists? addr)
  if waiting then do
    let front ← askMshr (fun m => m.getFront addr)
    match front.body with
    | .event event => scheduleEvent addr event
    | .evict evictPtrs => scheduleEvictions addr evictPtrs
    | .writeback _ => pure ()
  else pure ()

def writebackLine (line : Option Nat) (l : L1CacheLine) : L1M P Unit := do
  let cfg ← ask MESIL1.config
  let cmd : Command :=
    match l.state_ with
    | .S => .PutS
    | .E => .PutE
    | _ => .PutM
  let dirty := decide (l.state_ = .M)
  runIf (dirty || !cfg.silentEvictClean_) (do
    sendWriteback cmd line dirty
    runIf cfg.recvWritebackAck_ (do
      let now ← ask MESIL1.simCycle
      changeMshr (fun m => some (m.insertWriteback l.addr_ false now))))

/-- The line to evict: the given one, or a victim for the address. -/
def chooseVictim (addr : Addr) : Option Nat → L1M P Nat
  | some i => pure i
  | none => stepState (fun s =>
    (s.cacheArray_.findReplacementCandidate addr).map
      (fun r => (r.1, { s with cacheArray_ := r.2 })))

/-- Write a valid line back and give it up. -/
def evictLine (victim : Nat) (l : L1CacheLine) : L1M P Unit := do
  writebackLine (some victim) l
  modifyLine (some victim) (fun l => l.setState .I)
  modifyLine (some victim) (fun l => l.atomicEnd)
  recordPrefetchResult (some victim)

/--
`handleEviction`: evict the line, or a victim for the address if it is null.
Returns whether that succeeded, and the line.
-/
def handleEviction (addr : Addr) (line : Option Nat) : L1M P (Bool × Nat) := do
  let victim ← chooseVictim addr line
  let l ← readLine (some victim)
  let now ← ask MESIL1.timestamp_
  let retries ← ask (fun s => s.mshr_.getPendingRetries l.addr_)
  if l.isLocked now then pure (false, victim)
  else
    match l.state_ with
    | .I => pure (true, victim)
    | .S | .E | .M =>
      -- with a retry pending, S falls through to E, E to M and M to the end
      if retries ≠ 0 then pure (false, victim)
      else do
        evictLine victim l
        pure (true, victim)
    | _ => pure (false, victim)

/-- `allocateLine`: null if the eviction has to wait. -/
def allocateLine (ev : MemEvent) : L1M P (Option Nat) := do
  let evicted ← handleEviction ev.baseAddr_ none
  if evicted.1 then do
    changeState (fun s =>
      (s.cacheArray_.replace ev.baseAddr_ evicted.2).map (fun c => { s with cacheArray_ := c }))
    pure (some evicted.2)
  else do
    let l ← readLine (some evicted.2)
    let now ← ask MESIL1.simCycle
    changeMshr (fun m => some (m.insertEviction l.addr_ ev.baseAddr_ now))
    pure none

/-- The MSHR part of `processCacheMiss`: only the front event may go on. -/
def missStatus (event : Nat) (ev : MemEvent) (inMSHR : Bool) : L1M P MemEventStatus := do
  if inMSHR then do
    let front ← askMshr (fun m => m.getFrontEvent ev.baseAddr_)
    pure (if front = some event then .OK else .Stall)
  else allocateMSHR event false (-1)

def processCacheMiss (event : Nat) (line : Option Nat) (inMSHR : Bool) : L1M P MemEventStatus := do
  let ev ← readEvent event
  let status ← missStatus event ev inMSHR
  if status = .OK && line.isNone then do
    let allocated ← allocateLine ev
    pure (if allocated.isSome then .OK else .Stall)
  else pure status

/-- What a miss does with an MSHR entry and a line. -/
def issueMiss (ev : MemEvent) (line : Option Nat) (fwdCmd : Option Command)
    (state : State) (upgrade : Bool) : L1M P Unit := do
  let cfg ← ask MESIL1.config
  let profiled ← askMshr (fun m => m.getProfiled ev.baseAddr_)
  runIf (!profiled) (changeMshr (fun m => m.setProfiled ev.baseAddr_))
  runIf upgrade (recordPrefetchResult line)
  let sendTime ← forwardMessage ev cfg.lineSize_.toUInt32 0 fwdCmd
  modifyLine line (fun l => l.setState state)
  modifyLine line (fun l => l.setTimestamp sendTime)
  changeMshr (fun m => m.setInProgress ev.baseAddr_ true)

/-- A request that has to wait for the line. -/
def stallInMshr (event : Nat) (inMSHR : Bool) : L1M P Bool := do
  if inMSHR then pure true
  else do
    let status ← allocateMSHR event false (-1)
    pure (status ≠ .Reject)

/-- A forwarded request that finds the line locked goes to the front. -/
def stallForLock (event : Nat) (inMSHR : Bool) : L1M P Bool := do
  if inMSHR then pure true
  else do
    let status ← allocateMSHR event true 0
    pure (status ≠ .Reject)

/-- The test whether a replayed event was profiled, fatal without an entry. -/
def checkProfiled (addr : Addr) (inMSHR : Bool) : L1M P Unit := do
  runIf inMSHR (do
    let _ ← askMshr (fun m => m.getProfiled addr)
    pure ())

/-- A replayed event is no longer a pending retry. -/
def beginReplay (addr : Addr) (inMSHR : Bool) : L1M P Unit :=
  runIf inMSHR (changeMshr (fun m => m.removePendingRetry addr))

def upgradeLastLevel (line : Option Nat) (state : State) : L1M P State := do
  let cfg ← ask MESIL1.config
  if state = .S && cfg.lastLevel_ then do
    modifyLine line (fun l => l.setState .M)
    pure .M
  else pure state

end Management

section Requests

/-- `handleGetS` on a readable line. -/
def hitGetS (event : Nat) (ev : MemEvent) (line : Option Nat) (inMSHR : Bool) : L1M P Unit := do
  let cfg ← ask MESIL1.config
  let now ← ask MESIL1.timestamp_
  checkProfiled ev.baseAddr_ inMSHR
  if isLocalPrefetch cfg ev then cleanUpAfterRequest event inMSHR
  else do
    recordPrefetchResult line
    runIf ev.isLoadLink
      (modifyLine line (fun l => l.atomicStart (now + cfg.llscBlockCycles_)))
    answerRequest ev line inMSHR true
    cleanUpAfterRequest event inMSHR

def handleGetS (event : Nat) (inMSHR : Bool) : L1M P Bool := do
  let ev ← readEvent event
  let line ← lookup ev.baseAddr_ true
  let state ← stateOf line
  beginReplay ev.baseAddr_ inMSHR
  match state with
  | .I => do
      let status ← processCacheMiss event line inMSHR
      runIf (status = .OK) (do
        let line ← lookup ev.baseAddr_ false
        issueMiss ev line none .IS false)
      pure (status ≠ .Reject)
  | .S | .E | .M => do
      hitGetS event ev line inMSHR
      pure true
  | _ => stallInMshr event inMSHR

/-- `handleGetX` on a line in M. -/
def hitGetX (event : Nat) (ev : MemEvent) (line : Option Nat) (inMSHR : Bool) : L1M P Unit := do
  recordPrefetchResult line
  checkProfiled ev.baseAddr_ inMSHR
  let l ← readLine line
  let success := !ev.isStoreConditional || l.LLSCAtomic_
  runIf success (do
    setLineData line ev.getPayload ev.lineOffset
    modifyLine line (fun l => l.atomicEnd))
  runIf (ev.queryFlag MemEvent.F_LOCKED) (modifyLine line (fun l => l.decLock))
  let sendTime ←
    sendResponseUp (if success then ev.fillPayload else ev) none inMSHR
      l.lastSendTimestamp_ success
  modifyLine line (fun l => l.setTimestamp (sendTime - 1))
  cleanUpAfterRequest event inMSHR

def handleGetX (event : Nat) (inMSHR : Bool) : L1M P Bool := do
  let ev ← readEvent event
  let line ← lookup ev.baseAddr_ true
  let found ← stateOf line
  beginReplay ev.baseAddr_ inMSHR
  let state ← upgradeLastLevel line found
  match state with
  | .I => do
      let status ← processCacheMiss event line inMSHR
      runIf (status = .OK) (do
        let line ← lookup ev.baseAddr_ false
        issueMiss ev line (some .GetX) .IM false)
      pure (status ≠ .Reject)
  | .S => do
      let status ← processCacheMiss event line inMSHR
      runIf (status = .OK) (issueMiss ev line (some .GetX) .SM true)
      pure (status ≠ .Reject)
  | .E => do
      modifyLine line (fun l => l.setState .M)
      hitGetX event ev line inMSHR
      pure true
  | .M => do
      hitGetX event ev line inMSHR
      pure true
  | _ => stallInMshr event inMSHR

def handleWrite (event : Nat) (inMSHR : Bool) : L1M P Bool := handleGetX event inMSHR

/--
`handleGetSX` on a line in M.  The bytes are copied into an empty vector, which
is defined for a request of size zero only.
-/
def hitGetSX (event : Nat) (ev : MemEvent) (line : Option Nat) (inMSHR : Bool) : L1M P Unit := do
  recordPrefetchResult line
  checkProfiled ev.baseAddr_ inMSHR
  modifyLine line (fun l => l.incLock)
  let data ← requestedBytes line ev
  if data.length = 0 then do
    let l ← readLine line
    let sendTime ← sendResponseUp ev (some []) inMSHR l.lastSendTimestamp_ true
    modifyLine line (fun l => l.setTimestamp (sendTime - 1))
    cleanUpAfterRequest event inMSHR
  else fail

/-- `handleGetSX`: after a miss the line is not looked up again. -/
def handleGetSX (event : Nat) (inMSHR : Bool) : L1M P Bool := do
  let ev ← readEvent event
  let line ← lookup ev.baseAddr_ true
  let found ← stateOf line
  beginReplay ev.baseAddr_ inMSHR
  let state ← upgradeLastLevel line found
  match state with
  | .I => do
      let status ← processCacheMiss event line inMSHR
      runIf (status = .OK) (issueMiss ev line none .IM false)
      pure (status ≠ .Reject)
  | .S => do
      let status ← processCacheMiss event line inMSHR
      runIf (status = .OK) (issueMiss ev line none .SM true)
      pure (status ≠ .Reject)
  | .E => do
      modifyLine line (fun l => l.setState .M)
      hitGetSX event ev line inMSHR
      pure true
  | .M => do
      hitGetSX event ev line inMSHR
      pure true
  | _ => stallInMshr event inMSHR

def failFlush (event : Nat) (ev : MemEvent) (line : Option Nat) (inMSHR : Bool) : L1M P Unit := do
  checkProfiled ev.baseAddr_ inMSHR
  let l ← readLine line
  let _ ← sendResponseUp ev none inMSHR l.lastSendTimestamp_ false
  cleanUpAfterRequest event inMSHR

def lockedNow (line : Option Nat) (state : State) : L1M P Bool :=
  ask (fun s => decide (state ≠ .I) &&
    line.any (fun i => (s.cacheArray_.lines_ i).isLocked s.timestamp_))

/-- A flush that is not replayed needs an MSHR entry. -/
def flushStatus (event : Nat) (inMSHR : Bool) : L1M P MemEventStatus :=
  if inMSHR then pure .OK else allocateMSHR event false (-1)

/-- `handleFlushLine` from the allocation of the MSHR entry on. -/
def issueFlushLine (event : Nat) (ev : MemEvent) (line : Option Nat)
    (state : State) (inMSHR : Bool) : L1M P Bool := do
  let status ← flushStatus event inMSHR
  if status = .Reject then pure false
  else do
    let profiled ← askMshr (fun m => m.getProfiled ev.baseAddr_)
    runIf (!profiled) (changeMshr (fun m => m.setProfiled ev.baseAddr_))
    changeMshr (fun m => m.setInProgress ev.baseAddr_ true)
    forwardFlush ev line (state = .E || state = .M)
    runIf (line.isSome && state ≠ .I) (modifyLine line (fun l => l.setState .S_B))
    pure true

def handleFlushLine (event : Nat) (inMSHR : Bool) : L1M P Bool := do
  let ev ← readEvent event
  let line ← lookup ev.baseAddr_ false
  let state ← stateOf line
  let waiting ← ask (fun s => s.mshr_.exists? ev.baseAddr_)
  if !inMSHR && waiting then do
    let status ← allocateMSHR event false (-1)
    pure (status ≠ .Reject)
  else do
    beginReplay ev.baseAddr_ inMSHR
    let locked ← lockedNow line state
    if locked then do
      failFlush event ev line inMSHR
      pure true
    else issueFlushLine event ev line state inMSHR

/-- `handleFlushLineInv` from the allocation of the MSHR entry on. -/
def issueFlushLineInv (event : Nat) (ev : MemEvent) (line : Option Nat)
    (state : State) (inMSHR : Bool) : L1M P Bool := do
  let status ← flushStatus event inMSHR
  if status = .Reject then pure false
  else do
    changeMshr (fun m => m.setInProgress ev.baseAddr_ true)
    let profiled ← askMshr (fun m => m.getProfiled ev.baseAddr_)
    runIf (!profiled) (do
      runIf line.isSome (recordPrefetchResult line)
      changeMshr (fun m => m.setProfiled ev.baseAddr_))
    forwardFlush ev line (state ≠ .I)
    runIf (state ≠ .I) (modifyLine line (fun l => l.setState .I_B))
    pure true

/-- `handleFlushLineInv` of an event that may go on. -/
def startFlushLineInv (event : Nat) (ev : MemEvent) (line : Option Nat)
    (state : State) (inMSHR : Bool) : L1M P Bool := do
  let locked ← lockedNow line state
  if locked then do
    failFlush event ev line inMSHR
    pure true
  else issueFlushLineInv event ev line state inMSHR

def handleFlushLineInv (event : Nat) (inMSHR : Bool) : L1M P Bool := do
  let ev ← readEvent event
  let line ← lookup ev.baseAddr_ false
  let state ← stateOf line
  let waiting ← ask (fun s => s.mshr_.exists? ev.baseAddr_)
  if !inMSHR && waiting then do
    let status ← allocateMSHR event false (-1)
    pure (status ≠ .Reject)
  else if inMSHR then do
    beginReplay ev.baseAddr_ true
    let front ← askMshr (fun m => m.getFrontEvent ev.baseAddr_)
    if front = some event then startFlushLineInv event ev line state true
    else pure true
  else startFlushLineInv event ev line state false

end Requests

section Forwarded

/-- What `handleFetch` does in a state. -/
def fetchAction (ev : MemEvent) (line : Option Nat) : State → L1M P Unit
  | .S | .SM | .S_B => sendResponseDown ev line true
  | .I | .IS | .IM | .I_B => pure ()
  | _ => fail

def handleFetch (event : Nat) (inMSHR : Bool) : L1M P Bool := do
  let ev ← readEvent event
  let line ← lookup ev.baseAddr_ false
  let state ← stateOf line
  snoopInvalidation ev line
  beginReplay ev.baseAddr_ inMSHR
  fetchAction ev line state
  deleteEvent event
  pure true

/-- The line is taken away: it goes to I, or from SM to IM. -/
def invalidateLine (ev : MemEvent) (line : Option Nat) (data : Bool)
    (state : State) : L1M P Unit := do
  modifyLine line (fun l => l.atomicEnd)
  sendResponseDown ev line data
  modifyLine line (fun l => l.setState state)

/-- What `handleInv` does in a state. -/
def invAction (ev : MemEvent) (line : Option Nat) : State → L1M P Unit
  | .S | .S_B => invalidateLine ev line false .I
  | .SM => invalidateLine ev line false .IM
  | .I_B => modifyLine line (fun l => l.setState .I)
  | .IS | .IM | .I => pure ()
  | _ => fail

def handleInv (event : Nat) (inMSHR : Bool) : L1M P Bool := do
  let ev ← readEvent event
  let line ← lookup ev.baseAddr_ false
  let state ← stateOf line
  beginReplay ev.baseAddr_ inMSHR
  snoopInvalidation ev line
  runIf line.isSome (recordPrefetchResult line)
  invAction ev line state
  deleteEvent event
  pure true

/-- What `handleForceInv` does in a state, unless it stalls. -/
def forceInvAction (ev : MemEvent) (line : Option Nat) : State → L1M P Unit
  | .S | .E | .M | .S_B => invalidateLine ev line false .I
  | .I_B => modifyLine line (fun l => l.setState .I)
  | .I | .IS | .IM => pure ()
  | .SM => invalidateLine ev line false .IM
  | _ => fail

/-- `handleForceInv` of an event that is not stalled; the event is kept. -/
def finishForceInv (ev : MemEvent) (line : Option Nat) (state : State) : L1M P Bool := do
  forceInvAction ev line state
  runIf line.isSome (recordPrefetchResult line)
  pure true

def handleForceInv (event : Nat) (inMSHR : Bool) : L1M P Bool := do
  let ev ← readEvent event
  let line ← lookup ev.baseAddr_ false
  let state ← stateOf line
  beginReplay ev.baseAddr_ inMSHR
  snoopInvalidation ev line
  let locked ← lockedNow line state
  if locked && (state = .S || state = .E || state = .M || state = .S_B) then
    stallForLock event inMSHR
  else finishForceInv ev line state

/-- What `handleFetchInv` does in a state, unless it stalls. -/
def fetchInvAction (ev : MemEvent) (line : Option Nat) : State → L1M P Unit
  | .M | .S | .E | .S_B => invalidateLine ev line true .I
  | .I_B => modifyLine line (fun l => l.setState .I)
  | .SM => invalidateLine ev line true .IM
  | .I | .IS | .IM => pure ()
  | _ => fail

/-- `handleFetchInv` of an event that is not stalled. -/
def finishFetchInv (event : Nat) (ev : MemEvent) (line : Option Nat)
    (state : State) : L1M P Bool := do
  fetchInvAction ev line state
  runIf (line.isSome && state ≠ .I && state ≠ .IS && state ≠ .IM)
    (recordPrefetchResult line)
  deleteEvent event
  pure true

def handleFetchInv (event : Nat) (inMSHR : Bool) : L1M P Bool := do
  let ev ← readEvent event
  let line ← lookup ev.baseAddr_ false
  let state ← stateOf line
  beginReplay ev.baseAddr_ inMSHR
  snoopInvalidation ev line
  let locked ← lockedNow line state
  if locked && state = .M then stallForLock event inMSHR
  else finishFetchInv event ev line state

/-- A replayed request is removed from the MSHR, another one only deleted. -/
def finishRequest (event : Nat) (inMSHR : Bool) : L1M P Unit :=
  if inMSHR then cleanUpAfterRequest event inMSHR else deleteEvent event

/-- What `handleFetchInvX` does in a state, unless it stalls. -/
def fetchInvXAction (ev : MemEvent) (line : Option Nat) : State → L1M P Unit
  | .E | .M => invalidateLine ev line true .S
  | .I | .IS | .IM | .I_B | .S_B => pure ()
  | _ => fail

/-- `handleFetchInvX` of an event that is not stalled. -/
def finishFetchInvX (event : Nat) (ev : MemEvent) (line : Option Nat)
    (state : State) (inMSHR : Bool) : L1M P Bool := do
  fetchInvXAction ev line state
  finishRequest event inMSHR
  pure true

def handleFetchInvX (event : Nat) (inMSHR : Bool) : L1M P Bool := do
  let ev ← readEvent event
  let line ← lookup ev.baseAddr_ false
  let state ← stateOf line
  beginReplay ev.baseAddr_ inMSHR
  snoopInvalidation ev line
  let locked ← lockedNow line state
  if locked && (state = .E || state = .M) then stallForLock event inMSHR
  else finishFetchInvX event ev line state inMSHR

end Forwarded

section Responses

def frontRequest (addr : Addr) : L1M P Nat := askMshr (fun m => (m.getFrontEvent addr).bind id)

def startIfLoadLink (req : MemEvent) (line : Option Nat) : L1M P Unit := do
  let cfg ← ask MESIL1.config
  let now ← ask MESIL1.timestamp_
  runIf req.isLoadLink
    (modifyLine line (fun l => l.atomicStart (now + cfg.llscBlockCycles_)))

/-- A read that is filled is answered unless it is a prefetch of this cache. -/
def answerRead (req : MemEvent) (line : Option Nat) : L1M P Unit := do
  let cfg ← ask MESIL1.config
  if isLocalPrefetch cfg req then
    modifyLine line (fun l => l.setPrefetch true)
  else answerRequest req line true true

/-- `handleGetSResp`: the state of the line is not checked. -/
def handleGetSResp (event : Nat) : L1M P Bool := do
  let ev ← readEvent event
  let line ← lookup ev.baseAddr_ false
  let reqPtr ← frontRequest ev.baseAddr_
  modifyEvent reqPtr (fun req => { req with memFlags_ := ev.memFlags_ })
  let req ← readEvent reqPtr
  setLineData line ev.getPayload 0
  modifyLine line (fun l => l.setState .S)
  startIfLoadLink req line
  answerRead req line
  cleanUpAfterResponse event
  pure true

/-- `handleGetXResp` in IS. -/
def fillShared (ev req : MemEvent) (line : Option Nat) : L1M P Unit := do
  let cfg ← ask MESIL1.config
  setLineData line ev.getPayload 0
  modifyLine line
    (fun l => l.setState (if ev.dirty_ then .M else cfg.protocolState_))
  startIfLoadLink req line
  answerRead req line

def isWriteRequest (req : MemEvent) : Bool :=
  decide (req.cmd_ = .Write) || decide (req.cmd_ = .GetX)

def performsWrite (req : MemEvent) (l : L1CacheLine) : Bool :=
  isWriteRequest req && (!req.isStoreConditional || l.LLSCAtomic_)

/-- `handleGetXResp` in SM, and in IM once the line is filled. -/
def grantExclusive (req : MemEvent) (line : Option Nat) : L1M P Unit := do
  modifyLine line (fun l => l.setState .M)
  let l ← readLine line
  if isWriteRequest req then do
    runIf (performsWrite req l) (do
      setLineData line req.getPayload req.lineOffset
      modifyLine line (fun l => l.atomicEnd))
    runIf (req.queryFlag MemEvent.F_LOCKED)
      (modifyLine line (fun l => l.decLock))
    answerRequest req line true (performsWrite req l)
  else do
    modifyLine line (fun l => l.incLock)
    answerRequest req line true true

/-- What `handleGetXResp` does in a state. -/
def getXRespAction (ev req : MemEvent) (line : Option Nat) : State → L1M P Unit
  | .IS => fillShared ev req line
  | .IM => do
      setLineData line ev.getPayload 0
      grantExclusive req line
  | .SM => grantExclusive req line
  | _ => fail

def handleGetXResp (event : Nat) : L1M P Bool := do
  let ev ← readEvent event
  let line ← lookup ev.baseAddr_ false
  let state ← stateOf line
  let reqPtr ← frontRequest ev.baseAddr_
  modifyEvent reqPtr (fun req => { req with memFlags_ := ev.memFlags_ })
  let req ← readEvent reqPtr
  getXRespAction ev req line state
  cleanUpAfterResponse event
  pure true

/-- What `handleFlushLineResp` does in a state. -/
def flushRespAction (line : Option Nat) : State → L1M P Unit
  | .I => pure ()
  | .I_B => do
      modifyLine line (fun l => l.setState .I)
      modifyLine line (fun l => l.atomicEnd)
  | .S_B => modifyLine line (fun l => l.setState .S)
  | _ => fail

/--
`handleFlushLineResp`.  The time and the success of the response take the places
of `inMSHR` and of the time in the call, so that the answer always succeeds.
-/
def handleFlushLineResp (event : Nat) : L1M P Bool := do
  let ev ← readEvent event
  let line ← lookup ev.baseAddr_ false
  let state ← stateOf line
  let now ← ask MESIL1.timestamp_
  let reqPtr ← frontRequest ev.baseAddr_
  flushRespAction line state
  let req ← readEvent reqPtr
  let _ ← sendResponseUp req none (now ≠ 0) (if ev.success then 1 else 0) true
  cleanUpAfterResponse event
  pure true

def handleAckPut (event : Nat) : L1M P Bool := do
  cleanUpAfterResponse event
  pure true

/-- The new address no longer waits for the eviction of the old one. -/
def stopWaiting (oldAddr newAddr : Addr) : L1M P Unit := do
  let free ← stepState (fun s =>
    (s.mshr_.removeEvictPointer oldAddr newAddr).map (fun r => (r.1, { s with mshr_ := r.2 })))
  runIf free (retry oldAddr)

/-- `handleNULLCMD` of a line that is free for the new address. -/
def finishEviction (oldAddr newAddr : Addr) (victim : Nat) : L1M P Unit := do
  changeState (fun s => some { s with cacheArray_ := s.cacheArray_.deallocate victim })
  -- a null pointer in the retry buffer is used when it is replayed
  let front ← frontRequest newAddr
  scheduleEvent newAddr front
  stopWaiting oldAddr newAddr

/-- `handleNULLCMD` of a line that cannot be evicted yet. -/
def waitForEviction (oldAddr newAddr : Addr) (victim : Nat) : L1M P Unit := do
  let l ← readLine (some victim)
  let now ← ask MESIL1.simCycle
  runIf (oldAddr ≠ l.addr_) (do
    changeMshr (fun m => some (m.insertEviction l.addr_ newAddr now))
    stopWaiting oldAddr newAddr)

/-- `handleNULLCMD` once the eviction was tried. -/
def resolveEviction (oldAddr newAddr : Addr) (evicted : Bool × Nat) : L1M P Unit :=
  if evicted.1 then finishEviction oldAddr newAddr evicted.2
  else waitForEviction oldAddr newAddr evicted.2

/-- `handleNULLCMD`: an eviction that had to wait. -/
def handleNULLCMD (event : Nat) : L1M P Bool := do
  let ev ← readEvent event
  let line ← lookup ev.addr_ false
  let evicted ← handleEviction ev.baseAddr_ line
  resolveEviction ev.addr_ ev.baseAddr_ evicted
  deleteEvent event
  pure true

/-- `handleNACK`: the refused event is sent again. -/
def handleNACK (nackedEvent : MemEvent) : L1M P Unit := resendEvent nackedEvent

end Responses

end MESIL1

end Handlers

section Runs

open Library

namespace MESIL1

variable {P : ReplacementPolicy}

/-- `Cache::processEvent`: the handler of the command of the event. -/
def processEvent (event : Nat) (inMSHR : Bool) : L1M P Bool := do
  let ev ← readEvent event
  match ev.cmd_ with
  | .GetS => handleGetS event inMSHR
  | .GetX => handleGetX event inMSHR
  | .Write => handleWrite event inMSHR
  | .GetSX => handleGetSX event inMSHR
  | .FlushLine => handleFlushLine event inMSHR
  | .FlushLineInv => handleFlushLineInv event inMSHR
  | .GetSResp => handleGetSResp event
  | .GetXResp => handleGetXResp event
  | .FlushLineResp => handleFlushLineResp event
  | .FetchInv => handleFetchInv event inMSHR
  | .FetchInvX => handleFetchInvX event inMSHR
  | .ForceInv => handleForceInv event inMSHR
  | .Inv => handleInv event inMSHR
  | .Fetch => handleFetch event inMSHR
  | .AckPut => handleAckPut event
  | .NULLCMD => handleNULLCMD event
  | _ => fail

/-- An event that can arrive: evictions are internal, and a prefetch of this
cache is not a load-link. -/
def canArrive (cfg : MESIL1Config) (ev : MemEvent) : Bool :=
  decide (ev.cmd_ ≠ .NULLCMD) && !(isLocalPrefetch cfg ev && ev.isLoadLink)

/-- Handle a new event; a refused one goes back to the event buffer. -/
def receiveEvent (ev : MemEvent) : L1M P Unit := do
  let cfg ← ask MESIL1.config
  if canArrive cfg ev then do
    let event ← newEvent ev
    let accepted ← processEvent event false
    runIf (!accepted) (deleteEvent event)
  else fail

def replayEvent (event : Nat) : L1M P Unit := do
  let scheduled ← ask (fun s => decide (event ∈ s.retryBuffer_))
  if scheduled then do
    let accepted ← processEvent event true
    runIf accepted (changeState (fun s =>
      some { s with retryBuffer_ := s.retryBuffer_.erase event }))
  else fail

end MESIL1

/-- The steps of an L1 coherence manager. -/
inductive L1Op where
  | receive (event : MemEvent)
  | nack (nackedEvent : MemEvent)
  | replay (event : Nat)
  | clock (simCycle : SimTime)
  | updateTimestamp (timestamp simCycle : SimTime)
deriving DecidableEq, Repr

namespace MESIL1

variable {P : ReplacementPolicy}

def step (s : MESIL1 P) : L1Op → Option (MESIL1 P)
  | .receive ev => (receiveEvent ev s).map Prod.snd
  | .nack nackedEvent => (handleNACK nackedEvent s).map Prod.snd
  | .replay event => (replayEvent event s).map Prod.snd
  | .clock simCycle => some { s.sendOutgoingEvents with simCycle := simCycle }
  | .updateTimestamp timestamp simCycle =>
    some { s with timestamp_ := timestamp, simCycle := simCycle }

/-- A new manager of a new array, with slices as configured. -/
def start (P : ReplacementPolicy) (cfg : MESIL1Config)
    (numLines associativity : Nat) (hash : Addr → UInt64)
    (sliceSize sliceStep : Addr) (mshrSize : Int) : Option (MESIL1 P) :=
  (CacheArray.new P numLines associativity cfg.lineSize_.toNat hash
    (L1CacheLine.new cfg.lineSize_.toNat)).map
    (fun c =>
      { config := cfg, cacheArray_ := c.setSliceAware sliceSize sliceStep,
        mshr_ := MSHR.new mshrSize, timestamp_ := 0, simCycle := 0,
        outstandingPrefetches_ := 0, outgoingEventQueueDown_ := [],
        outgoingEventQueueUp_ := [], enqueuedDown_ := [], enqueuedUp_ := [],
        linkDown_ := [], linkUp_ := [],
        retryBuffer_ := [], heap := fun _ => none, nextPtr := 0, nextID := 0,
        answers := [] })

end MESIL1

end Runs

end SstElements.MemHierarchy
