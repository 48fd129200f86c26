import SstElements.Library.OrderedContainer
import SstElements.Library.ReferenceHeap

/-!
# Congestion management of a host port

A host port counts, for each source, the large packets that are in the router on
their way to its endpoint.  Sources with recent packets are active; they stand
in a queue by the time at which they expire, and are throttled while too many
of them are active.
-/

namespace SstElements.Merlin.CongestionManagement

open Library

/-- What congestion management reads of a packet. -/
structure Packet where
  src : Nat
  flits : Nat
  size_in_bits : Nat
  deriving DecidableEq, Repr

/-- The unsigned counters are integers here, negative where they wrap. -/
structure CongestionInfo where
  count : Int
  total_count : Nat
  flit_count : Int
  throttle : Int
  last_seen : Nat
  expiration_time : Nat
  active : Bool
  deriving DecidableEq, Repr

/-- The entry of a source that is new in the map. -/
def CongestionInfo.new : CongestionInfo := ⟨0, 0, 0, 0, 0, 0, false⟩

/-- The event for an endpoint that throttles its packets to the target. -/
structure CongestionEvent where
  dest : Nat
  target : Nat
  backoff : Int
  throttle_time : Int
  deriving DecidableEq, Repr

/-- The parameters of a port. -/
structure Config where
  endpoint : Nat
  mtu_ser_time : Nat
  flit_ser_time : Nat
  cm_outstanding_threshold : Int
  cm_incast_threshold : Int
  cm_pktsize_threshold : Nat

/-- The window factor is counted in halves; the queue refers to the entries by source. -/
structure PortControl where
  cm_activated : Bool
  cm_window_factor : Nat
  congestion_map : OrderedMap Nat CongestionInfo
  expiration_queue : List Nat
  current_incast : Int
  total_flits_incoming : Int
  total_incast_flits : Int

/-- A port as it is constructed, with a window factor of 1.5. -/
def PortControl.initial : PortControl := ⟨false, 3, .empty, [], 0, 0, 0⟩

def expiration (m : OrderedMap Nat CongestionInfo) (src : Nat) : Nat :=
  match m.find? src with
  | some info => info.expiration_time
  | none => 0

section Handlers

variable (H : HeapOps Nat Nat) (cfg : Config) (now : Nat)

/-- The time that a stream stays active for an incast, before the cast to `int`. -/
def window (s : PortControl) : Nat :=
  s.cm_window_factor * ((s.current_incast + 1) * cfg.mtu_ser_time % 2 ^ 64).toNat / 2

/-- A stream that is new or inactive becomes active and goes into the queue. -/
def activate (s : PortControl) (src : Nat) (info : CongestionInfo) : PortControl :=
  let s :=
    { s with
      current_incast := s.current_incast + 1
      total_incast_flits := s.total_incast_flits + info.flit_count }
  let info := { info with active := true, expiration_time := (now + window cfg s) % 2 ^ 64 }
  let congestion_map := s.congestion_map.insert src info
  { s with
    congestion_map := congestion_map
    expiration_queue := H.push (expiration congestion_map) s.expiration_queue src }

/-- The packet is added to the counters of its stream. -/
def record (s : PortControl) (ev : Packet) : PortControl :=
  let info := (s.congestion_map.find? ev.src).getD .new
  let info :=
    { info with
      count := info.count + 1
      total_count := info.total_count + 1
      flit_count := info.flit_count + ev.flits
      last_seen := now }
  { s with
    congestion_map := s.congestion_map.insert ev.src info
    total_incast_flits := s.total_incast_flits + ev.flits }

/-- Streams that are active and throttled less than the incast asks for. -/
def needsThrottle (s : PortControl) (info : CongestionInfo) : Bool :=
  decide (s.current_incast > info.throttle) && info.active

def throttleTime (s : PortControl) : Nat :=
  (4 * cfg.flit_ser_time * s.total_flits_incoming % 2 ^ 64).toNat

def throttleInfo (s : PortControl) (info : CongestionInfo) : CongestionInfo :=
  if needsThrottle s info then
    { info with
      expiration_time :=
        if info.throttle = 0 then (info.expiration_time + throttleTime cfg s) % 2 ^ 64
        else info.expiration_time
      throttle := s.current_incast }
  else
    info

/-- The sources are told of the incast, and newly throttled ones get more time. -/
def throttleAll (s : PortControl) : PortControl × List CongestionEvent :=
  ({ s with congestion_map := s.congestion_map.mapValues (throttleInfo cfg s) },
    s.congestion_map.entries.filterMap (fun x =>
      if needsThrottle s x.2 then
        some ⟨x.1, cfg.endpoint, s.current_incast, throttleTime cfg s⟩
      else
        none))

/-- The stream of a packet is made active, and the packet is recorded. -/
def arrive (s : PortControl) (ev : Packet) : PortControl :=
  let s := { s with total_flits_incoming := s.total_flits_incoming + ev.flits }
  let info := (s.congestion_map.find? ev.src).getD .new
  record now (if info.active then s else activate H cfg now s ev.src info) ev

/-- Whether a packet starts a stream. -/
def newIncast (s : PortControl) (ev : Packet) : Bool :=
  !((s.congestion_map.find? ev.src).getD .new).active

/-- Congestion management is turned on when it has to be. -/
def turnOn (s : PortControl) : PortControl :=
  if !s.cm_activated && decide (s.total_incast_flits ≥ cfg.cm_outstanding_threshold) &&
      decide (s.current_incast ≥ cfg.cm_incast_threshold) then
    { s with cm_activated := true, cm_window_factor := 10 }
  else
    s

/-- The sources are told when streams are added, or when management is turned on. -/
def sendsThrottle (new_incast : Bool) (s : PortControl) : Bool :=
  if s.cm_activated then new_incast else (turnOn cfg s).cm_activated

def reportIncomingEvent (s : PortControl) (ev : Packet) : PortControl × List CongestionEvent :=
  if ev.size_in_bits < cfg.cm_pktsize_threshold then
    ({ s with total_flits_incoming := s.total_flits_incoming + ev.flits }, [])
  else
    let t := arrive H cfg now s ev
    if sendsThrottle cfg (newIncast s ev) t then
      throttleAll cfg (turnOn cfg t)
    else
      (t, [])

/-- The packet is taken from the counters of its stream, if this is in the map. -/
def deliver (s : PortControl) (ev : Packet) : PortControl :=
  let s := { s with total_flits_incoming := s.total_flits_incoming - ev.flits }
  match s.congestion_map.find? ev.src with
  | none => s
  | some ci =>
    let ci := { ci with count := ci.count - 1, flit_count := ci.flit_count - ev.flits }
    { s with
      total_incast_flits :=
        if ci.active then s.total_incast_flits - ev.flits else s.total_incast_flits
      congestion_map :=
        if ci.count = 0 ∧ ci.active = false then s.congestion_map.erase ev.src
        else s.congestion_map.insert ev.src ci }

/-- A stream that has ended leaves the map, or waits there for its last packets. -/
def removeStream (s : PortControl) (src : Nat) (ci : CongestionInfo) :
    PortControl × List CongestionEvent :=
  (if ci.count = 0 then
      { s with congestion_map := s.congestion_map.erase src }
    else
      { s with
        congestion_map := s.congestion_map.insert src { ci with active := false, throttle := 0 }
        total_incast_flits := s.total_incast_flits - ci.flit_count },
    if s.cm_activated then [⟨src, cfg.endpoint, 1, 0⟩] else [])

/-- The streams whose time is over are removed or get more time. -/
def expireStreams : Nat → PortControl → Nat → PortControl × Nat × List CongestionEvent
  | 0, s, expired => (s, expired, [])
  | fuel + 1, s, expired =>
    match s.expiration_queue with
    | [] => (s, expired, [])
    | src :: _ =>
      if expiration s.congestion_map src ≤ now then
        let key := expiration s.congestion_map
        let popped := { s with expiration_queue := H.pop key s.expiration_queue }
        match s.congestion_map.find? src with
        | none => expireStreams fuel popped expired
        | some ci_exp =>
          let expiration_time := (ci_exp.last_seen + window cfg s) % 2 ^ 64
          if (ci_exp.count = 0 ∧ s.cm_activated = false) ∨ expiration_time ≤ now then
            let (removed, sent) := removeStream cfg popped src ci_exp
            let (t, n, more) := expireStreams fuel removed (expired + 1)
            (t, n, sent ++ more)
          else
            let congestion_map := s.congestion_map.insert src
              { ci_exp with expiration_time := expiration_time }
            expireStreams fuel
              { popped with
                congestion_map := congestion_map
                expiration_queue :=
                  H.push (expiration congestion_map) popped.expiration_queue src }
              expired
      else
        (s, expired, [])

/-- The sources that are left are told of the incast when streams have ended. -/
def throttleRest (send_incast : Int) (s : PortControl) : PortControl × List CongestionEvent :=
  ({ s with
     congestion_map := s.congestion_map.mapValues (fun info =>
       if info.active then { info with throttle := send_incast } else info) },
    s.congestion_map.entries.filterMap (fun x =>
      if x.2.active then some ⟨x.1, cfg.endpoint, send_incast, 0⟩ else none))

/-- The incast is corrected, and congestion management turned off when it can be. -/
def afterExpiry (s : PortControl) (expired : Nat) : PortControl × List CongestionEvent :=
  let s := { s with current_incast := s.current_incast - expired }
  if s.cm_activated ∧ expired ≠ 0 then
    if s.current_incast < cfg.cm_incast_threshold then
      throttleRest cfg 1 { s with cm_activated := false, cm_window_factor := 3 }
    else
      throttleRest cfg s.current_incast s
  else
    (s, [])

def updateCongestionState (s : PortControl) (send_event : Packet) :
    PortControl × List CongestionEvent :=
  let s := deliver s send_event
  let (s, expired, sent) := expireStreams H cfg now s.expiration_queue.length s 0
  let (s, more) := afterExpiry cfg s expired
  (s, sent ++ more)

end Handlers

/-- What happens at a host port: a packet for it arrives, or leaves over its link. -/
inductive Op where
  | report (ev : Packet) (now : Nat)
  | update (ev : Packet) (now : Nat)
  deriving DecidableEq, Repr

/-- A port with the packets that have been reported and not delivered. -/
structure State where
  port : PortControl
  outstanding : List Packet

/-- Each packet is reported when it arrives, and updated when it is delivered. -/
def step (H : HeapOps Nat Nat) (cfg : Config) (s : State) : Op → Option State
  | .report ev now =>
    some ⟨(reportIncomingEvent H cfg now s.port ev).1, ev :: s.outstanding⟩
  | .update ev now =>
    if ev ∈ s.outstanding then
      some ⟨(updateCongestionState H cfg now s.port ev).1, s.outstanding.erase ev⟩
    else
      none

end SstElements.Merlin.CongestionManagement
