import Mathlib.Data.List.Rotate
import Mathlib.Data.List.FinRange

/-!
# The crossbar of a router

An arbitration unit chooses the heads of the input buffers that go to output
buffers in a cycle.  The router moves them, counts the cycles for which ports
are busy, and takes itself off the clock while no buffer has data.
-/

namespace SstElements.Merlin.Crossbar

open Function

section Arbitration

/-- A packet in a router, with the route that it has been given. -/
structure RouterEvent (P V : Nat) (Header : Type) where
  next_port : Fin P
  vc : Fin V
  credit_return_vc : Nat
  flits : Nat
  header : Header
  deriving DecidableEq, Repr

/-- What a port does in a cycle: nothing, wait for an output, or send from a VC. -/
inductive Progress (V : Nat) where
  | idle
  | stalled
  | vc (v : Fin V)
  deriving DecidableEq, Repr

/-- The arrays that an arbitration unit fills. -/
structure Scan (P V : Nat) where
  in_port_busy : Fin P → Nat
  out_port_busy : Fin P → Nat
  progress_vc : Fin P → Progress V

variable {P V : Nat} {Header : Type}

def Scan.grant (s : Scan P V) (port : Fin P) (vc : Fin V)
    (ev : RouterEvent P V Header) : Scan P V where
  in_port_busy := update s.in_port_busy port ev.flits
  out_port_busy := update s.out_port_busy ev.next_port ev.flits
  progress_vc := update s.progress_vc port (.vc vc)

/-- The VC heads of the ports, and whether an output buffer has space. -/
structure PortView (P V : Nat) (Header : Type) where
  vc_heads : Fin P → Fin V → Option (RouterEvent P V Header)
  spaceToSend : Fin P → Fin V → Nat → Bool

variable (view : PortView P V Header)

/-- The output is free and has the space for the packet. -/
def PortView.accepts (s : Scan P V) (ev : RouterEvent P V Header) : Bool :=
  s.out_port_busy ev.next_port = 0 && view.spaceToSend ev.next_port ev.vc ev.flits

/-- The arrays, with the pairs that are not served and those that are, last first. -/
structure LruScan (P V : Nat) extends Scan P V where
  unsat_list : List (Fin P × Fin V)
  sat_list : List (Fin P × Fin V)

def xbar_arb_lru.visit (s : LruScan P V) (check : Fin P × Fin V) : LruScan P V :=
  match view.vc_heads check.1 check.2 with
  | none => { s with unsat_list := s.unsat_list ++ [check] }
  | some src_event =>
    if s.in_port_busy check.1 = 0 then
      if view.accepts s.toScan src_event then
        { s.toScan.grant check.1 check.2 src_event with
          unsat_list := s.unsat_list
          sat_list := check :: s.sat_list }
      else
        { s with
          progress_vc := update s.progress_vc check.1 .stalled
          unsat_list := s.unsat_list ++ [check] }
    else
      { s with unsat_list := s.unsat_list ++ [check] }

/-- The arrays before anything is chosen. -/
def Scan.start (in_port_busy out_port_busy : Fin P → Nat) : Scan P V :=
  ⟨in_port_busy, out_port_busy, fun _ => .idle⟩

def xbar_arb_lru.arbitrate (cur_list : List (Fin P × Fin V))
    (in_port_busy out_port_busy : Fin P → Nat) : List (Fin P × Fin V) × Scan P V :=
  let s := cur_list.foldl (visit view)
    { Scan.start in_port_busy out_port_busy with unsat_list := [], sat_list := [] }
  (s.unsat_list ++ s.sat_list, s.toScan)

/-- The arrays with the VC of each port that is first in turn. -/
structure RrScan (P V : Nat) extends Scan P V where rr_vcs : Fin P → Nat

/-- The first VC in turn whose head the outputs accept. -/
def xbar_arb_rr.findVc (s : RrScan P V) (port : Fin P) : Option (Fin V × RouterEvent P V Header) :=
  ((List.finRange V).rotate (s.rr_vcs port)).findSome? (fun vc =>
    (view.vc_heads port vc).bind (fun src_event =>
      if view.accepts s.toScan src_event then some (vc, src_event) else none))

def xbar_arb_rr.visit (s : RrScan P V) (port : Fin P) : RrScan P V :=
  let s := { s with progress_vc := update s.progress_vc port .idle }
  if 0 < s.in_port_busy port then
    s
  else
    let rr_vcs := update s.rr_vcs port ((s.rr_vcs port + 1) % V)
    match findVc view s port with
    | none => { s with rr_vcs := rr_vcs }
    | some (vc, src_event) => { s.toScan.grant port vc src_event with rr_vcs := rr_vcs }

def xbar_arb_rr.arbitrate (rr_vcs : Fin P → Nat) (rr_port : Nat)
    (in_port_busy out_port_busy : Fin P → Nat) : (Fin P → Nat) × Nat × Scan P V :=
  let s := ((List.finRange P).rotate rr_port).foldl (visit view)
    { Scan.start in_port_busy out_port_busy with rr_vcs := rr_vcs }
  (s.rr_vcs, (rr_port + 1) % P, s.toScan)

/-- The state of an arbitration unit of the one kind or the other. -/
inductive Arbiter (P V : Nat) where
  | lru (cur_list : List (Fin P × Fin V))
  | rr (rr_vcs : Fin P → Nat) (rr_port : Nat)

/-- All pairs of ports and VCs, port by port. -/
def allPairs (P V : Nat) : List (Fin P × Fin V) :=
  (List.finRange P).flatMap (fun i => (List.finRange V).map (fun j => (i, j)))

/-- An index in the 16 bits that the least recently used unit keeps of it. -/
def narrow {n : Nat} (i : Fin n) : Fin n := ⟨i % 65536, (Nat.mod_le _ _).trans_lt i.isLt⟩

def xbar_arb_lru.setPorts (P V : Nat) : List (Fin P × Fin V) :=
  (allPairs P V).map (Prod.map narrow narrow)

/-- The two kinds, as `setPorts` leaves them. -/
def Arbiter.IsSet (arb : Arbiter P V) : Prop :=
  arb = .lru (xbar_arb_lru.setPorts P V) ∨ arb = .rr (fun _ => 0) 0

/-- The least recently used unit can tell all pairs apart, and an `int` holds their number. -/
def Arbiter.Fits : Arbiter P V → Prop
  | .lru _ => P ≤ 65536 ∧ V ≤ 65536 ∧ P * V < 2147483648
  | .rr _ _ => True

def Arbiter.arbitrate (in_port_busy out_port_busy : Fin P → Nat) :
    Arbiter P V → Arbiter P V × Scan P V
  | .lru cur_list =>
    let (next_list, s) := xbar_arb_lru.arbitrate view cur_list in_port_busy out_port_busy
    (.lru next_list, s)
  | .rr rr_vcs rr_port =>
    let (rr_vcs, rr_port, s) :=
      xbar_arb_rr.arbitrate view rr_vcs rr_port in_port_busy out_port_busy
    (.rr rr_vcs rr_port, s)

def Arbiter.reportSkippedCycles (cycles : Nat) : Arbiter P V → Arbiter P V
  | .lru cur_list => .lru cur_list
  | .rr rr_vcs rr_port => .rr rr_vcs ((rr_port + cycles) % P)

end Arbitration

section Ports

/--
The buffers of all ports; the link side of the ports and the topology's own
data are the `rest`.  The VC head is the first packet of its input buffer.
-/
structure Ports (P V : Nat) (Header Rest : Type) where
  input_buf : Fin P → Fin V → List (RouterEvent P V Header)
  output_buf : Fin P → Fin V → List (RouterEvent P V Header)
  xbar_in_credits : Fin P → Fin V → Int
  vcs_with_data : Nat
  rest : Rest

/--
What the crossbar calls: the topology gives a route to a packet, and the ports
return credits over the link and wake their outputs.  No route changes the size
of a packet.
-/
structure Surroundings (P V : Nat) (Header Rest : Type) where
  route_packet : Ports P V Header Rest → Fin P → RouterEvent P V Header →
    RouterEvent P V Header × Rest
  returnCredits : Rest → Fin P → Fin V → RouterEvent P V Header → Rest
  wakeOutput : Rest → Fin P → Fin V → RouterEvent P V Header → Rest
  flits_route : ∀ ps port ev, (route_packet ps port ev).1.flits = ev.flits

variable {P V : Nat} {Header Rest : Type}

/-- A buffer of one VC is replaced. -/
def setBuf {α : Type} (buf : Fin P → Fin V → α) (port : Fin P) (vc : Fin V) (q : α) :
    Fin P → Fin V → α :=
  update buf port (update (buf port) vc q)

def Ports.view (ps : Ports P V Header Rest) : PortView P V Header where
  vc_heads := fun port vc => (ps.input_buf port vc).head?
  spaceToSend := fun port vc flits => !decide (ps.xbar_in_credits port vc < flits)

variable (S : Surroundings P V Header Rest) (ps : Ports P V Header Rest)

def Ports.routeHead (port : Fin P) (vc : Fin V) : Ports P V Header Rest :=
  match ps.input_buf port vc with
  | [] => ps
  | ev :: q =>
    let (routed, rest) := S.route_packet ps port ev
    { ps with input_buf := setBuf ps.input_buf port vc (routed :: q), rest := rest }

def Ports.recv (port : Fin P) (vc : Fin V) :
    Ports P V Header Rest × Option (RouterEvent P V Header) :=
  match ps.input_buf port vc with
  | [] => (ps, none)
  | event :: q =>
    let popped := { ps with input_buf := setBuf ps.input_buf port vc q }
    let next :=
      if q.isEmpty then
        { popped with vcs_with_data := popped.vcs_with_data - 1 }
      else
        popped.routeHead S port vc
    ({ next with rest := S.returnCredits next.rest port vc event }, some event)

def Ports.send (port : Fin P) (ev : RouterEvent P V Header) (vc : Fin V) : Ports P V Header Rest :=
  { ps with
    xbar_in_credits := setBuf ps.xbar_in_credits port vc
      (ps.xbar_in_credits port vc - ev.flits)
    output_buf := setBuf ps.output_buf port vc
      (ps.output_buf port vc ++ [{ ev with vc := vc }])
    rest := S.wakeOutput ps.rest port vc ev }

/-- A packet arrives on the link of a port. -/
def Ports.handle_input (port : Fin P) (ev : RouterEvent P V Header) : Ports P V Header Rest :=
  let pushed :=
    { ps with
      input_buf := setBuf ps.input_buf port ev.vc (ps.input_buf port ev.vc ++ [ev]) }
  if (ps.input_buf port ev.vc).isEmpty then
    { pushed.routeHead S port ev.vc with vcs_with_data := ps.vcs_with_data + 1 }
  else
    pushed

/-- A packet leaves an output buffer over the link. -/
def Ports.handle_output (port : Fin P) (vc : Fin V) (link : Rest → Rest) : Ports P V Header Rest :=
  match ps.output_buf port vc with
  | [] => { ps with rest := link ps.rest }
  | send_event :: q =>
    { ps with
      output_buf := setBuf ps.output_buf port vc q
      xbar_in_credits := setBuf ps.xbar_in_credits port vc
        (ps.xbar_in_credits port vc + send_event.flits)
      rest := link ps.rest }

end Ports

section Router

/-- A packet on its way through the crossbar, with the credits that it finds. -/
structure Move (P V : Nat) (Header : Type) where
  in_port : Fin P
  vc : Fin V
  event : RouterEvent P V Header
  credits : Int
  deriving DecidableEq, Repr

/-- A router; `cycle` is the number of the next cycle of the clock. -/
structure Router (P V : Nat) (Header Rest : Type) where
  arb : Arbiter P V
  in_port_busy : Fin P → Nat
  out_port_busy : Fin P → Nat
  ports : Ports P V Header Rest
  requestNotifyOnEvent : Bool
  unclocked_cycle : Nat
  cycle : Nat

variable {P V : Nat} {Header Rest : Type} (S : Surroundings P V Header Rest)

def movePort (progress_vcs : Fin P → Progress V)
    (m : Ports P V Header Rest × List (Move P V Header)) (i : Fin P) :
    Ports P V Header Rest × List (Move P V Header) :=
  match progress_vcs i with
  | .vc v =>
    match m.1.recv S i v with
    | (ps, none) => (ps, m.2)
    | (ps, some ev) =>
      (ps.send S ev.next_port ev ev.vc,
        m.2 ++ [⟨i, v, ev, ps.xbar_in_credits ev.next_port ev.vc⟩])
  | _ => m

/-- One cycle of the crossbar. -/
def Router.arbitrateAndMove (r : Router P V Header Rest) :
    Router P V Header Rest × List (Move P V Header) :=
  let (arb, s) := r.arb.arbitrate r.ports.view r.in_port_busy r.out_port_busy
  let (ports, moves) := (List.finRange P).foldl (movePort S s.progress_vc) (r.ports, [])
  ({ r with
     arb := arb
     in_port_busy := fun i => s.in_port_busy i - 1
     out_port_busy := fun i => s.out_port_busy i - 1
     ports := ports }, moves)

def Router.clock_handler (r : Router P V Header Rest) :
    Router P V Header Rest × List (Move P V Header) :=
  if r.ports.vcs_with_data = 0 then
    ({ r with requestNotifyOnEvent := true, unclocked_cycle := r.cycle }, [])
  else
    r.arbitrateAndMove S

/-- The router is put back on the clock for the next cycle. -/
def Router.notifyEvent (r : Router P V Header Rest) : Router P V Header Rest :=
  let elapsed_cycles := r.cycle - r.unclocked_cycle
  { r with
    requestNotifyOnEvent := false
    in_port_busy := fun i => r.in_port_busy i - elapsed_cycles
    out_port_busy := fun i => r.out_port_busy i - elapsed_cycles
    arb := r.arb.reportSkippedCycles elapsed_cycles }

/-- What happens to a router: clock cycles and the events of its ports. -/
inductive Op (P V : Nat) (Header Rest : Type) where
  | tick
  | receive (port : Fin P) (ev : RouterEvent P V Header)
  | depart (port : Fin P) (vc : Fin V) (link : Rest → Rest)
  | link (link : Rest → Rest)

/-- A router that takes itself off the clock while it has no data. -/
def Router.step (r : Router P V Header Rest) :
    Op P V Header Rest → Router P V Header Rest × List (Move P V Header)
  | .tick =>
    let (r, moves) := if r.requestNotifyOnEvent then (r, []) else r.clock_handler S
    ({ r with cycle := r.cycle + 1 }, moves)
  | .receive port ev =>
    let r := { r with ports := r.ports.handle_input S port ev }
    (if r.requestNotifyOnEvent then r.notifyEvent else r, [])
  | .depart port vc link =>
    ({ r with ports := r.ports.handle_output port vc link }, [])
  | .link link =>
    ({ r with ports := { r.ports with rest := link r.ports.rest } }, [])

def Router.stepClocked (r : Router P V Header Rest) :
    Op P V Header Rest → Router P V Header Rest × List (Move P V Header)
  | .tick =>
    let (r, moves) := r.arbitrateAndMove S
    ({ r with cycle := r.cycle + 1 }, moves)
  | .receive port ev =>
    ({ r with ports := r.ports.handle_input S port ev }, [])
  | .depart port vc link =>
    ({ r with ports := r.ports.handle_output port vc link }, [])
  | .link link =>
    ({ r with ports := { r.ports with rest := link r.ports.rest } }, [])

/-- A router before its first cycle, with empty buffers. -/
structure Router.IsInitial (r : Router P V Header Rest) : Prop where
  arb_set : r.arb.IsSet
  in_free : ∀ i, r.in_port_busy i = 0
  out_free : ∀ i, r.out_port_busy i = 0
  input_empty : ∀ i v, r.ports.input_buf i v = []
  output_empty : ∀ i v, r.ports.output_buf i v = []
  credits_nonneg : ∀ i v, 0 ≤ r.ports.xbar_in_credits i v
  no_data : r.ports.vcs_with_data = 0
  on_clock : r.requestNotifyOnEvent = false
  cycle_zero : r.cycle = 0

end Router

end SstElements.Merlin.Crossbar
