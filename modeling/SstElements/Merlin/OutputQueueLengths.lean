import Mathlib.Algebra.BigOperators.Group.Finset.Basic
import Mathlib.Algebra.Order.BigOperators.Group.Finset
import SstElements.Library.Transition

/-!
# The output queue lengths of a port

Adaptive routing reads `output_queue_lengths`.  A port raises them when an event
enters its output buffers and lowers them when the event leaves the port or, with
`oql_track_remote`, when its credits come back.
-/

namespace SstElements.Merlin.OutputQueueLengths

open Library Function Option Finset

/-- The parameters of a port and the virtual network of each of its channels. -/
structure Config where
  host_port : Bool
  oql_track_port : Bool
  oql_track_remote : Bool
  num_vcs : Nat
  vn : Nat → Nat
  vn_lt : ∀ vc < num_vcs, vn vc < num_vcs

/-- The queues and counters of a port, with the flits of each class that were sent and
whose credits have not come back. -/
structure PortControl where
  ctrl_queue : List Nat
  output_buf : Nat → List Nat
  output_queue_lengths : Nat → Int
  xbar_in_credits : Nat → Int
  port_out_credits : Nat → Int
  waiting : Bool
  sai_port_disabled : Bool
  unreturned : Nat → Int

/-- What happens to a port; `handle_output` comes with the answer of its arbiter. -/
inductive Op where
  | sendCtrlEvent (size : Nat)
  | send (flits vc : Nat)
  | credit (vc : Nat) (credits : Int)
  | handle_output (arbitrated : Option Nat)
  | setDisabled (disabled : Bool)

section Port

variable (cfg : Config)

/-- The credits of a host port name virtual networks, those of a router port channels. -/
def creditClass (vc : Nat) : Nat := if cfg.host_port then cfg.vn vc else vc

/-- The loop over all channels with `oql_track_port`, and the one entry without it. -/
def adjust (vc : Nat) (flits : Int) (lengths : Nat → Int) : Nat → Int :=
  if cfg.oql_track_port then fun i => if i < cfg.num_vcs then lengths i + flits else lengths i
  else update lengths vc (lengths vc + flits)

def sendCtrlEvent (s : PortControl) (size : Nat) : PortControl :=
  if size = 0 then s
  else { s with ctrl_queue := s.ctrl_queue ++ [size], waiting := false }

def send (s : PortControl) (flits vc : Nat) : PortControl :=
  { s with
    xbar_in_credits := update s.xbar_in_credits vc (s.xbar_in_credits vc - flits)
    output_queue_lengths := adjust cfg vc flits s.output_queue_lengths
    output_buf := update s.output_buf vc (s.output_buf vc ++ [flits])
    waiting := false }

def handle_input_n2r (s : PortControl) (vc : Nat) (credits : Int) : PortControl :=
  { s with
    port_out_credits := update s.port_out_credits vc (s.port_out_credits vc + credits)
    output_queue_lengths :=
      if cfg.oql_track_remote then adjust cfg vc (-credits) s.output_queue_lengths
      else s.output_queue_lengths
    waiting := false }

def handle_input_r2r (s : PortControl) (vc : Nat) (credits : Int) : PortControl :=
  { s with
    port_out_credits := update s.port_out_credits vc (s.port_out_credits vc + credits)
    waiting := false }

/-- The channel that `handle_output` serves when no control event waits. -/
def vc_to_send (s : PortControl) (arbitrated : Option Nat) : Option Nat :=
  if s.sai_port_disabled then none else arbitrated

/-- The event at the head of a channel leaves the port. -/
def sendEvent (s : PortControl) (vc size : Nat) (rest : List Nat) : PortControl :=
  { s with
    output_buf := update s.output_buf vc rest
    xbar_in_credits := update s.xbar_in_credits vc (s.xbar_in_credits vc + size)
    output_queue_lengths :=
      if cfg.oql_track_remote then s.output_queue_lengths
      else adjust cfg vc (-size) s.output_queue_lengths
    port_out_credits := update s.port_out_credits vc (s.port_out_credits vc - size)
    unreturned := update s.unreturned (creditClass cfg vc)
      (s.unreturned (creditClass cfg vc) + size) }

/-- A control event goes first; the arbiter only answers with a channel that has an event. -/
def handle_output (s : PortControl) (arbitrated : Option Nat) : Option PortControl :=
  match s.ctrl_queue with
  | _ :: rest =>
    some { s with ctrl_queue := rest }
  | [] =>
    match vc_to_send s arbitrated with
    | none =>
      some { s with waiting := true }
    | some vc =>
      match s.output_buf vc with
      | [] =>
        none
      | size :: rest =>
        if vc < cfg.num_vcs then some (sendEvent cfg s vc size rest) else none

/-- A credit lowers the flits of its class that are out. -/
def receiveCredit (s : PortControl) (vc : Nat) (credits : Int) : PortControl :=
  { (if cfg.host_port then handle_input_n2r cfg s vc credits
      else handle_input_r2r s vc credits) with
    unreturned := update s.unreturned vc (s.unreturned vc + -credits) }

/-- One call; a channel beyond the last one is out of the arrays. -/
def step (s : PortControl) : Op → Option PortControl
  | .sendCtrlEvent size => some (sendCtrlEvent s size)
  | .send flits vc => if vc < cfg.num_vcs then some (send cfg s flits vc) else none
  | .credit vc credits =>
    if vc < cfg.num_vcs then some (receiveCredit cfg s vc credits) else none
  | .handle_output arbitrated => handle_output cfg s arbitrated
  | .setDisabled disabled => some { s with sai_port_disabled := disabled }

/-- What a length counts of the channels or classes: one of them, or all. -/
def counted (flits : Nat → Int) (key : Nat) : Int :=
  if cfg.oql_track_port then ∑ i ∈ range cfg.num_vcs, flits i else flits key

def buffered (s : PortControl) (vc : Nat) : Int := ((s.output_buf vc).map Int.ofNat).sum

/-- Each length is that of the buffers and, with `oql_track_remote`, of the credits that
are out. -/
def Exact (s : PortControl) : Prop :=
  ∀ vc < cfg.num_vcs,
    s.output_queue_lengths vc = counted cfg (buffered s) vc +
      if cfg.oql_track_remote then counted cfg s.unreturned (creditClass cfg vc) else 0

/-- With `oql_track_remote`, credits come back to a host port that counts all channels
together or whose network has the one channel of its number, and no other channel
shares the class of one that sends. -/
def Tracked (s : PortControl) : Op → Prop
  | .credit vc credits => cfg.oql_track_remote = true → credits ≠ 0 →
      cfg.host_port = true ∧
        (cfg.oql_track_port = true ∨ ∀ i < cfg.num_vcs, cfg.vn i = vc ↔ i = vc)
  | .handle_output arbitrated =>
    cfg.oql_track_remote = true → cfg.oql_track_port = false → s.ctrl_queue = [] →
      ∀ vc ∈ vc_to_send s arbitrated, (s.output_buf vc).head? ≠ some 0 →
        ∀ i < cfg.num_vcs, creditClass cfg i = creditClass cfg vc → i = vc
  | _ => True

end Port

section Changes

variable {cfg : Config} {s t : PortControl} {vc key : Nat}

end Changes

section Steps

variable {cfg : Config} {s t : PortControl}

section

variable (hs : Exact cfg s)
include hs

end

end Steps

section Runs

/-- One flit that is sent, leaves, and whose credit comes back. -/
def roundTrip : List Op := [.send 1 0, .handle_output (some 0), .credit 0 1]

end Runs

end SstElements.Merlin.OutputQueueLengths
