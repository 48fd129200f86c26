import Mathlib.Tactic

/-!
# Sending requests through a link control

A link control puts the requests of an endpoint into the queue of a virtual
network, if the queue has credits for them.  The destination of a request is
translated before the credits are looked at.
-/

namespace SstElements.Merlin.LinkControl

/-- A network address; the code keeps it in 64 bits. -/
abbrev Nid := Int

/-- `Request::TraceType`. -/
inductive TraceType where
  | NONE
  | ROUTE
  | FULL
  deriving DecidableEq, Repr

/-- A request of an endpoint. -/
structure Request (α : Type) where
  dest : Nid
  src : Nid
  vn : Int
  size_in_bits : UInt64
  payload : α
  trace : TraceType
  traceID : Int
  deriving DecidableEq, Repr

/-- A request on its way to the router. -/
structure RtrEvent (α : Type) where
  request : Request α
  trusted_src : Nid
  route_vn : Int
  injectionTime : UInt64
  size_in_flits : Int32
  deriving DecidableEq, Repr

def computeSizeInFlits {α : Type} (request : Request α) (flit_size : Int32) : Int32 :=
  ((request.size_in_bits + flit_size.toInt64.toUInt64 - 1) /
    flit_size.toInt64.toUInt64).toUInt32.toInt32

/-- A queue with the virtual network it is for and the credits it has left. -/
structure OutputQueueBundle (α : Type) where
  queue : List (RtrEvent α)
  vn : Int
  credits : Int32

/-- What is known about a throttled destination. -/
structure CongestionState where
  backoff : Int
  throttle_time : Nat
  count : Int
  deriving DecidableEq, Repr

/-- What a call does besides: the timer that starts the output, and a trace. -/
inductive Effect where
  | output_timing
  | trace (traceID : Int) (now : UInt64)
  deriving DecidableEq, Repr

end LinkControl

open LinkControl

/-- The state of a link control, as far as sending needs it. -/
structure LinkControl (α : Type) where
  req_vns : Int
  id : Nid
  flit_size : Int32
  use_nid_map : Bool
  nid_map : Nid → Nid
  vn_remap_out : Int → Option Nat
  output_queues : Nat → OutputQueueBundle α
  waiting : Bool
  have_packets : Bool
  congestion_state : Int32 → Option CongestionState
  effects : List Effect

namespace LinkControl

section Calls

variable {α : Type} (c : LinkControl α)

/-- The congestion counts are found by the low 32 bits of an address. -/
def congestionKey (dest : Nid) : Int32 := Int32.ofInt dest

def countPacket (dest : Nid) : LinkControl α :=
  match c.congestion_state (congestionKey dest) with
  | some s =>
    { c with
      congestion_state := Function.update c.congestion_state (congestionKey dest)
        (some { s with count := s.count + 1 }) }
  | none => c

/-- The timer is started when the output waits for something to send. -/
def wakeOutput : LinkControl α :=
  if c.waiting && !c.have_packets then
    { c with waiting := false, effects := c.effects ++ [.output_timing] }
  else c

def traceSend (ev : RtrEvent α) (now : UInt64) : LinkControl α :=
  if ev.request.trace ≠ .NONE then
    { c with effects := c.effects ++ [.trace ev.request.traceID now] }
  else c

/-- The destination is replaced by its entry of the map. -/
def translateDest (req : Request α) : Request α :=
  if c.use_nid_map then { req with dest := c.nid_map req.dest } else req

/--
`send`: whether the request was taken, the request as the call leaves it, and
the new state; `none` is a virtual network without a queue.
-/
def send (now : UInt64) (req : Request α) (vn : Int) : Option (Bool × Request α × LinkControl α) :=
  if c.req_vns ≤ vn then some (false, req, c)
  else
    let req := c.translateDest { req with vn := vn }
    (c.vn_remap_out vn).map (fun out_handle =>
      let out := c.output_queues out_handle
      let flits := computeSizeInFlits req c.flit_size
      if out.credits < flits then (false, req, c)
      else
        let ev : RtrEvent α := ⟨req, c.id, out.vn, now, flits⟩
        let c' := { c with
          output_queues := Function.update c.output_queues out_handle
            { out with credits := out.credits - flits, queue := out.queue ++ [ev] } }
        (true, req, ((c'.wakeOutput).countPacket req.dest).traceSend ev now))

end Calls

section Documented

variable {α : Type} (c : LinkControl α)

/-- The address of a destination in the network. -/
def translate (dest : Nid) : Nid := if c.use_nid_map then c.nid_map dest else dest

/-- The request as it is to be sent. -/
def addressed (req : Request α) (vn : Int) : Request α :=
  { req with vn := vn, dest := c.translate req.dest }

def LacksCredits (req : Request α) (vn : Int) : Prop :=
  vn < c.req_vns ∧ ∃ out_handle, c.vn_remap_out vn = some out_handle ∧
    (c.output_queues out_handle).credits < computeSizeInFlits req c.flit_size

/--
The addressed request is put once at the end of the queue that its virtual
network is mapped to, for credits that the queue had, and counted if its
destination is throttled.
-/
structure Queued (now : UInt64) (req : Request α) (vn : Int) (c' : LinkControl α)
    (out_handle : Nat) : Prop where
  mapped : c.vn_remap_out vn = some out_handle
  credits : computeSizeInFlits req c.flit_size ≤ (c.output_queues out_handle).credits
  queue : c'.output_queues = Function.update c.output_queues out_handle
    { queue := (c.output_queues out_handle).queue ++
        [⟨c.addressed req vn, c.id, (c.output_queues out_handle).vn, now,
          computeSizeInFlits req c.flit_size⟩]
      vn := (c.output_queues out_handle).vn
      credits := (c.output_queues out_handle).credits -
        computeSizeInFlits req c.flit_size }
  counted : ∀ key, c'.congestion_state key =
    if key = congestionKey (c.translate req.dest)
    then (c.congestion_state key).map (fun s => { s with count := s.count + 1 })
    else c.congestion_state key

/-- Attempts that are all refused, at the states the link control has by then. -/
def refusals (vn : Int) : Request α → List (UInt64 × LinkControl α) → Option (Request α)
  | req, [] => some req
  | req, (now, c) :: later =>
    match c.send now req vn with
    | some (false, req', _) => refusals vn req' later
    | _ => none

/-- A later state; the virtual networks and the addresses are set up once. -/
structure SameTables (later : LinkControl α) : Prop where
  req_vns : later.req_vns = c.req_vns
  use_nid_map : later.use_nid_map = c.use_nid_map
  nid_map : later.nid_map = c.nid_map

/-- However often it is refused again, the request is sent as it would have been at first. -/
def RetriesReach (req req' : Request α) (vn : Int) : Prop :=
  ∀ later, (∀ p ∈ later, c.SameTables p.2) → ∀ req'', refusals vn req' later = some req'' →
    ∀ now last, c.SameTables last → ∀ sent last', last.send now req'' vn =
      some (true, sent, last') → sent = c.addressed req vn

/--
What a call of `send` is for: a refused request and the link control are as
before and the request can be sent later, and a request that is taken is queued.
-/
def SendsOrKeeps (now : UInt64) (req : Request α) (vn : Int) : Prop :=
  ∀ taken req' c', c.send now req vn = some (taken, req', c') →
    if taken then ∃ out_handle, c.Queued now req vn c' out_handle
    else req' = req ∧ c' = c ∧ c.RetriesReach req req' vn

end Documented

section Results

variable {α : Type} {c : LinkControl α} {now : UInt64} {req : Request α} {vn : Int}

@[simp]
theorem wakeOutput_output_queues : c.wakeOutput.output_queues = c.output_queues := by
  unfold wakeOutput
  split <;> rfl

@[simp]
theorem wakeOutput_congestion_state : c.wakeOutput.congestion_state = c.congestion_state := by
  unfold wakeOutput
  split <;> rfl

@[simp]
theorem traceSend_output_queues {ev : RtrEvent α} :
    (c.traceSend ev now).output_queues = c.output_queues := by
  unfold traceSend
  split <;> rfl

@[simp]
theorem traceSend_congestion_state {ev : RtrEvent α} :
    (c.traceSend ev now).congestion_state = c.congestion_state := by
  unfold traceSend
  split <;> rfl

@[simp]
theorem countPacket_output_queues {dest : Nid} :
    (c.countPacket dest).output_queues = c.output_queues := by
  unfold countPacket
  split <;> rfl

theorem countPacket_congestion_state {dest : Nid} (key : Int32) :
    (c.countPacket dest).congestion_state key = if key = congestionKey dest
      then (c.congestion_state key).map (fun s => { s with count := s.count + 1 })
      else c.congestion_state key := by
  unfold countPacket
  by_cases hkey : key = congestionKey dest
  · subst hkey
    split
    next s hs => simp [hs]
    next hs => simp [hs]
  · split
    next s hs => simp [hkey]
    next hs => simp [hkey]

theorem translateDest_eq : c.translateDest { req with vn := vn } = c.addressed req vn := by
  unfold translateDest addressed translate
  split <;> rfl

theorem send_cases {taken : Bool} {req' : Request α} {c' : LinkControl α}
    (h : c.send now req vn = some (taken, req', c')) :
    (c.req_vns ≤ vn ∧ taken = false ∧ req' = req ∧ c' = c) ∨
    (c.LacksCredits req vn ∧ taken = false ∧ req' = c.addressed req vn ∧ c' = c) ∨
    (¬ c.LacksCredits req vn ∧ taken = true ∧ req' = c.addressed req vn ∧
      ∃ out_handle, c.Queued now req vn c' out_handle) := by
  unfold send at h
  split at h
  next hvn =>
      obtain ⟨rfl, rfl, rfl⟩ := h
      exact .inl ⟨hvn, rfl, rfl, rfl⟩
  next hvn =>
      rw [Int.not_le] at hvn
      simp only [translateDest_eq, Option.map_eq_some_iff] at h
      obtain ⟨out_handle, hmapped, h⟩ := h
      have hflits : computeSizeInFlits (c.addressed req vn) c.flit_size =
          computeSizeInFlits req c.flit_size := rfl
      rw [hflits] at h
      split at h
      next hlt =>
          obtain ⟨rfl, rfl, rfl⟩ := h
          exact .inr (.inl ⟨⟨hvn, out_handle, hmapped, hlt⟩, rfl, rfl, rfl⟩)
      next hlt =>
          obtain ⟨rfl, rfl, rfl⟩ := h
          refine .inr (.inr ⟨?_, rfl, rfl, out_handle, hmapped, ?_, ?_, ?_⟩)
          · rintro ⟨-, out_handle', hmapped', hlt'⟩
            cases hmapped.symm.trans hmapped'
            exact hlt hlt'
          · exact Int32.not_lt.1 hlt
          · simp
          · intro key
            simp [countPacket_congestion_state, addressed]

theorem SameTables.translate_eq {later : LinkControl α} (h : c.SameTables later) (dest : Nid) :
    later.translate dest = c.translate dest := by
  rw [translate, translate, h.use_nid_map, h.nid_map]

theorem send_vn_lt {req' : Request α} {c' : LinkControl α}
    (h : c.send now req vn = some (true, req', c')) :
    vn < c.req_vns := by
  by_contra hvn
  unfold send at h
  rw [if_pos (Int.not_lt.1 hvn)] at h
  cases h

theorem refusals_eq {later : List (UInt64 × LinkControl α)} {req'' : Request α} (hvn : req.vn = vn)
    (hdest : c.translate req.dest = req.dest) (hlater : ∀ p ∈ later, c.SameTables p.2)
    (h : refusals vn req later = some req'') :
    req'' = req := by
  induction later with
  | nil =>
    exact (Option.some.inj h).symm
  | cons p later ih =>
    obtain ⟨now, l⟩ := p
    have hl := hlater _ List.mem_cons_self
    rw [refusals] at h
    split at h
    next req' c' hsend =>
        have hreq : req' = req := by
          rcases send_cases hsend with ⟨-, -, h, -⟩ | ⟨-, -, h, -⟩ | ⟨-, h, -⟩
          · exact h
          · rw [h, LinkControl.addressed, hl.translate_eq, hdest, ← hvn]
          · cases h
        rw [hreq] at h
        exact ih (fun p hp => hlater p (List.mem_cons_of_mem _ hp)) h
    next => cases h

/--
A call of `send` keeps what it refuses exactly if a request that lacks credits
has its virtual network and an address that the map leaves as it is.
-/
theorem sendsOrKeeps_iff (c : LinkControl α) (now : UInt64) (req : Request α) (vn : Int) :
    c.SendsOrKeeps now req vn ↔
      (c.LacksCredits req vn → req.vn = vn ∧ c.translate req.dest = req.dest) := by
  constructor
  · intro h hlacks
    have hsend : c.send now req vn = some (false, c.addressed req vn, c) := by
      obtain ⟨hvn, out_handle, hmapped, hlt⟩ := hlacks
      unfold send
      rw [if_neg (Int.not_le.2 hvn), hmapped]
      simp only [translateDest_eq, Option.map_some]
      exact congrArg some (if_pos hlt)
    obtain ⟨hreq, -⟩ := h false _ _ hsend
    exact ⟨(congrArg Request.vn hreq).symm, congrArg Request.dest hreq⟩
  · intro h taken req' c' hsend
    rcases send_cases hsend with ⟨hvn, rfl, hreq', hc'⟩ | ⟨hlacks, rfl, hreq', hc'⟩ |
      ⟨-, rfl, -, hqueued⟩
    · refine ⟨hreq', hc', ?_⟩
      intro later _ req'' _ now' last hlast sent last' hsent
      have hlt := send_vn_lt hsent
      rw [hlast.req_vns] at hlt
      exact absurd hvn (Int.not_le.2 hlt)
    · obtain ⟨hreq, hdest⟩ := h hlacks
      have haddressed : c.addressed req vn = req := by rw [addressed, hdest, ← hreq]
      refine ⟨hreq'.trans haddressed, hc', ?_⟩
      rw [hreq', haddressed]
      intro later hlater req'' hrefusals now' last hlast sent last' hsent
      obtain rfl := refusals_eq hreq hdest hlater hrefusals
      rcases send_cases hsent with ⟨-, h, -⟩ | ⟨-, h, -⟩ | ⟨-, -, h, -⟩
      · cases h
      · cases h
      · rw [h, addressed, hlast.translate_eq, addressed]
    · exact hqueued

/-- A request for a map without effect, at a link control without credits. -/
def emptyControl : LinkControl Unit where
  req_vns := 1
  id := 0
  flit_size := 8
  use_nid_map := true
  nid_map := fun nid => if nid = 0 then 1 else if nid = 1 then 0 else nid
  vn_remap_out := fun vn => if vn = 0 then some 0 else none
  output_queues := fun _ => ⟨[], 0, 0⟩
  waiting := true
  have_packets := false
  congestion_state := fun _ => none
  effects := []

/-- The destination 0 of a refused request becomes 1, and 0 again when it is sent. -/
theorem not_sendsOrKeeps_swapped : ¬ emptyControl.SendsOrKeeps 0 ⟨0, 0, 0, 64, (), .NONE, 0⟩ 0 := by
  intro h
  obtain ⟨hreq, -⟩ := h false _ _ rfl
  exact absurd (congrArg Request.dest hreq) (by decide)

end Results

end SstElements.Merlin.LinkControl
