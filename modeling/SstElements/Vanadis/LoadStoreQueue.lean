import SstElements.Vanadis.Pipeline

/-!
# The load/store queue of the core

Loads, stores and fences of all hardware threads wait in one queue.  Loads leave it
for the memory system when no older store of their thread overlaps them; stores wait
in a second queue until they are at the front of the reorder buffer.  An instruction
is known by its thread and its place in the program order of the thread.
-/

namespace SstElements.Vanadis

inductive VanadisMemoryTransaction
  | MEM_TRANSACTION_NONE
  | MEM_TRANSACTION_LLSC_LOAD
  | MEM_TRANSACTION_LLSC_STORE
  | MEM_TRANSACTION_LOCK
  deriving DecidableEq

inductive VanadisFenceType
  | VANADIS_LOAD_FENCE
  | VANADIS_STORE_FENCE
  | VANADIS_LOAD_STORE_FENCE
  deriving DecidableEq

def VanadisFenceType.createsLoadFence : VanadisFenceType → Bool
  | .VANADIS_LOAD_FENCE | .VANADIS_LOAD_STORE_FENCE => true
  | .VANADIS_STORE_FENCE => false

def VanadisFenceType.createsStoreFence : VanadisFenceType → Bool
  | .VANADIS_STORE_FENCE | .VANADIS_LOAD_STORE_FENCE => true
  | .VANADIS_LOAD_FENCE => false

/-- An instruction. -/
structure InsId (hw_threads : Nat) where
  hw_thr : Fin hw_threads
  seq : Nat
  deriving DecidableEq

/-- What a load does once its registers are known. -/
structure LoadAccess where
  transaction : VanadisMemoryTransaction
  address : Nat
  width : Nat
  register_offset : Nat
  signed_extend : Bool
  register : RegisterKind
  target_reg : Nat
  ignores_writes : Nat

/-- What a store does; `value` are the bytes that it takes from its register. -/
structure StoreAccess where
  transaction : VanadisMemoryTransaction
  address : Nat
  width : Nat
  value : List UInt8
  result_reg : Nat
  value_success : List UInt8
  value_failure : List UInt8

inductive VanadisBasicLoadStoreEntry (hw_threads : Nat)
  | load (ins : InsId hw_threads) (access : LoadAccess)
  | store (ins : InsId hw_threads) (access : StoreAccess)
  | fence (ins : InsId hw_threads) (fence : VanadisFenceType)

def VanadisBasicLoadStoreEntry.getInstruction
    {hw_threads : Nat} : VanadisBasicLoadStoreEntry hw_threads → InsId hw_threads
  | .load ins _ => ins
  | .store ins _ => ins
  | .fence ins _ => ins

structure VanadisBasicLoadPendingEntry (hw_threads : Nat) where
  ins : InsId hw_threads
  access : LoadAccess
  requests : List Nat

structure VanadisBasicStorePendingEntry (hw_threads : Nat) where
  ins : InsId hw_threads
  access : StoreAccess
  requests : List Nat
  dispatched : Bool

/-- The last address of an access; addresses have 64 bits. -/
def accessEnd (address width : Nat) : Nat := (address + width + (2 ^ 64 - 1)) % 2 ^ 64

def VanadisBasicStorePendingEntry.storeAddressOverlaps
    {hw_threads : Nat} (entry : VanadisBasicStorePendingEntry hw_threads)
    (loadAddress loadWidth : Nat) : Bool :=
  let storeAddress := entry.access.address
  let store_end := accessEnd storeAddress entry.access.width
  let load_end := accessEnd loadAddress loadWidth
  (decide (storeAddress ≤ loadAddress) && decide (loadAddress ≤ store_end)) ||
    (decide (loadAddress ≤ storeAddress) && decide (storeAddress ≤ load_end))

inductive RequestKind
  | Read
  | LoadLink
  | ReadLock
  | Write
  | StoreConditional
  | WriteUnlock
  deriving DecidableEq

def RequestKind.isRead : RequestKind → Bool
  | .Read | .LoadLink | .ReadLock => true
  | .Write | .StoreConditional | .WriteUnlock => false

/-- A request to the memory system, and the instruction that it is for. -/
structure MemRequest (hw_threads : Nat) where
  id : Nat
  ins : InsId hw_threads
  kind : RequestKind
  pAddr : Nat
  vAddr : Nat
  size : Nat
  payload : List UInt8

structure ReadResp where
  id : Nat
  vAddr : Nat
  data : List UInt8
  fail : Bool

structure WriteResp where
  id : Nat
  success : Bool

/-- What the queue does to its surroundings. -/
inductive LsqEffect (hw_threads : Nat)
  | send (req : MemRequest hw_threads)
  | markExecuted (ins : InsId hw_threads)
  | flagError (ins : InsId hw_threads)
  | setReg (hw_thr : Fin hw_threads) (kind : RegisterKind) (reg : Nat) (value : List UInt8)

structure LsqParams where
  max_stores : Nat
  max_loads : Nat
  max_issue_attempts_per_cycle : Nat
  cache_line_width : Nat
  address_mask : Nat

/-- What the queue reads from the instructions. -/
structure InsFlags (hw_threads : Nat) where
  completedIssue : InsId hw_threads → Bool
  checkFrontOfROB : InsId hw_threads → Bool
  trapsError : InsId hw_threads → Bool

/-- The queue; requests get the next number. -/
structure VanadisBasicLoadStoreQueue (hw_threads : Nat) where
  op_q : List (VanadisBasicLoadStoreEntry hw_threads)
  stores_pending : List (VanadisBasicStorePendingEntry hw_threads)
  loads_pending : List (VanadisBasicLoadPendingEntry hw_threads)
  std_stores_in_flight : List Nat
  next_id : Nat

namespace VanadisBasicLoadStoreQueue

variable {hw_threads : Nat}

def empty (hw_threads : Nat) : VanadisBasicLoadStoreQueue hw_threads where
  op_q := []
  stores_pending := []
  loads_pending := []
  std_stores_in_flight := []
  next_id := 0

variable (params : LsqParams) (lsq : VanadisBasicLoadStoreQueue hw_threads)

def storeFull : Bool := params.max_stores ≤ lsq.op_q.length

def loadFull : Bool := params.max_loads ≤ lsq.op_q.length

def loadSize : Nat := lsq.op_q.length

def storeBufferSize : Nat := lsq.std_stores_in_flight.length

def push (entry : VanadisBasicLoadStoreEntry hw_threads) : VanadisBasicLoadStoreQueue hw_threads :=
  { lsq with op_q := lsq.op_q ++ [entry] }

/-- Everything of the thread is dropped, but not what is in flight. -/
def clearLSQByThreadID (thread : Fin hw_threads) : VanadisBasicLoadStoreQueue hw_threads :=
  { lsq with
    op_q := lsq.op_q.filter fun e => e.getInstruction.hw_thr ≠ thread
    loads_pending := lsq.loads_pending.filter fun e => e.ins.hw_thr ≠ thread
    stores_pending := lsq.stores_pending.filter fun e => e.ins.hw_thr ≠ thread }

def pendingStores (thr : Fin hw_threads) : Bool :=
  lsq.stores_pending.any fun e => e.ins.hw_thr = thr

def pendingLoads (thr : Fin hw_threads) : Bool := lsq.loads_pending.any fun e => e.ins.hw_thr = thr

def checkStoreConflict (thread : Fin hw_threads) (address width : Nat) : Bool :=
  lsq.stores_pending.any fun e =>
    decide (e.ins.hw_thr = thread) && e.storeAddressOverlaps address width

def operationStraddlesCacheLine (address width : Nat) : Bool :=
  address / params.cache_line_width ≠ accessEnd address width / params.cache_line_width

section Loads

/-- The width of the part behind the boundary of the cache line. -/
def widthRight (address width : Nat) : Nat := (address + width) % 2 ^ 64 % params.cache_line_width

def readRequest
    (kind : RequestKind) (ins : InsId hw_threads) (id address size : Nat) :
    MemRequest hw_threads where
  id := id
  ins := ins
  kind := kind
  pAddr := Nat.land address params.address_mask
  vAddr := address
  size := size
  payload := []

/-- Send the reads of a load and keep it until they are answered; `none` is the fatal
error for a load that conditionally stores. -/
def issueLoad
    (ins : InsId hw_threads) (access : LoadAccess) :
    Option (VanadisBasicLoadStoreQueue hw_threads × List (LsqEffect hw_threads)) :=
  let needs_split := operationStraddlesCacheLine params access.address access.width
  let keep (reqs : List (MemRequest hw_threads)) :=
    ({ lsq with
        loads_pending := lsq.loads_pending ++
          [{ ins := ins, access := access, requests := reqs.map MemRequest.id }]
        next_id := lsq.next_id + reqs.length }, reqs.map LsqEffect.send)
  match access.transaction with
  | .MEM_TRANSACTION_NONE =>
    if needs_split then
      let load_width_right := widthRight params access.address access.width
      let load_width_left := access.width - load_width_right
      some (keep
        [readRequest params .Read ins lsq.next_id access.address load_width_left,
          readRequest params .Read ins (lsq.next_id + 1)
            ((access.address + load_width_left) % 2 ^ 64) load_width_right])
    else if Nat.land access.address params.address_mask = 0 then
      some (lsq, [.flagError ins])
    else
      some (keep [readRequest params .Read ins lsq.next_id access.address access.width])
  | .MEM_TRANSACTION_LLSC_LOAD =>
    if needs_split then
      some (lsq, [.flagError ins])
    else
      some (keep [readRequest params .LoadLink ins lsq.next_id access.address access.width])
  | .MEM_TRANSACTION_LLSC_STORE => none
  | .MEM_TRANSACTION_LOCK =>
    if needs_split then
      some (lsq, [.flagError ins])
    else
      some (keep [readRequest params .ReadLock ins lsq.next_id access.address access.width])

end Loads

section Stores

def writeRequest
    (kind : RequestKind) (ins : InsId hw_threads) (id address : Nat) (payload : List UInt8) :
    MemRequest hw_threads where
  id := id
  ins := ins
  kind := kind
  pAddr := Nat.land address params.address_mask
  vAddr := address
  size := payload.length
  payload := payload

/-- Send the writes of the store at the front of the pending stores.  A standard store
is done with that; the others stay until they are answered.  `none` are the fatal
errors for stores of the wrong kind. -/
def issueStore
    (store_entry : VanadisBasicStorePendingEntry hw_threads)
    (rest : List (VanadisBasicStorePendingEntry hw_threads)) :
    Option (VanadisBasicLoadStoreQueue hw_threads × List (LsqEffect hw_threads)) :=
  let access := store_entry.access
  let needs_split := operationStraddlesCacheLine params access.address access.width
  let standard (reqs : List (MemRequest hw_threads)) :=
    ({ lsq with
        stores_pending := rest
        std_stores_in_flight := lsq.std_stores_in_flight ++ reqs.map MemRequest.id
        next_id := lsq.next_id + reqs.length },
      reqs.map LsqEffect.send ++ [.markExecuted store_entry.ins])
  let dispatch (kind : RequestKind) :=
    ({ lsq with
        stores_pending :=
          { store_entry with
            requests := store_entry.requests ++ [lsq.next_id], dispatched := true } :: rest
        next_id := lsq.next_id + 1 },
      (if access.address < 4096 then [.flagError store_entry.ins] else []) ++
        [.send (writeRequest params kind store_entry.ins lsq.next_id access.address access.value)])
  match access.transaction with
  | .MEM_TRANSACTION_NONE =>
    if needs_split then
      let store_width_right := widthRight params access.address access.width
      let store_width_left := access.width - store_width_right
      some (standard
        [writeRequest params .Write store_entry.ins lsq.next_id access.address
            (access.value.take store_width_left),
          writeRequest params .Write store_entry.ins (lsq.next_id + 1)
            ((access.address + store_width_left) % 2 ^ 64) (access.value.drop store_width_left)])
    else
      some (standard
        [writeRequest params .Write store_entry.ins lsq.next_id access.address access.value])
  | .MEM_TRANSACTION_LLSC_LOAD => none
  | .MEM_TRANSACTION_LLSC_STORE => if needs_split then none else some (dispatch .StoreConditional)
  | .MEM_TRANSACTION_LOCK => if needs_split then none else some (dispatch .WriteUnlock)

/-- The oldest pending store goes to memory when it is at the front of the reorder
buffer. -/
def issueStoreFront
    (flags : InsFlags hw_threads) :
    Option (VanadisBasicLoadStoreQueue hw_threads × List (LsqEffect hw_threads)) :=
  match lsq.stores_pending with
  | [] => some (lsq, [])
  | current_store :: rest =>
    if !current_store.dispatched && flags.checkFrontOfROB current_store.ins &&
        flags.completedIssue current_store.ins then
      lsq.issueStore params current_store rest
    else
      some (lsq, [])

end Stores

section Tick

/-- Process the front of the queue; the flag says whether it was removed. -/
def attempt_to_issue
    (flags : InsFlags hw_threads) :
    Option (Bool × VanadisBasicLoadStoreQueue hw_threads × List (LsqEffect hw_threads)) :=
  match lsq.op_q with
  | [] => some (false, lsq, [])
  | front_entry :: rest =>
    let popped := { lsq with op_q := rest }
    if !flags.completedIssue front_entry.getInstruction then
      some (false, lsq, [])
    else
      match front_entry with
      | .load ins access =>
        if params.max_loads ≤ lsq.loads_pending.length then
          some (false, lsq, [])
        else if flags.trapsError ins then
          some (true, popped, [])
        else if lsq.checkStoreConflict ins.hw_thr access.address access.width then
          some (false, lsq, [])
        else
          (popped.issueLoad params ins access).map fun issued => (true, issued.1, issued.2)
      | .store ins access =>
        if params.max_stores ≤ lsq.stores_pending.length then
          some (false, lsq, [])
        else if flags.trapsError ins then
          some (true, popped, [.markExecuted ins])
        else
          some (true,
            { popped with
              stores_pending := lsq.stores_pending ++
                [{ ins := ins, access := access, requests := [], dispatched := false }] }, [])
      | .fence ins fence =>
        let loads_done := !fence.createsLoadFence || !lsq.pendingLoads ins.hw_thr
        let stores_done := !fence.createsStoreFence ||
          (!lsq.pendingStores ins.hw_thr && lsq.std_stores_in_flight.isEmpty)
        if loads_done && stores_done then
          some (true, popped, [.markExecuted ins])
        else
          some (false, lsq, [])

/-- A number of attempts, until one fails. -/
def attempts
    (flags : InsFlags hw_threads) :
    Nat → VanadisBasicLoadStoreQueue hw_threads →
      Option (VanadisBasicLoadStoreQueue hw_threads × List (LsqEffect hw_threads))
  | 0, lsq => some (lsq, [])
  | n + 1, lsq =>
    (lsq.attempt_to_issue params flags).bind fun result =>
      if result.1 then
        (attempts flags n result.2.1).map fun rest => (rest.1, result.2.2 ++ rest.2)
      else
        some result.2

def tick
    (flags : InsFlags hw_threads) :
    Option (VanadisBasicLoadStoreQueue hw_threads × List (LsqEffect hw_threads)) :=
  (attempts params flags params.max_issue_attempts_per_cycle lsq).bind fun issued =>
    (issued.1.issueStoreFront params flags).map fun stored => (stored.1, issued.2 ++ stored.2)

end Tick

section Responses

/-- Put the bytes of a response into an integer register; the last response of a load
extends it. -/
def unpackInt
    (access : LoadAccess) (last : Bool) (ev : ReadResp) (register_value : List UInt8) :
    List UInt8 :=
  let place := access.register_offset + (ev.vAddr + 2 ^ 64 - access.address) % 2 ^ 64
  let top := ev.data.getD (ev.data.length - 1) 0
  let fill : UInt8 := if access.signed_extend && decide (128 ≤ top) then 255 else 0
  register_value.mapIdx fun i old =>
    if place ≤ i ∧ i < place + ev.data.length then ev.data.getD (i - place) 0
    else if last ∧ place + ev.data.length ≤ i then fill
    else old

/-- Put the bytes of a response into a floating-point register; the loop starts at the
place of the first byte and not at zero. -/
def unpackFP
    (access : LoadAccess) (last : Bool) (ev : ReadResp) (register_value : List UInt8) :
    List UInt8 :=
  let place := access.register_offset + (ev.vAddr + 2 ^ 64 - access.address) % 2 ^ 64
  register_value.mapIdx fun i old =>
    if 2 * place ≤ i ∧ i < place + ev.data.length then ev.data.getD (i - place) 0
    else if last ∧ place + ev.data.length ≤ i then 0
    else old

def removeRequest (id : Nat) :
    List (VanadisBasicLoadPendingEntry hw_threads) →
      List (VanadisBasicLoadPendingEntry hw_threads)
  | [] => []
  | e :: rest =>
    if e.requests.contains id then
      if e.requests.erase id = [] then
        rest
      else
        { e with requests := e.requests.erase id } :: rest
    else
      e :: removeRequest id rest

/-- The response to a read, when the register of the load has the value; `none` are the
assertion that the bytes fit into the register. -/
def handleReadResp
    (register_value : List UInt8) (ev : ReadResp) :
    Option (VanadisBasicLoadStoreQueue hw_threads × List (LsqEffect hw_threads)) :=
  match lsq.loads_pending.find? fun e => e.requests.contains ev.id with
  | none => some (lsq, [])
  | some load_entry =>
    let access := load_entry.access
    let ignored := decide (access.register = .int ∧ access.target_reg = access.ignores_writes)
    let last := decide (load_entry.requests.length = 1)
    let place := access.register_offset + (ev.vAddr + 2 ^ 64 - access.address) % 2 ^ 64
    if !ignored && decide (register_value.length < place + ev.data.length) then
      none
    else
      let value :=
        if access.register = .int then unpackInt access last ev register_value
        else unpackFP access last ev register_value
      some
        ({ lsq with loads_pending := removeRequest ev.id lsq.loads_pending },
          (if ev.fail || decide (ev.vAddr < 64) then [.flagError load_entry.ins] else []) ++
          (if ignored then []
            else [.setReg load_entry.ins.hw_thr access.register access.target_reg value]) ++
          if load_entry.requests.erase ev.id = [] then [.markExecuted load_entry.ins] else [])

/-- The response to a write; `none` is the fatal error for a standard store that waits
for a response. -/
def handleWriteResp
    (ev : WriteResp) :
    Option (VanadisBasicLoadStoreQueue hw_threads × List (LsqEffect hw_threads)) :=
  if lsq.std_stores_in_flight.contains ev.id then
    some ({ lsq with std_stores_in_flight := lsq.std_stores_in_flight.erase ev.id }, [])
  else
    match lsq.stores_pending with
    | [] => some (lsq, [])
    | store_entry :: rest =>
      let access := store_entry.access
      if store_entry.requests.contains ev.id then
        match access.transaction with
        | .MEM_TRANSACTION_LLSC_STORE =>
          some ({ lsq with stores_pending := rest },
            [.setReg store_entry.ins.hw_thr .int access.result_reg
                (if ev.success then access.value_success else access.value_failure),
              .markExecuted store_entry.ins])
        | .MEM_TRANSACTION_LOCK =>
          some ({ lsq with stores_pending := rest }, [.markExecuted store_entry.ins])
        | _ => none
      else
        some (lsq, [])

end Responses

end VanadisBasicLoadStoreQueue

end SstElements.Vanadis
