import Mathlib
import SstElements.Library.MessagePassing

/-!
# Collectives on a tree of ranks

Reduce, allreduce and broadcast are one state machine: data goes up a tree of the ranks of a
group, down the tree, or both.
-/

namespace SstElements.Firefly

open Library

/-- The place of a rank in the tree of its group. -/
structure YYY where
  degree : Nat
  myRank : Nat
  size : Nat
  root : Nat
deriving DecidableEq, Repr

namespace YYY

/-- Rank 0 and the root change places. -/
def myVirtRank (y : YYY) : Nat :=
  if 0 < y.root then
    if y.root = y.myRank then 0
    else if y.myRank = 0 then y.root
    else y.myRank
  else y.myRank

/-- The 32 bits of an `int`, in which the product wraps. -/
def calcChild (y : YYY) (i : Nat) : Nat :=
  let child := (y.myVirtRank * y.degree + i + 1) % 2 ^ 32
  if child = 0 then y.root
  else if child = y.root then 0
  else child

/-- The numbers are compared with their signs. -/
def numChildren (y : YYY) : Nat :=
  ((List.range y.degree).filter fun i => Int.bmod (y.calcChild i) (2 ^ 32) < y.size).length

/-- There is no parent where the code has -1. -/
def parent (y : YYY) : Option Nat :=
  if 0 < y.myVirtRank then
    let tmp := y.myVirtRank % y.degree
    let tmp := if tmp = 0 then y.degree else tmp
    let parent := (y.myVirtRank - tmp) / y.degree
    some (if parent = 0 then y.root else if parent = y.root then 0 else parent)
  else none

end YYY

section Operations

inductive PayloadDataType
  | CHAR | SIGNED_CHAR | UNSIGNED_CHAR | INT | LONG | LONG_LONG
  | UNSIGNED_INT | UNSIGNED_LONG | UNSIGNED_LONG_LONG
  | INT8_T | INT16_T | INT32_T | INT64_T
  | UINT8_T | UINT16_T | UINT32_T | UINT64_T
  | DOUBLE | FLOAT | COMPLEX
deriving DecidableEq, Repr

def Info.sizeofDataType : PayloadDataType → Nat
  | .CHAR | .SIGNED_CHAR | .UNSIGNED_CHAR | .INT8_T | .UINT8_T => 1
  | .INT16_T | .UINT16_T => 2
  | .INT | .UNSIGNED_INT | .INT32_T | .UINT32_T | .FLOAT => 4
  | .LONG | .LONG_LONG | .UNSIGNED_LONG | .UNSIGNED_LONG_LONG | .INT64_T | .UINT64_T | .DOUBLE => 8
  | .COMPLEX => 16

/-- A function of the user sees the inputs, the result and the number of elements. -/
inductive ReductionOp (T : Type)
  | Nop
  | Sum
  | Min
  | Max
  | Func (userFunction : List (Nat → T) → (Nat → T) → Nat → Option (Nat → T))

variable {T : Type} [Add T] [LT T] [DecidableLT T]

def sum (x y : T) : T := x + y

def min (x y : T) : T := if x < y then x else y

def max (x y : T) : T := if y < x then x else y

/-- Without a result an assertion has failed. -/
def doOp (x y : T) : ReductionOp T → Option T
  | .Sum => some (sum x y)
  | .Min => some (min x y)
  | .Max => some (max x y)
  | .Nop | .Func _ => none

/-- The first elements of the result, as many as there are to compute. -/
def reduceElements (input : Nat → T) (rest : List (Nat → T)) (op : ReductionOp T) (count : Nat) :
    Option (List T) :=
  (List.range count).mapM fun c => rest.foldlM (fun acc other => doOp acc (other c) op) (input c)

/-- What a buffer holds after some elements were stored at its beginning. -/
def storeElements (elements : List T) (buffer : Nat → T) (c : Nat) : T := elements.getD c (buffer c)

/-- The template is used for the type of elements that `dtype` names; COMPLEX has none. -/
def collectiveOp (input : Nat → T) (rest : List (Nat → T)) (result : Nat → T) (count : Nat)
    (dtype : PayloadDataType) (op : ReductionOp T) : Option (Nat → T) :=
  match op with
  | .Func userFunction => userFunction (input :: rest) result count
  | op =>
    if dtype = .COMPLEX then none
    else (reduceElements input rest op count).map fun elements => storeElements elements result

end Operations

section StartEvents

inductive CollectiveType
  | Allreduce
  | Reduce
  | Bcast
deriving DecidableEq, Repr

/-- A buffer without backing only takes part in the timing. -/
abbrev Buffer (T : Type) := Option (Nat → T)

structure CollectiveStartEvent (T : Type) where
  mydata : Buffer T
  result : Buffer T
  count : Nat
  dtype : PayloadDataType
  op : ReductionOp T
  root : Nat
  type : CollectiveType

namespace HadesMP

variable {T : Type}

def allreduce (mydata result : Buffer T) (count : Nat) (dtype : PayloadDataType)
    (op : ReductionOp T) : CollectiveStartEvent T :=
  ⟨mydata, result, count, dtype, op, 0, .Allreduce⟩

def reduce (mydata result : Buffer T) (count : Nat) (dtype : PayloadDataType)
    (op : ReductionOp T) (root : Nat) : CollectiveStartEvent T :=
  ⟨mydata, result, count, dtype, op, root, .Reduce⟩

def bcast (mydata : Buffer T) (count : Nat) (dtype : PayloadDataType) (root : Nat) :
    CollectiveStartEvent T :=
  ⟨mydata, none, count, dtype, .Nop, root, .Bcast⟩

end HadesMP

end StartEvents

section StateMachine

inductive StateEnum
  | WaitUp
  | SendUp
  | WaitDown
  | SendDown
  | Exit
deriving DecidableEq, Repr

inductive WaitUpState
  | Posting
  | Waiting
  | DoOp
deriving DecidableEq, Repr

inductive SendDownState
  | Sending
  | Waiting
deriving DecidableEq, Repr

/-- The names of the requests of one collective. -/
inductive TreeSlot
  | recvUp (i : Nat)
  | sendUp
  | recvDown
  | sendDown (i : Nat)
deriving DecidableEq, Repr

/-- The elements that a message carries. -/
abbrev Payload (T : Type) := Option (List T)

abbrev TreeCall (T : Type) := Call TreeSlot Nat (Payload T)

/-- A rank with the state machine of its function.  The machine runs while it has an event. -/
structure CollectiveTreeFuncSM (T : Type) where
  degree : Nat
  myRank : Nat
  size : Nat
  m_event : CollectiveStartEvent T
  started : Bool
  m_seq : Nat
  m_state : StateEnum
  m_waitUpState : WaitUpState × Nat
  m_sendDownState : SendDownState × Nat
  /-- The buffers for the data of the children. -/
  m_bufV : Nat → Buffer T

namespace CollectiveTreeFuncSM

variable {T : Type}

def m_yyy (s : CollectiveTreeFuncSM T) : YYY := ⟨s.degree, s.myRank, s.size, s.m_event.root⟩

def genTag (s : CollectiveTreeFuncSM T) : Nat := 0x30000000 + s.m_seq % 2 ^ 16

/-- The elements of a buffer that a message of the collective carries. -/
def payload (count : Nat) (buffer : Buffer T) : Payload T :=
  buffer.map fun elements => (List.range count).map elements

def copyIn (data : Payload T) (buffer : Buffer T) : Buffer T :=
  match data, buffer with
  | some elements, some old => some (storeElements elements old)
  | _, _ => buffer

def setResult (s : CollectiveTreeFuncSM T) (result : Buffer T) : CollectiveTreeFuncSM T :=
  { s with m_event := { s.m_event with result := result } }

/-- The results are the calls to the message layer and the machine that goes on later. -/
abbrev Step (T : Type) := Option (TreeCall T × CollectiveTreeFuncSM T)

def exit (s : CollectiveTreeFuncSM T) : Step T := some (⟨[], none⟩, s)

def sendDown (s : CollectiveTreeFuncSM T) : Step T :=
  if s.m_event.type ≠ .Reduce ∧ s.m_yyy.numChildren ≠ 0 then
    match s.m_sendDownState with
    | (.Sending, child) =>
      let next :=
        if child + 1 = s.m_yyy.numChildren then (SendDownState.Waiting, 0)
        else (SendDownState.Sending, child + 1)
      some
        (⟨[.send (.sendDown child) (s.m_yyy.calcChild child) s.genTag
            (payload s.m_event.count s.m_event.result)], some []⟩,
          { s with m_sendDownState := next })
    | (.Waiting, _) =>
      some (⟨[], some ((List.range s.m_yyy.numChildren).map .sendDown)⟩,
        { s with m_state := .Exit })
  else s.exit

def waitDown (s : CollectiveTreeFuncSM T) : Step T :=
  if s.m_event.type ≠ .Reduce then
    match s.m_yyy.parent with
    | some parent =>
      some (⟨[.recv .recvDown parent s.genTag], some [.recvDown]⟩, { s with m_state := .SendDown })
    | none => s.sendDown
  else s.sendDown

/-- A leaf sends its own data, any other rank what it has computed. -/
def sendUp (s : CollectiveTreeFuncSM T) : Step T :=
  match s.m_yyy.parent with
  | some parent =>
    let buffer := if s.m_yyy.numChildren ≠ 0 then s.m_event.result else s.m_event.mydata
    some (⟨[.send .sendUp parent s.genTag (payload s.m_event.count buffer)], some [.sendUp]⟩,
      { s with m_state := .WaitDown })
  | none => s.waitDown

section Operation

variable [Add T] [LT T] [DecidableLT T]

/-- The operation on the data of the rank and of its children.  Without a buffer for the
result the machine fails. -/
def reduceChildren (s : CollectiveTreeFuncSM T) : Option (CollectiveTreeFuncSM T) :=
  match s.m_event.mydata with
  | none => some s
  | some mydata =>
    s.m_event.result.bind fun result =>
      ((List.range s.m_yyy.numChildren).mapM (m := Option) s.m_bufV).bind fun inputs =>
        (collectiveOp mydata inputs result s.m_event.count s.m_event.dtype s.m_event.op).map
          fun out => s.setResult (some out)

def waitUp (s : CollectiveTreeFuncSM T) : Step T :=
  if s.m_yyy.numChildren ≠ 0 then
    match s.m_waitUpState with
    | (.Posting, child) =>
      let next :=
        if child + 1 = s.m_yyy.numChildren then (WaitUpState.Waiting, 0)
        else (WaitUpState.Posting, child + 1)
      some (⟨[.recv (.recvUp child) (s.m_yyy.calcChild child) s.genTag], some []⟩,
        { s with m_waitUpState := next })
    | (.Waiting, count) =>
      some (⟨[], some ((List.range s.m_yyy.numChildren).map .recvUp)⟩,
        { s with m_waitUpState := (.DoOp, count) })
    | (.DoOp, _) => s.reduceChildren.bind fun s => { s with m_state := .SendUp }.sendUp
  else { s with m_state := .SendUp }.sendUp

/-- The states fall through to the next ones. -/
def handleEnterEvent (s : CollectiveTreeFuncSM T) : Step T :=
  match s.m_state with
  | .WaitUp => s.waitUp
  | .SendUp => s.sendUp
  | .WaitDown => s.waitDown
  | .SendDown => s.sendDown
  | .Exit => s.exit

def start [Inhabited T] (s : CollectiveTreeFuncSM T) : CollectiveTreeFuncSM T :=
  { s with
    started := true
    m_seq := s.m_seq + 1
    m_bufV := fun _ => s.m_event.mydata.map fun _ _ => default
    m_waitUpState := (.Posting, 0)
    m_sendDownState := (.Sending, 0)
    m_state := if s.m_event.type = .Bcast then .WaitDown else .WaitUp }

def handleStartEvent [Inhabited T] (s : CollectiveTreeFuncSM T) : Step T := s.start.handleEnterEvent

/-- The messages of the children and of the parent have their own buffers. -/
def write (slot : TreeSlot) (data : Payload T) (s : CollectiveTreeFuncSM T) :
    CollectiveTreeFuncSM T :=
  match slot with
  | .recvUp i => { s with m_bufV := Function.update s.m_bufV i (copyIn data (s.m_bufV i)) }
  | .recvDown => s.setResult (copyIn data s.m_event.result)
  | .sendUp | .sendDown _ => s

def process [Inhabited T] : Process (CollectiveTreeFuncSM T) TreeSlot Nat (Payload T) where
  enter := fun s => if s.started then s.handleEnterEvent else s.handleStartEvent
  write := write

end Operation

end CollectiveTreeFuncSM

/-- A collective that all ranks of a group call, each with buffers of its own.  The counters
of the ranks say how many collectives they have called before. -/
structure TreeCollective (T : Type) where
  degree : Nat
  size : Nat
  type : CollectiveType
  root : Nat
  count : Nat
  dtype : PayloadDataType
  op : ReductionOp T
  mydata : Nat → Buffer T
  result : Nat → Buffer T
  seq : Nat → Nat

namespace TreeCollective

variable {T : Type}

def startEvent (k : TreeCollective T) (r : Nat) : CollectiveStartEvent T :=
  match k.type with
  | .Allreduce => HadesMP.allreduce (k.mydata r) (k.result r) k.count k.dtype k.op
  | .Reduce => HadesMP.reduce (k.mydata r) (k.result r) k.count k.dtype k.op k.root
  | .Bcast => HadesMP.bcast (k.mydata r) k.count k.dtype k.root

/-- A rank before its collective. -/
def initial (k : TreeCollective T) (r : Nat) : CollectiveTreeFuncSM T where
  degree := k.degree
  myRank := r
  size := k.size
  m_event := k.startEvent r
  started := false
  m_seq := k.seq r
  m_state := .Exit
  m_waitUpState := (.Posting, 0)
  m_sendDownState := (.Sending, 0)
  m_bufV := fun _ => none

end TreeCollective

end StateMachine

end SstElements.Firefly
