import Mathlib.Data.List.Basic

/-!
# Processes that exchange messages

A process runs until it asks for something: it posts receives and sends and may wait for
some of its requests.  A message carries its source, its destination and a tag, and meets a
receive for all three; messages and receives that agree in the three meet in order.
-/

namespace SstElements.Library

open Function

variable {L S T D : Type}

/-- A request of a process; the slot is the name that the process gives to it. -/
inductive Request (S T D : Type)
  | recv (slot : S) (src : Nat) (tag : T)
  | send (slot : S) (dst : Nat) (tag : T) (data : D)

/-- What a process asks for when it stops.  It goes on when the requests it waits for are
complete; a process that is finished waits for nothing any more. -/
structure Call (S T D : Type) where
  requests : List (Request S T D)
  waits : Option (List S)

/-- How a process goes on, and what an arriving message does to its memory.  A process that
fails does not go on. -/
structure Process (L S T D : Type) where
  enter : L → Option (Call S T D × L)
  write : S → D → L → L

structure Channel (T : Type) where
  src : Nat
  dst : Nat
  tag : T
deriving DecidableEq, Repr

structure Message (S T D : Type) where
  channel : Channel T
  slot : S
  data : D

structure Receive (S T : Type) where
  channel : Channel T
  slot : S

namespace Request

def slot : Request S T D → S
  | .recv slot _ _ => slot
  | .send slot _ _ _ => slot

def message (r : Nat) : Request S T D → Option (Message S T D)
  | .recv _ _ _ => none
  | .send slot dst tag data => some ⟨⟨r, dst, tag⟩, slot, data⟩

/-- The receive that process `r` posts. -/
def receive (r : Nat) : Request S T D → Option (Receive S T)
  | .recv slot src tag => some ⟨⟨src, r, tag⟩, slot⟩
  | .send _ _ _ _ => none

end Request

/-- The processes, what they wait for, the messages that have met no receive, the receives that
have met no message, the sends that were complete before their messages met a receive, and
all messages so far. -/
structure Network (L S T D : Type) where
  state : Nat → L
  waits : Nat → Option (List S)
  messages : List (Message S T D)
  receives : List (Receive S T)
  released : Nat → List S
  sent : List (Message S T D)

inductive NetworkEvent
  /-- A process goes on. -/
  | enter (r : Nat)
  /-- A message meets a receive. -/
  | deliver (i j : Nat)
  /-- The send of a message that has met no receive is complete. -/
  | release (i : Nat)
deriving DecidableEq, Repr

namespace Network

def create (init : Nat → L) : Network L S T D where
  state := init
  waits := fun _ => some []
  messages := []
  receives := []
  released := fun _ => []
  sent := []

section Step

variable [DecidableEq S] [DecidableEq T]
variable (p : Process L S T D) (n : Nat) (eager : D → Bool)

/-- A request of a process that is not complete. -/
def Busy (s : Network L S T D) (r : Nat) (slot : S) : Prop :=
  (∃ v ∈ s.receives, v.channel.dst = r ∧ v.slot = slot) ∨
    ∃ m ∈ s.messages, m.channel.src = r ∧ m.slot = slot ∧ slot ∉ s.released r

instance (s : Network L S T D) (r : Nat) (slot : S) : Decidable (s.Busy r slot) :=
  inferInstanceAs (Decidable (_ ∨ _))

/-- The effect of what a process asked for. -/
def ask (s : Network L S T D) (r : Nat) (call : Call S T D) (state : L) : Network L S T D where
  state := update s.state r state
  waits := update s.waits r call.waits
  messages := s.messages ++ call.requests.filterMap (Request.message r)
  receives := s.receives ++ call.requests.filterMap (Request.receive r)
  released := s.released
  sent := s.sent ++ call.requests.filterMap (Request.message r)

def enter (s : Network L S T D) (r : Nat) : Option (Network L S T D) :=
  match s.waits r with
  | none => none
  | some slots =>
    if r < n ∧ ∀ slot ∈ slots, ¬ s.Busy r slot then
      (p.enter (s.state r)).map fun out => s.ask r out.1 out.2
    else none

/-- The first message of a channel meets the first receive of the channel. -/
def deliver (s : Network L S T D) (i j : Nat) : Option (Network L S T D) :=
  match s.messages[i]?, s.receives[j]? with
  | some m, some v =>
    if v.channel = m.channel ∧ (∀ other ∈ s.messages.take i, other.channel ≠ m.channel) ∧
        ∀ other ∈ s.receives.take j, other.channel ≠ m.channel then
      some
        { s with
          state := update s.state m.channel.dst
            (p.write v.slot m.data (s.state m.channel.dst))
          messages := s.messages.eraseIdx i
          receives := s.receives.eraseIdx j }
    else none
  | _, _ => none

def markReleased (s : Network L S T D) (m : Message S T D) : Network L S T D :=
  let r := m.channel.src
  { s with released := update s.released r (m.slot :: s.released r) }

/-- Whether a send can be complete before it has met a receive is decided by its data. -/
def release (s : Network L S T D) (i : Nat) : Option (Network L S T D) :=
  match s.messages[i]? with
  | some m =>
    if eager m.data ∧ m.slot ∉ s.released m.channel.src then some (s.markReleased m) else none
  | none => none

def step (s : Network L S T D) : NetworkEvent → Option (Network L S T D)
  | .enter r => s.enter p n r
  | .deliver i j => s.deliver p i j
  | .release i => s.release eager i

/-- All processes are finished, and every message has met a receive. -/
structure Finished (s : Network L S T D) : Prop where
  waits : ∀ r < n, s.waits r = none
  messages : s.messages = []
  receives : s.receives = []

/-- No event is possible. -/
def Stuck (s : Network L S T D) : Prop := ∀ e, s.step p n eager e = none

end Step

end Network

end SstElements.Library
