import SstElements.MemHierarchy.MemEvent

/-!
# Order of the outgoing queues

The two outgoing queues of a coherence controller over whole runs, with what was
enqueued and what was sent.  A queue is not sorted by time, but what was sent
followed by what waits never has an event behind a later one that it was not to
be overtaken by.
-/

namespace SstElements.MemHierarchy.CoherenceController

open List

/-- What a tick leaves as it is of a response, whose size may be charged in part. -/
def Response.timed (r : Response) : MemEvent × SimTime := (r.event, r.deliveryTime)

section Steps

/-- A new response goes behind all it may not overtake. -/
theorem exists_addToOutgoingQueue (queue : List Response) (x : Response) :
    ∃ front back, queue = front ++ back ∧
      Response.addToOutgoingQueue queue x = front ++ x :: back ∧
      ∀ y ∈ back, x.deliveryTime < y.deliveryTime ∧ x.event.baseAddr_ ≠ y.event.baseAddr_ := by
  have hsplit : ∀ l : List Response, ∃ passed rest, l = passed ++ rest ∧
      Response.insertFromBack x l = passed ++ x :: rest ∧
      ∀ y ∈ passed, x.deliveryTime < y.deliveryTime ∧
        x.event.baseAddr_ ≠ y.event.baseAddr_ := by
    intro l
    induction l with
    | nil =>
      exact ⟨[], [], rfl, rfl, by simp⟩
    | cons r l ih =>
      by_cases hstop : r.deliveryTime ≤ x.deliveryTime
          || x.event.baseAddr_ = r.event.baseAddr_
      · refine ⟨[], r :: l, rfl, ?_, by simp⟩
        rw [Response.insertFromBack, if_pos hstop, nil_append]
      · obtain ⟨passed, rest, hl, hins, hpassed⟩ := ih
        refine ⟨r :: passed, rest, by rw [hl, cons_append], ?_, ?_⟩
        · rw [Response.insertFromBack, if_neg hstop, hins, cons_append]
        · intro y hy
          rcases mem_cons.1 hy with rfl | hy
          · simpa using hstop
          · exact hpassed y hy
  obtain ⟨passed, rest, hrev, hins, hpassed⟩ := hsplit queue.reverse
  refine ⟨rest.reverse, passed.reverse, ?_, ?_, ?_⟩
  · rw [← reverse_append, ← hrev, reverse_reverse]
  · unfold Response.addToOutgoingQueue
    rw [hins]
    simp
  · intro y hy
    exact hpassed y (mem_reverse.1 hy)

/-- A tick sends due responses from the front and leaves the others in place. -/
theorem exists_sendReady (maxBytes : UInt64) (now : SimTime) (bytesLeft : UInt64)
    (queue : List Response) :
    ∃ gone kept, queue = gone ++ kept ∧
      (Response.sendReady maxBytes now bytesLeft queue).2 = gone.map Response.event ∧
      (Response.sendReady maxBytes now bytesLeft queue).1.map Response.timed =
        kept.map Response.timed ∧
      ∀ r ∈ gone, r.deliveryTime ≤ now := by
  induction queue generalizing bytesLeft with
  | nil =>
    exact ⟨[], [], rfl, rfl, rfl, by simp⟩
  | cons r rest ih =>
    have hfirst (hdue : ¬ now < r.deliveryTime) (bytesLeft : UInt64) :
        ∃ gone kept, r :: rest = gone ++ kept ∧
          r.event :: (Response.sendReady maxBytes now bytesLeft rest).2 =
            gone.map Response.event ∧
          (Response.sendReady maxBytes now bytesLeft rest).1.map Response.timed =
            kept.map Response.timed ∧
          ∀ r ∈ gone, r.deliveryTime ≤ now := by
      obtain ⟨gone, kept, hrest, hsent, hkept, hgone⟩ := ih bytesLeft
      refine ⟨r :: gone, kept, by rw [hrest, cons_append], by rw [hsent, map_cons], hkept, ?_⟩
      intro x hx
      rcases mem_cons.1 hx with rfl | hx
      · exact UInt64.not_lt.1 hdue
      · exact hgone x hx
    rw [Response.sendReady]
    split
    · exact ⟨[], r :: rest, rfl, rfl, rfl, by simp⟩
    next hdue =>
    split
    · exact hfirst hdue bytesLeft
    split
    · exact ⟨[], r :: rest, rfl, rfl, rfl, by simp⟩
    split
    · exact ⟨[], r :: rest, rfl, rfl, rfl, by simp⟩
    · exact hfirst hdue (bytesLeft - r.size)

/-- The bytes of a queue that are still to be sent. -/
def totalSize (queue : List Response) : Nat := (queue.map fun r => r.size.toNat).sum

theorem totalSize_cons (r : Response) (rest : List Response) :
    totalSize (r :: rest) = r.size.toNat + totalSize rest :=
  sum_cons

/-- A tick of a limited link takes no more bytes off the queue than it has. -/
theorem totalSize_sendReady {maxBytes : UInt64} (hlimit : maxBytes ≠ 0)
    (now : SimTime) (bytesLeft : UInt64) (queue : List Response) :
    totalSize queue ≤
      totalSize (Response.sendReady maxBytes now bytesLeft queue).1 + bytesLeft.toNat := by
  induction queue generalizing bytesLeft with
  | nil =>
    exact Nat.zero_le _
  | cons r rest ih =>
    rw [Response.sendReady]
    split
    · exact Nat.le_add_right _ _
    split
    · exact Nat.le_add_right _ _
    split
    · next hsize =>
      rw [totalSize_cons, totalSize_cons, UInt64.toNat_sub_of_le _ _ hsize.le]
      omega
    · next hsize =>
      have hle := UInt64.not_lt.1 hsize
      have hrest := ih (bytesLeft - r.size)
      have hle' := UInt64.le_iff_toNat_le.1 hle
      rw [UInt64.toNat_sub_of_le _ _ hle] at hrest
      rw [totalSize_cons]
      change _ ≤ totalSize (Response.sendReady maxBytes now (bytesLeft - r.size) rest).1 + _
      omega

end Steps

/-- An enqueued event with its number among the enqueued ones. -/
structure Item where
  number : Nat
  event : MemEvent
  deliveryTime : SimTime

def Item.timed (x : Item) : MemEvent × SimTime := (x.event, x.deliveryTime)

/-- An earlier event may only be behind a later one that overtook it. -/
def Overtakes (x y : Item) : Prop :=
  y.number < x.number →
    x.event.baseAddr_ ≠ y.event.baseAddr_ ∧ x.deliveryTime < y.deliveryTime

/-- Which enqueued events were sent, with the times of their ticks, and which wait. -/
structure Arrangement where
  sent : List (Item × SimTime)
  waiting : List Item

/-- The events sent, in order, and then those that wait, in order. -/
def Arrangement.line (a : Arrangement) : List Item := a.sent.map Prod.fst ++ a.waiting

/-- The events sent and the queue are an arrangement of the enqueued responses. -/
structure Arrangement.Orders (a : Arrangement) (enqueued : List Response)
    (sent : List (MemEvent × SimTime)) (queue : List Response) : Prop where
  sent_eq : a.sent.map (fun p => (p.1.event, p.2)) = sent
  waiting_eq : a.waiting.map Item.timed = queue.map Response.timed
  /-- Each enqueued event was sent or waits, exactly once. -/
  perm : (a.line.map Item.number).Perm (range enqueued.length)
  /-- The item of a number is the response enqueued under it. -/
  known : ∀ x ∈ a.line, (enqueued[x.number]?).map Response.timed = some x.timed
  /-- No event is sent before its delivery time. -/
  due : ∀ p ∈ a.sent, p.1.deliveryTime ≤ p.2
  /-- Same address, or not due earlier: sent in the order of enqueueing. -/
  order : a.line.Pairwise Overtakes

/--
The events sent with their times, followed by those in the queue, are the
enqueued ones in an order that was to be kept.
-/
def Arranged (enqueued : List Response) (sent : List (MemEvent × SimTime))
    (queue : List Response) : Prop :=
  ∃ a : Arrangement, a.Orders enqueued sent queue

section Arranged

variable {enqueued queue : List Response} {sent : List (MemEvent × SimTime)}

theorem arranged_nil : Arranged [] [] [] :=
  ⟨⟨[], []⟩, rfl, rfl, List.Perm.refl _, by simp [Arrangement.line], by simp,
    by simp [Arrangement.line]⟩

theorem Arrangement.Orders.number_lt {a : Arrangement} (h : a.Orders enqueued sent queue)
    {x : Item} (hx : x ∈ a.line) : x.number < enqueued.length :=
  mem_range.1 (h.perm.mem_iff.1 (mem_map_of_mem hx))

/-- What is enqueued keeps the queue arranged. -/
theorem Arranged.add (h : Arranged enqueued sent queue) (resp : Response) :
    Arranged (enqueued ++ [resp]) sent (Response.addToOutgoingQueue queue resp) := by
  obtain ⟨a, h⟩ := h
  obtain ⟨front, back, hqueue, hadd, hback⟩ := exists_addToOutgoingQueue queue resp
  obtain ⟨front', back', hwaiting, hfront', hback'⟩ : ∃ front' back',
      a.waiting = front' ++ back' ∧ front'.map Item.timed = front.map Response.timed ∧
        back'.map Item.timed = back.map Response.timed := by
    have hwaits := h.waiting_eq
    rw [hqueue, map_append] at hwaits
    exact map_eq_append_iff.1 hwaits
  let new : Item := ⟨enqueued.length, resp.event, resp.deliveryTime⟩
  let a' : Arrangement := ⟨a.sent, front' ++ new :: back'⟩
  have hline : a.line = a.sent.map Prod.fst ++ front' ++ back' := by
    rw [Arrangement.line, hwaiting, append_assoc]
  have hline' : a'.line = a.sent.map Prod.fst ++ front' ++ new :: back' :=
    (append_assoc _ _ _).symm
  have hmem : ∀ x ∈ a'.line, x = new ∨ x ∈ a.line := by
    intro x hx
    rw [hline', mem_append, mem_cons] at hx
    rw [hline, mem_append]
    tauto
  refine ⟨a', h.sent_eq, ?_, ?_, ?_, h.due, ?_⟩
  · rw [hadd, map_append, map_append, map_cons, map_cons, hfront', hback']
    rfl
  · have hperm := h.perm
    rw [hline] at hperm
    rw [length_append, length_singleton, range_succ, hline']
    refine (perm_middle.map Item.number).trans ?_
    rw [map_cons]
    exact (List.Perm.cons _ hperm).trans (perm_append_singleton _ _).symm
  · intro x hx
    rcases hmem x hx with rfl | hx
    · simp [new, Response.timed, Item.timed]
    · rw [getElem?_append_left (h.number_lt hx)]
      exact h.known x hx
  · have horder := h.order
    rw [hline, pairwise_append] at horder
    obtain ⟨hfront, hbackPairs, hcross⟩ := horder
    rw [hline', pairwise_append, pairwise_cons]
    refine ⟨hfront, ⟨?_, hbackPairs⟩, ?_⟩
    · intro y hy _
      obtain ⟨r, hr, htimed⟩ := mem_map.1 (hback' ▸ mem_map_of_mem hy)
      obtain ⟨hevent, htime⟩ := Prod.mk.inj htimed
      rw [← hevent, ← htime]
      exact (hback r hr).symm
    · intro x hx y hy
      rcases mem_cons.1 hy with rfl | hy
      · intro hlt
        have hx' : x ∈ a.line := by
          rw [hline]
          exact mem_append_left _ hx
        exact absurd (h.number_lt hx') (not_lt.2 hlt.le)
      · exact hcross x hx y hy

/-- So does a tick. -/
theorem Arranged.send (h : Arranged enqueued sent queue)
    (maxBytes : UInt64) (now : SimTime) (bytesLeft : UInt64) :
    Arranged enqueued
      (sent ++ (Response.sendReady maxBytes now bytesLeft queue).2.map fun ev => (ev, now))
      (Response.sendReady maxBytes now bytesLeft queue).1 := by
  obtain ⟨a, h⟩ := h
  obtain ⟨gone, kept, hqueue, hsent, hkept, hdue⟩ := exists_sendReady maxBytes now bytesLeft queue
  obtain ⟨gone', kept', hwaiting, hgone', hkept'⟩ : ∃ gone' kept',
      a.waiting = gone' ++ kept' ∧ gone'.map Item.timed = gone.map Response.timed ∧
        kept'.map Item.timed = kept.map Response.timed := by
    have hwaits := h.waiting_eq
    rw [hqueue, map_append] at hwaits
    exact map_eq_append_iff.1 hwaits
  let a' : Arrangement := ⟨a.sent ++ gone'.map fun x => (x, now), kept'⟩
  have hline : a'.line = a.line := by
    simp only [Arrangement.line, a', hwaiting, map_append, map_map, append_assoc,
      Function.comp_def, map_id']
  refine ⟨a', ?_, hkept'.trans hkept.symm, hline ▸ h.perm, hline ▸ h.known, ?_, hline ▸ h.order⟩
  · have hevents : gone'.map Item.event = gone.map Response.event := by
      have hfirsts := congrArg (map Prod.fst) hgone'
      rwa [map_map, map_map] at hfirsts
    rw [map_append, h.sent_eq, hsent, ← hevents, map_map, map_map]
    rfl
  · intro p hp
    rcases mem_append.1 hp with hp | hp
    · exact h.due p hp
    · obtain ⟨x, hx, rfl⟩ := mem_map.1 hp
      obtain ⟨r, hr, htimed⟩ := mem_map.1 (hgone' ▸ mem_map_of_mem hx)
      exact (Prod.mk.inj htimed).2 ▸ hdue r hr

end Arranged

/--
One queue with its history: the responses enqueued so far, the events sent with
the time of their tick, and the bytes charged in each tick.
-/
structure OutgoingQueue where
  queue : List Response
  enqueued : List Response
  sent : List (MemEvent × SimTime)
  charges : List Nat

namespace OutgoingQueue

def empty : OutgoingQueue := { queue := [], enqueued := [], sent := [], charges := [] }

def add (q : OutgoingQueue) (resp : Response) : OutgoingQueue :=
  { q with
    queue := Response.addToOutgoingQueue q.queue resp
    enqueued := q.enqueued ++ [resp] }

def send (q : OutgoingQueue) (maxBytes : UInt64) (now : SimTime) : OutgoingQueue :=
  let ready := Response.sendReady maxBytes now maxBytes q.queue
  { q with
    queue := ready.1
    sent := q.sent ++ ready.2.map fun ev => (ev, now)
    charges := q.charges ++ [totalSize q.queue - totalSize ready.1] }

/-- What holds of a queue after every run. -/
structure Ordered (q : OutgoingQueue) (maxBytes : UInt64) : Prop where
  arranged : Arranged q.enqueued q.sent q.queue
  /-- A tick with a limit charges at most the limit. -/
  charge_le : maxBytes ≠ 0 → ∀ n ∈ q.charges, n ≤ maxBytes.toNat

variable {q : OutgoingQueue} {maxBytes : UInt64}

theorem ordered_empty : empty.Ordered maxBytes :=
  ⟨arranged_nil, by simp [empty]⟩

theorem Ordered.add (h : q.Ordered maxBytes) (resp : Response) : (q.add resp).Ordered maxBytes :=
  ⟨h.arranged.add resp, h.charge_le⟩

theorem Ordered.send (h : q.Ordered maxBytes) (now : SimTime) :
    (q.send maxBytes now).Ordered maxBytes := by
  refine ⟨h.arranged.send maxBytes now maxBytes, ?_⟩
  intro hlimit n hn
  rcases mem_append.1 hn with hn | hn
  · exact h.charge_le hlimit n hn
  · rw [mem_singleton.1 hn]
    have htotal := totalSize_sendReady hlimit now maxBytes q.queue
    omega

end OutgoingQueue

/-- The parts of a controller that its outgoing queues use. -/
structure OutgoingState where
  timestamp_ : SimTime
  down : OutgoingQueue
  up : OutgoingQueue

inductive OutgoingCall where
  | addToOutgoingQueue (resp : Response)
  | addToOutgoingQueueUp (resp : Response)
  | sendOutgoingEvents
deriving DecidableEq, Repr

namespace OutgoingState

/-- A call, for the two link widths. -/
def step (maxBytesDown maxBytesUp : UInt64) (s : OutgoingState) : OutgoingCall → OutgoingState
  | .addToOutgoingQueue resp => { s with down := s.down.add resp }
  | .addToOutgoingQueueUp resp => { s with up := s.up.add resp }
  | .sendOutgoingEvents =>
    let now := s.timestamp_ + 1
    { timestamp_ := now
      down := s.down.send maxBytesDown now
      up := s.up.send maxBytesUp now }

/-- The controller after a list of calls, from empty queues at some time. -/
def after (maxBytesDown maxBytesUp : UInt64) (start : SimTime)
    (calls : List OutgoingCall) : OutgoingState :=
  calls.foldl (step maxBytesDown maxBytesUp)
    { timestamp_ := start, down := .empty, up := .empty }

/--
After every run each queue has lost and doubled nothing, has sent nothing too
early, has let no event overtake one of its address or one due no later, and
has charged no tick more than its limit.
-/
theorem ordered_after (maxBytesDown maxBytesUp : UInt64) (start : SimTime)
    (calls : List OutgoingCall) :
    (after maxBytesDown maxBytesUp start calls).down.Ordered maxBytesDown ∧
      (after maxBytesDown maxBytesUp start calls).up.Ordered maxBytesUp := by
  have hrun : ∀ (calls : List OutgoingCall) (s : OutgoingState),
      s.down.Ordered maxBytesDown ∧ s.up.Ordered maxBytesUp →
      (calls.foldl (step maxBytesDown maxBytesUp) s).down.Ordered maxBytesDown ∧
        (calls.foldl (step maxBytesDown maxBytesUp) s).up.Ordered maxBytesUp := by
    intro calls
    induction calls with
    | nil =>
      exact fun _ h => h
    | cons call rest ih =>
      intro s h
      refine ih _ ?_
      cases call with
      | addToOutgoingQueue resp =>
        exact ⟨h.1.add resp, h.2⟩
      | addToOutgoingQueueUp resp =>
        exact ⟨h.1, h.2.add resp⟩
      | sendOutgoingEvents =>
        exact ⟨h.1.send _, h.2.send _⟩
  exact hrun calls _ ⟨OutgoingQueue.ordered_empty, OutgoingQueue.ordered_empty⟩

end OutgoingState

end SstElements.MemHierarchy.CoherenceController
