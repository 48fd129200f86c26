import SstElements.MemHierarchy.MemNICFour

/-!
# Order of events on four networks

For each source and destination the receiver is a reorder buffer over the tags
of 32 bits.  The handler is given an initial part of what was sent, as long as
no packet arrives that overtakes a whole window of earlier packets of its pair.
-/

namespace SstElements.MemHierarchy.FourNetworks

open Library MemNICFour ReorderBuffer Function List Option

section Packets

/-- Tags are the numbers of the packets in 32 bits. -/
def tags : TagScheme UInt32 := .uint32

/-- Number of a packet among those of its pair. -/
def seqOf (mre : OrderedMemRtrEvent Origin) : Nat := mre.event.body.seq

/-- The packet content made of an event. -/
def stamp (ev : MemEventBase Origin) : OrderedMemRtrEvent Origin where
  event := ev
  tag := UInt32.ofNat ev.body.seq

/-- All packets in the queues of the four networks. -/
def contents (queues : NetType → List (Request Origin)) : Multiset (Request Origin) :=
  ∑ net, ↑(queues net)

/-- Packets that an endpoint has not yet given to a network. -/
def outgoing (f : FourNetworks) (src : UInt64) : Multiset (Request Origin) :=
  contents (f.nics src).sendQueue

/-- Packets that the networks have not yet delivered. -/
def flying (f : FourNetworks) : Multiset (Request Origin) := contents f.inFlight

/-- Packets of a pair that have been sent and have not arrived. -/
def onWay (f : FourNetworks) (src dest : UInt64) : Multiset (Request Origin) :=
  (f.outgoing src).filter (fun r => r.dest = dest) +
    f.flying.filter (fun r => r.src = src ∧ r.dest = dest)

def fromSource (src : UInt64) (evs : List (MemEventBase Origin)) : List (MemEventBase Origin) :=
  evs.filter (fun ev => ev.body.src = src)

/-- Events from a source that the handler of an endpoint was given. -/
def handledFrom (f : FourNetworks) (dest src : UInt64) : List (MemEventBase Origin) :=
  fromSource src (f.handled dest)

/-- Events from a source that arrived in order, handed over or queued. -/
def admitted (f : FourNetworks) (dest src : UInt64) : List (MemEventBase Origin) :=
  fromSource src
    (f.handled dest ++ (f.nics dest).recvQueue.map OrderedMemRtrEvent.event)

end Packets

/-- What a pair of endpoints has sent, received and still to receive. -/
structure PairOrdered (f : FourNetworks) (src dest : UInt64) : Prop where
  sendTag : (f.nics src).sendTags dest =
    UInt32.ofNat (f.sent src dest).length
  origin : ∀ ev ∈ f.sent src dest, ev.body.src = src
  prefix_sent : f.sent src dest =
    f.admitted dest src ++
      (f.sent src dest).drop (f.admitted dest src).length
  reassembly : Reassembly tags seqOf ((f.sent src dest).map stamp)
    (f.admitted dest src).length
    ((f.onWay src dest).map Request.payload)
    ((f.nics dest).recvTags src) ((f.nics dest).orderBuffer src)
  waiting : ((f.nics dest).orderBuffer src).find?
    ((f.nics dest).recvTags src) = none

/-- The invariant of all endpoints. -/
structure Ordered (f : FourNetworks) : Prop where
  pairs : ∀ src dest, f.PairOrdered src dest
  addresses : ∀ addr, (f.nics addr).addr = addr
  sources : ∀ addr net, ∀ r ∈ (f.nics addr).sendQueue net, r.src = addr
  awake : ∀ addr, (f.nics addr).recvQueue ≠ [] →
    (f.nics addr).clockOn = true

section Transit

theorem PairOrdered.congr {f g : FourNetworks} {src dest : UInt64} (h : f.PairOrdered src dest)
    (hsendTag : (g.nics src).sendTags dest = (f.nics src).sendTags dest)
    (hsent : g.sent src dest = f.sent src dest)
    (hadmitted : g.admitted dest src = f.admitted dest src)
    (honWay : g.onWay src dest = f.onWay src dest)
    (hrecvTag : (g.nics dest).recvTags src = (f.nics dest).recvTags src)
    (hbuffer : (g.nics dest).orderBuffer src = (f.nics dest).orderBuffer src) :
    g.PairOrdered src dest := by
  obtain ⟨h₁, h₂, h₃, h₄, h₅⟩ := h
  constructor
  · rw [hsendTag, hsent, h₁]
  · rw [hsent]
    exact h₂
  · rw [hsent, hadmitted]
    exact h₃
  · rw [hsent, hadmitted, honWay, hrecvTag, hbuffer]
    exact h₄
  · rw [hrecvTag, hbuffer]
    exact h₅

variable {f g : FourNetworks} {req : Request Origin} {queues : NetType → List (Request Origin)}
variable {net : NetType}

theorem onWay_of_moved {addr : UInt64} {moved new : Multiset (Request Origin)}
    (hothers : ∀ src, src ≠ addr → g.outgoing src = f.outgoing src)
    (hhere : g.outgoing addr + moved = f.outgoing addr + new)
    (hflying : g.flying = f.flying + moved) (hmoved : ∀ r ∈ moved, r.src = addr)
    (src dest : UInt64) :
    g.onWay src dest = f.onWay src dest +
        if src = addr then new.filter (fun r => r.dest = dest) else 0 := by
  unfold onWay
  rw [hflying, Multiset.filter_add]
  by_cases hsrc : src = addr
  · subst hsrc
    have hfilter : moved.filter (fun r => r.src = src ∧ r.dest = dest) =
        moved.filter (fun r => r.dest = dest) :=
      Multiset.filter_congr fun r hr => by simp [hmoved r hr]
    have hsum := congrArg
      (Multiset.filter (fun r : Request Origin => r.dest = dest)) hhere
    rw [Multiset.filter_add, Multiset.filter_add] at hsum
    rw [hfilter, if_pos rfl, add_left_comm, hsum, add_left_comm, add_assoc]
  · have hnone : moved.filter (fun r => r.src = src ∧ r.dest = dest) = 0 :=
      Multiset.filter_eq_nil.2 fun r hr hboth => hsrc (hboth.1.symm.trans (hmoved r hr))
    rw [hothers src hsrc, hnone, if_neg hsrc, add_zero, add_zero]

theorem onWay_of_delivered (houtgoing : ∀ src, g.outgoing src = f.outgoing src)
    (hflying : f.flying = req ::ₘ g.flying) (src dest : UInt64) :
    f.onWay src dest = (if req.src = src ∧ req.dest = dest then {req} else 0) +
        g.onWay src dest := by
  unfold onWay
  rw [houtgoing, hflying, Multiset.filter_cons, add_left_comm]

theorem contents_update (queues : NetType → List (Request Origin)) (net : NetType)
    (queue : List (Request Origin)) :
    contents (update queues net queue) + ↑(queues net) = contents queues + ↑queue := by
  have hsame : ∑ n ∈ Finset.univ.erase net,
      (↑(update queues net queue n) : Multiset (Request Origin)) =
        ∑ n ∈ Finset.univ.erase net, ↑(queues n) :=
    Finset.sum_congr rfl fun n hn => by rw [update_of_ne (Finset.ne_of_mem_erase hn)]
  unfold contents
  rw [← Finset.add_sum_erase _ _ (Finset.mem_univ net),
    ← Finset.add_sum_erase _ _ (Finset.mem_univ net), hsame, update_self]
  abel

theorem contents_append (queues : NetType → List (Request Origin)) (net : NetType)
    (given : List (Request Origin)) :
    contents (update queues net (queues net ++ given)) = contents queues + ↑given := by
  have h := contents_update queues net (queues net ++ given)
  rw [← Multiset.coe_add, ← add_assoc, add_right_comm] at h
  exact add_right_cancel h

theorem contents_shift {given rest new : List (Request Origin)}
    (h : given ++ rest = queues net ++ new) :
    contents (update queues net rest) + ↑given = contents queues + ↑new := by
  have hsum : (↑given + ↑rest : Multiset (Request Origin)) =
      ↑(queues net) + ↑new := by
    rw [Multiset.coe_add, h, ← Multiset.coe_add]
  refine add_right_cancel (b := ↑(queues net)) ?_
  calc
    contents (update queues net rest) + ↑given + ↑(queues net) =
        contents (update queues net rest) + ↑(queues net) +
          ↑given :=
      add_right_comm _ _ _
    _ = contents queues + (↑given + ↑rest) := by
      rw [contents_update, add_assoc, add_comm (rest : Multiset (Request Origin))]
    _ = contents queues + ↑new + ↑(queues net) := by
      rw [hsum, add_comm (queues net : Multiset (Request Origin)), add_assoc]

theorem contents_eraseIdx {index : Nat} (h : (queues net)[index]? = some req) :
    contents queues = req ::ₘ contents
        (update queues net ((queues net).eraseIdx index)) := by
  obtain ⟨hlt, hget⟩ := List.getElem?_eq_some_iff.1 h
  have hperm : (↑(queues net) : Multiset (Request Origin)) =
      req ::ₘ ↑((queues net).eraseIdx index) := by
    rw [Multiset.cons_coe, Multiset.coe_eq_coe, ← hget]
    exact (getElem_cons_eraseIdx_perm hlt).symm
  have hupdate := contents_update queues net ((queues net).eraseIdx index)
  rw [hperm, Multiset.add_cons, ← Multiset.cons_add] at hupdate
  exact (add_right_cancel hupdate).symm

theorem mem_contents {r : Request Origin} : r ∈ contents queues ↔ ∃ net, r ∈ queues net := by
  unfold contents
  rw [Multiset.mem_sum]
  simp

end Transit

section Sending

variable {accepted payloadSize : Nat} {f g : FourNetworks} {src : UInt64} {cmd : Command}
variable {dst : String}

theorem send_eq_some {τ : Type} {nic nic' : MemNICFour τ} {ev : MemEventBase τ}
    {given : List (Request τ)} (h : nic.send ev accepted = some (nic', given)) :
    ∃ dest rest, nic.networkAddressMap ev.dst = some dest ∧
      given ++ rest = nic.sendQueue (netOf ev) ++ [nic.packet dest ev] ∧ nic' = { nic with
          sendTags := update nic.sendTags dest
            (nic.sendTags dest + 1)
          sendQueue := update nic.sendQueue (netOf ev) rest
          clockOn := nic.clockOn || rest.length == 1 } := by
  obtain ⟨dest, hdest, h⟩ := map_eq_some_iff.1 h
  cases h
  exact ⟨dest, _, hdest, take_append_drop _ _, rfl⟩

theorem stepSend_eq_some (h : f.stepSend src cmd payloadSize dst accepted = some g) :
    ∃ dest given rest, given ++ rest = (f.nics src).sendQueue
            (netOf (f.label src dest cmd payloadSize dst)) ++
          [(f.nics src).packet dest (f.label src dest cmd payloadSize dst)] ∧ g = { f with
          nics := update f.nics src
            { f.nics src with
              sendTags := update (f.nics src).sendTags dest
                ((f.nics src).sendTags dest + 1)
              sendQueue := update (f.nics src).sendQueue
                (netOf (f.label src dest cmd payloadSize dst)) rest
              clockOn := (f.nics src).clockOn || rest.length == 1 }
          inFlight := update f.inFlight
            (netOf (f.label src dest cmd payloadSize dst))
            (f.inFlight (netOf (f.label src dest cmd payloadSize dst)) ++ given)
          sent := update f.sent src
            (update (f.sent src) dest
              (f.sent src dest ++ [f.label src dest cmd payloadSize dst])) } := by
  obtain ⟨dest, hdest, h⟩ := bind_eq_some_iff.1 h
  obtain ⟨⟨nic, given⟩, hsend, rfl⟩ := map_eq_some_iff.1 h
  obtain ⟨dest', rest, hdest', hqueue, rfl⟩ := send_eq_some hsend
  obtain rfl : dest = dest' := some.inj (hdest.symm.trans hdest')
  exact ⟨dest, given, rest, hqueue, rfl⟩

theorem admitted_congr {dest : UInt64} (hhandled : g.handled dest = f.handled dest)
    (hqueue : (g.nics dest).recvQueue = (f.nics dest).recvQueue) :
    g.admitted dest src = f.admitted dest src := by
  unfold admitted
  rw [hhandled, hqueue]

theorem ordered_stepSend (h : f.Ordered)
    (hstep : f.stepSend src cmd payloadSize dst accepted = some g) :
    g.Ordered := by
  obtain ⟨dest, given, rest, hqueue, hg⟩ := stepSend_eq_some hstep
  generalize hev : f.label src dest cmd payloadSize dst = ev at hqueue hg
  have hpacket : ((f.nics src).packet dest ev).src = src := h.addresses src
  have hmem : ∀ r ∈ given ++ rest, r.src = src := by
    intro r hr
    rw [hqueue] at hr
    rcases mem_append.1 hr with hr | hr
    · exact h.sources src _ r hr
    · rw [mem_singleton.1 hr]
      exact hpacket
  -- Sending leaves all receiving sides alone.
  have hnic : ∀ addr, (g.nics addr).addr = (f.nics addr).addr ∧
      (g.nics addr).recvQueue = (f.nics addr).recvQueue ∧
      (g.nics addr).recvTags = (f.nics addr).recvTags ∧
      (g.nics addr).orderBuffer = (f.nics addr).orderBuffer := by
    intro addr
    rw [hg]
    by_cases haddr : addr = src
    · subst haddr
      simp
    · simp [haddr]
  have hhandled : g.handled = f.handled := by rw [hg]
  have hadmitted : ∀ s d, g.admitted d s = f.admitted d s := fun s d =>
    admitted_congr (by rw [hhandled]) (hnic d).2.1
  have houtgoing : ∀ s, s ≠ src → g.outgoing s = f.outgoing s := by
    intro s hs
    unfold outgoing
    rw [hg]
    simp [hs]
  have hhere : g.outgoing src + ↑given =
      f.outgoing src + ↑[(f.nics src).packet dest ev] := by
    have hshift := contents_shift hqueue
    unfold outgoing
    rw [hg]
    simpa using hshift
  have hflying : g.flying = f.flying + ↑given := by
    unfold flying
    rw [hg]
    exact contents_append _ _ _
  have honWay := onWay_of_moved houtgoing hhere hflying
    (fun r hr => hmem r (mem_append_left _ (Multiset.mem_coe.1 hr)))
  constructor
  case pairs =>
      intro s d
      by_cases hpair : s = src ∧ d = dest
      · obtain ⟨rfl, rfl⟩ := hpair
        have hp := h.pairs s d
        have hsent : g.sent s d = f.sent s d ++ [ev] := by
          rw [hg]
          simp
        have hbody : ev.body = { src := s, seq := (f.sent s d).length } := by
          rw [← hev]
          rfl
        have hle : (f.admitted d s).length ≤ (f.sent s d).length := by
          simpa using hp.reassembly.bound
        have hway : (g.onWay s d).map Request.payload =
            stamp ev ::ₘ (f.onWay s d).map Request.payload := by
          have hpayload : ((f.nics s).packet d ev).payload = stamp ev := by
            simp [packet, stamp, hbody, hp.sendTag]
          have hdest : ((f.nics s).packet d ev).dest = d := rfl
          rw [honWay, if_pos rfl, Multiset.coe_singleton,
            Multiset.filter_singleton, if_pos hdest, Multiset.map_add,
            Multiset.map_singleton, hpayload, add_comm, Multiset.singleton_add]
        constructor
        · rw [hsent, hg]
          simp [hp.sendTag, UInt32.ofNat_add]
        · intro e he
          rw [hsent] at he
          rcases mem_append.1 he with he | he
          · exact hp.origin e he
          · rw [mem_singleton.1 he, hbody]
        · rw [hsent, hadmitted, drop_append_of_le_length hle, ← append_assoc, ← hp.prefix_sent]
        · rw [hsent, hadmitted, hway, (hnic d).2.2.1, (hnic d).2.2.2, map_append, map_singleton]
          exact hp.reassembly.send (by simp [seqOf, stamp, hbody])
        · rw [(hnic d).2.2.1, (hnic d).2.2.2]
          exact hp.waiting
      · refine (h.pairs s d).congr ?_ ?_ (hadmitted s d) ?_
          (by rw [(hnic d).2.2.1]) (by rw [(hnic d).2.2.2])
        · rw [hg]
          by_cases hs : s = src
          · subst hs
            have hd : d ≠ dest := fun hd => hpair ⟨rfl, hd⟩
            simp [hd]
          · simp [hs]
        · rw [hg]
          by_cases hs : s = src
          · subst hs
            have hd : d ≠ dest := fun hd => hpair ⟨rfl, hd⟩
            simp [hd]
          · simp [hs]
        · rw [honWay]
          by_cases hs : s = src
          · subst hs
            have hd : dest ≠ d := fun hd => hpair ⟨rfl, hd.symm⟩
            simp [packet, hd]
          · simp [hs]
  case addresses =>
      intro addr
      rw [(hnic addr).1]
      exact h.addresses addr
  case sources =>
      intro addr net r hr
      by_cases haddr : addr = src
      · subst haddr
        rw [hg] at hr
        simp only [update_self] at hr
        by_cases hnet : net = netOf ev
        · subst hnet
          rw [update_self] at hr
          exact hmem r (mem_append_right _ hr)
        · rw [update_of_ne hnet] at hr
          exact h.sources addr net r hr
      · rw [hg] at hr
        simp only [ne_eq, haddr, not_false_eq_true, update_of_ne] at hr
        exact h.sources addr net r hr
  case awake =>
      intro addr hne
      rw [(hnic addr).2.1] at hne
      have hon := h.awake addr hne
      rw [hg]
      by_cases haddr : addr = src
      · subst haddr
        simp [hon]
      · simpa [haddr] using hon

end Sending

section Ticking

variable {f g : FourNetworks} {addr : UInt64} {accepted : NetType → Nat}

theorem stepClock_eq_some (h : f.stepClock addr accepted = some g) :
    ∃ clockOn : Bool, ((f.nics addr).recvQueue.tail ≠ [] → clockOn = true) ∧ g = { f with
          nics := update f.nics addr
            { f.nics addr with
              sendQueue := fun net => ((f.nics addr).sendQueue net).drop (accepted net)
              recvQueue := (f.nics addr).recvQueue.tail
              clockOn := clockOn }
          inFlight := fun net => f.inFlight net ++
            ((f.nics addr).sendQueue net).take (accepted net)
          handled := update f.handled addr
            (f.handled addr ++ (f.nics addr).recvQueue.head?.toList.map
              OrderedMemRtrEvent.event) } := by
  unfold stepClock at h
  split at h
  · rename_i hon
    refine ⟨_, ?_, (some.inj h).symm⟩
    intro hne
    have hbusy : (f.nics addr).recvQueue.tail.isEmpty = false :=
      Bool.eq_false_iff.2 fun hempty => hne (isEmpty_iff.1 hempty)
    simp [hon, isIdle, hbusy]
  · cases h

theorem ordered_stepClock (h : f.Ordered) (hstep : f.stepClock addr accepted = some g) :
    g.Ordered := by
  obtain ⟨clockOn, hon, hg⟩ := stepClock_eq_some hstep
  have hnic : ∀ a, (g.nics a).addr = (f.nics a).addr ∧
      (g.nics a).sendTags = (f.nics a).sendTags ∧
      (g.nics a).recvTags = (f.nics a).recvTags ∧
      (g.nics a).orderBuffer = (f.nics a).orderBuffer := by
    intro a
    rw [hg]
    by_cases ha : a = addr
    · subst ha
      simp
    · simp [ha]
  have hsent : g.sent = f.sent := by rw [hg]
  have hmem : ∀ r ∈ contents (f.nics addr).sendQueue, r.src = addr := by
    intro r hr
    obtain ⟨net, hnet⟩ := mem_contents.1 hr
    exact h.sources addr net r hnet
  -- The head of the receive queue moves to the end of what was handled.
  have hadmitted : ∀ s d, g.admitted d s = f.admitted d s := by
    intro s d
    unfold admitted
    rw [hg]
    by_cases hd : d = addr
    · subst hd
      cases hqueue : (f.nics d).recvQueue with
      | nil => simp
      | cons front rest => simp
    · simp [hd]
  have hsplit : contents (fun net => ((f.nics addr).sendQueue net).drop (accepted net)) +
      contents (fun net =>
        ((f.nics addr).sendQueue net).take (accepted net)) =
        contents (f.nics addr).sendQueue := by
    unfold contents
    rw [← Finset.sum_add_distrib]
    refine Finset.sum_congr rfl fun net _ => ?_
    rw [add_comm, Multiset.coe_add, take_append_drop]
  have hflying : g.flying = f.flying + contents (fun net =>
      ((f.nics addr).sendQueue net).take (accepted net)) := by
    unfold flying contents
    rw [hg, ← Finset.sum_add_distrib]
    exact Finset.sum_congr rfl fun net _ => (Multiset.coe_add _ _).symm
  have honWay : ∀ s d, g.onWay s d = f.onWay s d := by
    intro s d
    have hothers : ∀ a, a ≠ addr → g.outgoing a = f.outgoing a := by
      intro a ha
      unfold outgoing
      rw [hg]
      simp [ha]
    have hhere : g.outgoing addr + contents (fun net =>
        ((f.nics addr).sendQueue net).take (accepted net)) =
          f.outgoing addr + 0 := by
      unfold outgoing
      rw [hg, add_zero]
      simpa using hsplit
    have hsource : ∀ r ∈ contents (fun net =>
        ((f.nics addr).sendQueue net).take (accepted net)), r.src = addr := by
      intro r hr
      refine hmem r ?_
      rw [← hsplit]
      exact Multiset.mem_add.2 (.inr hr)
    simpa using onWay_of_moved hothers hhere hflying hsource s d
  constructor
  case pairs =>
      intro s d
      exact (h.pairs s d).congr (by rw [(hnic s).2.1]) (by rw [hsent])
        (hadmitted s d) (honWay s d) (by rw [(hnic d).2.2.1])
        (by rw [(hnic d).2.2.2])
  case addresses =>
      intro a
      rw [(hnic a).1]
      exact h.addresses a
  case sources =>
      intro a net r hr
      by_cases ha : a = addr
      · subst ha
        rw [hg] at hr
        simp only [update_self] at hr
        exact h.sources a net r (mem_of_mem_drop hr)
      · rw [hg] at hr
        simp only [ne_eq, ha, not_false_eq_true, update_of_ne] at hr
        exact h.sources a net r hr
  case awake =>
      intro a
      by_cases ha : a = addr
      · subst ha
        rw [hg]
        simpa using hon
      · rw [hg]
        simpa [ha] using h.awake a

end Ticking

section Receiving

theorem map_event_stamp (evs : List (MemEventBase Origin)) :
    (evs.map stamp).map OrderedMemRtrEvent.event = evs := by
  rw [List.map_map]
  exact List.map_id _

theorem doRecv_frame {τ : Type} (nic : MemNICFour τ) (req : Request τ) :
    (nic.doRecv req).1.addr = nic.addr ∧ (nic.doRecv req).1.sendQueue = nic.sendQueue ∧
      (nic.doRecv req).1.sendTags = nic.sendTags ∧ (∀ src, src ≠ req.src →
        (nic.doRecv req).1.recvTags src = nic.recvTags src ∧
        (nic.doRecv req).1.orderBuffer src = nic.orderBuffer src) ∧
      ((nic.doRecv req).1.recvQueue ≠ [] → (nic.doRecv req).1.clockOn = true) := by
  unfold doRecv
  dsimp only
  split
  · refine ⟨rfl, rfl, rfl, fun src hsrc => ?_, fun hne => ?_⟩
    · simp [hsrc]
    · dsimp only at hne ⊢
      rw [Bool.or_eq_true, Bool.not_eq_true', isEmpty_eq_false_iff]
      exact .inr hne
  · refine ⟨rfl, rfl, rfl, fun src hsrc => ?_, fun hne => ?_⟩
    · simp [hsrc]
    · dsimp only at hne ⊢
      rw [Bool.or_eq_true, Bool.not_eq_true', isEmpty_eq_false_iff]
      exact .inr hne

theorem accept_spec {τ : Type} (nic : MemNICFour τ) (mre : OrderedMemRtrEvent τ) :
    (nic.accept mre).1 ++ (nic.accept mre).2.map OrderedMemRtrEvent.event =
      nic.recvQueue.map OrderedMemRtrEvent.event ++ [mre.event] := by
  unfold accept
  split
  · rename_i hqueue
    simp [hqueue]
  · rename_i front rest hqueue
    simp [hqueue]

/--
Receiving a packet admits the packets that are now in order: none, or the
packet and the held ones that follow it.
-/
theorem doRecv_spec {nic : MemNICFour Origin} {req : Request Origin}
    {sent : List (MemEventBase Origin)} {n : Nat} {away : Multiset (OrderedMemRtrEvent Origin)}
    (hre : Reassembly tags seqOf (sent.map stamp) n (req.payload ::ₘ away)
      (nic.recvTags req.src) (nic.orderBuffer req.src))
    (hwaiting : (nic.orderBuffer req.src).find? (nic.recvTags req.src) = none)
    (hwindow : ∀ q ∈ req.payload ::ₘ away, seqOf req.payload < seqOf q + 2 ^ 32) :
    ∃ new : List (OrderedMemRtrEvent Origin), (nic.doRecv req).2 ++
          (nic.doRecv req).1.recvQueue.map OrderedMemRtrEvent.event =
        nic.recvQueue.map OrderedMemRtrEvent.event ++ new.map OrderedMemRtrEvent.event ∧
      (sent.map stamp).drop n = new ++ (sent.map stamp).drop (n + new.length) ∧
      Reassembly tags seqOf (sent.map stamp) (n + new.length) away
        ((nic.doRecv req).1.recvTags req.src)
        ((nic.doRecv req).1.orderBuffer req.src) ∧ ((nic.doRecv req).1.orderBuffer req.src).find?
        ((nic.doRecv req).1.recvTags req.src) = none := by
  have hmem : req.payload ∈ req.payload ::ₘ away := Multiset.mem_cons_self _ _
  have htag : req.payload.tag = tags.tag (seqOf req.payload) := by
    obtain ⟨ev, -, hev⟩ := mem_map.1
      (mem_of_getElem? (hre.mem_pending (.inl hmem)).2)
    rw [← hev]
    rfl
  have hiff := hre.tag_eq_expected_iff hwaiting hwindow
  rw [← htag] at hiff
  by_cases hnext : req.payload.tag = nic.recvTags req.src
  · have htaken := hre.take_away (hiff.1 hnext)
    generalize hrun : releaseHeld
      (nic.orderBuffer req.src).entries.length (nic.recvTags req.src + 1)
      (nic.orderBuffer req.src) = result
    obtain ⟨released, last, rest⟩ := result
    obtain ⟨hdrop, hrest, hnone⟩ := htaken.release_spec (le_refl _) hrun
    have hqueue := accept_spec nic req.payload
    have hcons := hre.drop_eq_cons (.inl hmem) (hiff.1 hnext)
    have hlength : n + (req.payload :: released).length =
        n + 1 + released.length := by
      rw [length_cons]
      omega
    refine ⟨req.payload :: released, ?_, ?_, ?_, ?_⟩
    · unfold doRecv
      simp only [hnext, if_true, hrun, map_append, map_cons]
      rw [← append_assoc, hqueue, append_assoc, singleton_append]
    · rw [hcons, hdrop, hlength, cons_append]
    · unfold doRecv
      simp only [hnext, if_true, hrun, update_self]
      rw [hlength]
      exact hrest
    · unfold doRecv
      simp only [hnext, if_true, hrun, update_self]
      exact hnone
  · obtain ⟨q, hq, hqn⟩ := hre.first_away hwaiting
    have hlt := hwindow q hq
    have hheld := hre.hold (by rw [← hqn]; exact hlt)
    rw [← htag] at hheld
    refine ⟨[], ?_, ?_, ?_, ?_⟩
    · unfold doRecv
      simp [hnext]
    · simp
    · unfold doRecv
      simpa [hnext] using hheld
    · unfold doRecv
      simp only [hnext, if_false, update_self]
      rw [OrderedMap.find?_insert_of_ne _ _ (fun heq => hnext heq.symm)]
      exact hwaiting

/--
The packet that is delivered is less than a window of tags ahead of every
packet of its pair that is still on its way.
-/
def Windowed (f : FourNetworks) : Op → Prop
  | .deliver net index =>
    ∀ req, (f.inFlight net)[index]? = some req →
      ∀ q ∈ f.onWay req.src req.dest,
        seqOf req.payload < seqOf q.payload + 2 ^ 32
  | _ => True

instance (f : FourNetworks) (op : Op) : Decidable (f.Windowed op) :=
  match op with
  | .send .. | .clock .. => inferInstanceAs (Decidable True)
  | .deliver net index =>
    inferInstanceAs (Decidable (∀ req ∈ (f.inFlight net)[index]?, ∀ q ∈ f.onWay _ _, _))

theorem fromSource_append (src : UInt64) (xs ys : List (MemEventBase Origin)) :
    fromSource src (xs ++ ys) = fromSource src xs ++ fromSource src ys :=
  filter_append _ _

variable {src : UInt64} {evs : List (MemEventBase Origin)}

theorem fromSource_eq_self (h : ∀ ev ∈ evs, ev.body.src = src) : fromSource src evs = evs :=
  filter_eq_self.2 fun ev hev => decide_eq_true (h ev hev)

theorem fromSource_eq_nil {other : UInt64} (h : ∀ ev ∈ evs, ev.body.src = src)
    (hother : other ≠ src) :
    fromSource other evs = [] :=
  filter_eq_nil_iff.2 fun ev hev heq => hother ((of_decide_eq_true heq).symm.trans (h ev hev))

theorem ordered_stepDeliver {f g : FourNetworks} {net : NetType} {index : Nat} (h : f.Ordered)
    (hwindow : f.Windowed (.deliver net index)) (hstep : f.stepDeliver net index = some g) :
    g.Ordered := by
  obtain ⟨req, hreq, hg⟩ := map_eq_some_iff.1 hstep
  have hpair := h.pairs req.src req.dest
  obtain ⟨haddr, hsendQueue, hsendTags, hothers, hon⟩ := doRecv_frame (f.nics req.dest) req
  have houtgoing : ∀ src, g.outgoing src = f.outgoing src := by
    intro src
    unfold outgoing
    rw [← hg]
    by_cases hsrc : src = req.dest
    · subst hsrc
      simp [hsendQueue]
    · simp [hsrc]
  have hflying : f.flying = req ::ₘ g.flying := by
    unfold flying
    rw [← hg]
    exact contents_eraseIdx hreq
  have honWay := onWay_of_delivered houtgoing hflying
  have hhere : (f.onWay req.src req.dest).map Request.payload =
      req.payload ::ₘ (g.onWay req.src req.dest).map Request.payload := by
    rw [honWay, if_pos ⟨rfl, rfl⟩, Multiset.singleton_add, Multiset.map_cons]
  have hre := hpair.reassembly
  rw [hhere] at hre
  have hlt : ∀ q ∈ req.payload ::ₘ
      (g.onWay req.src req.dest).map Request.payload,
      seqOf req.payload < seqOf q + 2 ^ 32 := by
    intro q hq
    rw [← hhere] at hq
    obtain ⟨r, hr, rfl⟩ := Multiset.mem_map.1 hq
    exact hwindow req hreq r hr
  obtain ⟨new, hqueue, hdrop, hre', hwaiting'⟩ := doRecv_spec hre hpair.waiting hlt
  have hsent : g.sent = f.sent := by rw [← hg]
  have hdropped : (f.sent req.src req.dest).drop
      (f.admitted req.dest req.src).length =
        new.map OrderedMemRtrEvent.event ++
          (f.sent req.src req.dest).drop
            ((f.admitted req.dest req.src).length + new.length) := by
    have hmap := congrArg (map OrderedMemRtrEvent.event) hdrop
    rw [map_append, ← map_drop, ← map_drop, map_event_stamp, map_event_stamp] at hmap
    exact hmap
  have hnew : ∀ ev ∈ new.map OrderedMemRtrEvent.event,
      ev.body.src = req.src := by
    intro ev hev
    refine hpair.origin ev (mem_of_mem_drop (i := (f.admitted req.dest req.src).length) ?_)
    rw [hdropped]
    exact mem_append_left _ hev
  -- The handler and the receive queue gain exactly the admitted packets.
  have hgain : g.handled req.dest ++
      (g.nics req.dest).recvQueue.map OrderedMemRtrEvent.event =
        f.handled req.dest ++
          (f.nics req.dest).recvQueue.map OrderedMemRtrEvent.event ++
            new.map OrderedMemRtrEvent.event := by
    rw [← hg]
    simp only [update_self]
    rw [append_assoc, hqueue, ← append_assoc]
  have hadmitted : g.admitted req.dest req.src =
      f.admitted req.dest req.src ++
        new.map OrderedMemRtrEvent.event := by
    unfold admitted
    rw [hgain, fromSource_append, fromSource_eq_self hnew]
  have hlength : (g.admitted req.dest req.src).length =
      (f.admitted req.dest req.src).length + new.length := by
    rw [hadmitted, length_append, length_map]
  constructor
  case pairs =>
      intro src dest
      by_cases hdest : dest = req.dest
      · subst hdest
        by_cases hsrc : src = req.src
        · subst hsrc
          have htags : (g.nics req.dest).recvTags =
              ((f.nics req.dest).doRecv req).1.recvTags := by
            rw [← hg]
            simp
          have hbuffer : (g.nics req.dest).orderBuffer =
              ((f.nics req.dest).doRecv req).1.orderBuffer := by
            rw [← hg]
            simp
          constructor
          · rw [hsent, ← hpair.sendTag, ← hg]
            by_cases hself : req.src = req.dest
            · simp [hself, hsendTags]
            · simp [hself]
          · rw [hsent]
            exact hpair.origin
          · rw [hsent, hlength, hadmitted, append_assoc, ← hdropped]
            exact hpair.prefix_sent
          · rw [hsent, hlength, htags, hbuffer]
            exact hre'
          · rw [htags, hbuffer]
            exact hwaiting'
        · refine (h.pairs src req.dest).congr ?_ (by rw [hsent]) ?_ ?_ ?_ ?_
          · rw [← hg]
            by_cases hself : src = req.dest
            · simp [hself, hsendTags]
            · simp [hself]
          · unfold admitted
            rw [hgain, fromSource_append, fromSource_eq_nil hnew hsrc, append_nil]
          · rw [honWay src, if_neg (fun hboth => hsrc hboth.1.symm), zero_add]
          · rw [← hg]
            simpa using (hothers src hsrc).1
          · rw [← hg]
            simpa using (hothers src hsrc).2
      · refine (h.pairs src dest).congr ?_ (by rw [hsent]) ?_ ?_ ?_ ?_
        · rw [← hg]
          by_cases hself : src = req.dest
          · simp [hself, hsendTags]
          · simp [hself]
        · refine admitted_congr ?_ ?_
          · rw [← hg]
            simp [hdest]
          · rw [← hg]
            simp [hdest]
        · rw [honWay src dest, if_neg (fun hboth => hdest hboth.2.symm), zero_add]
        · rw [← hg]
          simp [hdest]
        · rw [← hg]
          simp [hdest]
  case addresses =>
      intro addr
      rw [← hg]
      by_cases ha : addr = req.dest
      · subst ha
        simpa [haddr] using h.addresses req.dest
      · simpa [ha] using h.addresses addr
  case sources =>
      intro addr n r hr
      refine h.sources addr n r ?_
      rw [← hg] at hr
      by_cases ha : addr = req.dest
      · subst ha
        simpa [hsendQueue] using hr
      · simpa [ha] using hr
  case awake =>
      intro addr
      rw [← hg]
      by_cases ha : addr = req.dest
      · subst ha
        simpa using hon
      · simpa [ha] using h.awake addr

end Receiving

section Runs

theorem ordered_start (names : UInt64 → String → Option UInt64) (headers : UInt64 → NetType → Nat) :
    (start names headers).Ordered := by
  constructor
  case pairs =>
      intro src dest
      constructor
      · rfl
      · simp [start]
      · rfl
      · refine ⟨rfl, le_refl _, rfl, ?_, ?_, ?_⟩
        · simp [start, onWay, outgoing, flying, contents, setup, values, OrderedMap.empty]
        · simp [start, setup]
        · simp [start, setup, values, OrderedMap.empty]
      · rfl
  case addresses => exact fun _ => rfl
  case sources => simp [start, setup]
  case awake => simp [start, setup]

/-- A step within the window keeps every pair of endpoints in order. -/
theorem ordered_step {f g : FourNetworks} {op : Op} (h : f.Ordered) (hwindow : f.Windowed op)
    (hstep : f.step op = some g) :
    g.Ordered := by
  cases op with
  | send src cmd payloadSize dst accepted =>
    exact ordered_stepSend h hstep
  | clock addr accepted =>
    exact ordered_stepClock h hstep
  | deliver net index =>
    exact ordered_stepDeliver h hwindow hstep

/-- What an endpoint's handler sees of each source. -/
structure HandedInOrder (f : FourNetworks) : Prop where
  /-- The handler was given the first events of each source, in order. -/
  inOrder : ∀ src dest, f.handledFrom dest src <+: f.sent src dest
  /-- Nothing is held whose predecessors have arrived and been handed over. -/
  notHeld : ∀ src dest, (f.nics dest).recvQueue = [] →
    ∀ ev ∈ f.sent src dest,
      (∀ r ∈ f.onWay src dest, ev.body.seq < seqOf r.payload) →
        ev ∈ f.handledFrom dest src
  /-- The clock runs as long as there is something to hand over. -/
  awake : ∀ dest, (f.nics dest).recvQueue ≠ [] →
    (f.nics dest).clockOn = true

theorem Ordered.handedInOrder {f : FourNetworks} (h : f.Ordered) : f.HandedInOrder := by
  constructor
  case inOrder =>
      intro src dest
      refine List.IsPrefix.trans ?_
        ⟨_, (h.pairs src dest).prefix_sent.symm⟩
      unfold admitted
      rw [fromSource_append]
      exact prefix_append _ _
  case notHeld =>
      intro src dest hempty ev hev hbefore
      have hp := h.pairs src dest
      have hadmitted : f.admitted dest src = f.handledFrom dest src := by
        unfold admitted handledFrom
        rw [hempty, map_nil, append_nil]
      rw [hp.prefix_sent, hadmitted] at hev
      rcases mem_append.1 hev with hin | hout
      · exact hin
      · -- The first packet not admitted is on its way, and not after this one.
        have hre := hp.reassembly
        have hmem : stamp ev ∈ ((f.sent src dest).map stamp).drop
            (f.admitted dest src).length := by
          rw [← map_drop, hadmitted]
          exact mem_map.2 ⟨ev, hout, rfl⟩
        obtain ⟨q, hq, hqn⟩ := hre.first_missing_away hp.waiting hmem
        obtain ⟨r, hr, rfl⟩ := Multiset.mem_map.1 hq
        have hlt := hbefore r hr
        have hle := (hre.numbered.mem_drop hmem).1
        have hseq : seqOf (stamp ev) = ev.body.seq := rfl
        omega
  case awake => exact h.awake

/--
In every run in which no packet is delivered a whole window of tags ahead of
an earlier one of its pair, every handler is given the events of each source
in order, each once, and none is held without need.
-/
theorem handedInOrder_of_windowed (names : UInt64 → String → Option UInt64)
    (headers : UInt64 → NetType → Nat)
    {ops : List Op} {f : FourNetworks}
    (hwindow : StepsMeet step Windowed (start names headers) ops)
    (hrun : runOps step (start names headers) ops = some f) :
    f.HandedInOrder :=
  (runOps_invariant_of_stepsMeet
    (fun _ _ _ h hok hstep => ordered_step h hok hstep)
    (ordered_start names headers) hwindow hrun).handedInOrder

/-- A command without data overtaken by a writeback, on two networks. -/
def overtaking : List Op :=
  [.send 0 .GetS 0 "l2" 1, .send 0 .PutM 64 "l2" 1, .deliver .DATA 0,
    .deliver .REQ 0, .clock 1 (fun _ => 0)]

theorem handedInOrder_overtaking :
    ∃ f, runOps step (start (fun _ _ => some 1) (fun _ _ => 8)) overtaking =
        some f ∧
      (f.handled 1).map MemEventBase.cmd = [.GetS, .PutM] ∧
      f.HandedInOrder := by
  have hmap : (runOps step (start (fun _ _ => some 1) (fun _ _ => 8))
      overtaking).map (fun f => (f.handled 1).map MemEventBase.cmd) =
        some [.GetS, .PutM] := by
    decide +kernel
  obtain ⟨f, hrun, hhandled⟩ := map_eq_some_iff.1 hmap
  exact ⟨f, hrun, hhandled, handedInOrder_of_windowed _ _ (by decide +kernel) hrun⟩

end Runs

section Wrapping

/-- The event number `i` of a source that sends one command only. -/
def floodEvent (i : Nat) : MemEventBase Origin where
  cmd := .GetS
  payloadSize := 0
  dst := "l2"
  body :=
    { src := 0
      seq := i }

/-- Many packets of one pair are in flight, and none has arrived. -/
structure Flooded (n : Nat) (f : FourNetworks) : Prop where
  known : (f.nics 0).networkAddressMap "l2" = some 1
  address : (f.nics 0).addr = 0
  queue : (f.nics 0).sendQueue .REQ = []
  sendTag : (f.nics 0).sendTags 1 = UInt32.ofNat n
  sent : f.sent 0 1 = (range n).map floodEvent
  inFlight : (f.inFlight .REQ).map
      (fun r => (r.src, r.dest, r.payload)) =
    (range n).map (fun i => (0, 1, stamp (floodEvent i)))
  recvTag : (f.nics 1).recvTags 0 = 0
  recvQueue : (f.nics 1).recvQueue = []
  handled : f.handled 1 = []

theorem flooded_send {n : Nat} {f : FourNetworks} (h : Flooded n f) :
    ∃ g, f.step (.send 0 .GetS 0 "l2" 1) = some g ∧ Flooded (n + 1) g := by
  have hlabel : f.label 0 1 .GetS 0 "l2" = floodEvent n := by simp [label, floodEvent, h.sent]
  have hnet : netOf (floodEvent n) = .REQ := rfl
  have hdst : (floodEvent n).dst = "l2" := rfl
  obtain ⟨g, hg⟩ : ∃ g, f.step (.send 0 .GetS 0 "l2" 1) = some g := by
    simp only [step, stepSend, h.known, bind_some, hlabel, send, hdst, map_some]
    exact ⟨_, rfl⟩
  refine ⟨g, hg, ?_⟩
  simp only [step, stepSend, h.known, bind_some, hlabel, send, hdst,
    hnet, h.queue, map_some, Option.some.injEq] at hg
  subst g
  constructor
  case known => simpa using h.known
  case address => simpa using h.address
  case queue => simp [drainedBySend]
  case sendTag => simp [h.sendTag, UInt32.ofNat_add]
  case sent => simp [h.sent, range_succ]
  case inFlight =>
      simp [h.inFlight, range_succ, drainedBySend, packet, h.address, h.sendTag, stamp, floodEvent]
  case recvTag => simpa using h.recvTag
  case recvQueue => simpa using h.recvQueue
  case handled => simpa using h.handled

theorem flooded_run (n : Nat) :
    ∃ f, runOps step (start (fun _ _ => some 1) (fun _ _ => 8))
        (replicate n (.send 0 .GetS 0 "l2" 1)) = some f ∧ Flooded n f := by
  induction n with
  | zero =>
    exact ⟨_, rfl, rfl, rfl, rfl, rfl, rfl, rfl, rfl, rfl, rfl⟩
  | succ n ih =>
    obtain ⟨f, hrun, hf⟩ := ih
    obtain ⟨g, hstep, hg⟩ := flooded_send hf
    refine ⟨g, ?_, hg⟩
    rw [replicate_succ', runOps_append_iff]
    exact ⟨f, hrun, runOps_cons_iff.2 ⟨g, hstep, rfl⟩⟩

theorem head_flood (n : Nat) :
    ((range (n + 1)).map floodEvent).head? = some (floodEvent 0) := by
  rw [range_succ_eq_map]
  rfl

/-- A packet that overtakes a whole window of tags is taken for the first. -/
theorem overtaken_window_not_inOrder :
    ¬ ∀ names headers ops (f : FourNetworks),
        runOps step (start names headers) ops = some f →
          f.HandedInOrder := by
  intro h
  obtain ⟨f, hrun, hf⟩ := flooded_run (2 ^ 32 + 1)
  -- The last packet is delivered; its tag is that of the first one.
  have hget : ((f.inFlight .REQ)[2 ^ 32]?).map
      (fun r => (r.src, r.dest, r.payload)) =
        some (0, 1, stamp (floodEvent (2 ^ 32))) := by
    rw [← getElem?_map, hf.inFlight, getElem?_map, getElem?_range (Nat.lt_succ_self _)]
    rfl
  obtain ⟨req, hreq, hfields⟩ := map_eq_some_iff.1 hget
  obtain ⟨hsrc, hrest⟩ := Prod.mk.inj hfields
  obtain ⟨hdest, hpayload⟩ := Prod.mk.inj hrest
  have htag : req.payload.tag = (f.nics 1).recvTags 0 := by
    rw [hpayload, hf.recvTag]
    rfl
  obtain ⟨g, hg⟩ : ∃ g, f.step (.deliver .REQ (2 ^ 32)) = some g := by
    simp only [step, stepDeliver, hreq, map_some]
    exact ⟨_, rfl⟩
  have hstep := hg
  simp only [step, stepDeliver, hreq, map_some, Option.some.injEq] at hstep
  have hsent : g.sent = f.sent := by rw [← hstep]
  have hhandled : g.handled 1 = [floodEvent (2 ^ 32)] := by
    have hdoRecv : ((f.nics 1).doRecv req).2 = [floodEvent (2 ^ 32)] := by
      unfold doRecv accept
      simp only [hsrc, htag, hf.recvQueue, if_true]
      rw [hpayload]
      rfl
    rw [← hstep]
    simp only [hdest, update_self, hf.handled, nil_append]
    exact hdoRecv
  have hrun' : runOps step (start (fun _ _ => some 1) (fun _ _ => 8))
      (replicate (2 ^ 32 + 1) (.send 0 .GetS 0 "l2" 1) ++ [.deliver .REQ (2 ^ 32)]) = some g :=
    runOps_append_iff.2 ⟨f, hrun, runOps_cons_iff.2 ⟨g, hg, rfl⟩⟩
  have hprefix := (h _ _ _ g hrun').inOrder 0 1
  unfold handledFrom at hprefix
  rw [hhandled, hsent, hf.sent] at hprefix
  obtain ⟨rest, heq⟩ := hprefix
  have hhead := congrArg head? heq
  have hself : fromSource 0 [floodEvent (2 ^ 32)] =
      [floodEvent (2 ^ 32)] := rfl
  rw [head_flood (2 ^ 32), hself] at hhead
  have hseq := congrArg (fun ev => ev.body.seq) (some.inj hhead)
  exact absurd hseq (by decide)

end Wrapping

end SstElements.MemHierarchy.FourNetworks
